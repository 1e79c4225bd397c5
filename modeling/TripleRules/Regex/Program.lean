import TripleRules.Regex.Expr

/-!
# Programs

An expression as a list of instructions.  Where an instruction has two successors the first one is
preferred, which is how greed and the order of alternatives are kept.
-/

namespace TripleRules.Regex

/-- An instruction; successors are addresses. -/
inductive Inst where
  | char (c : Class) (next : Nat)
  | position (p : Position) (next : Nat)
  | split (first second : Nat)
  /-- Notes the place of the text under the given number. -/
  | mark (slot next : Nat)
  | accept
  deriving Inhabited

abbrev Program := Array Inst

namespace Program

def emit (p : Program) (i : Inst) : Nat × Program := (p.size, p.push i)

def branch (greedy : Bool) (body skip : Nat) : Inst :=
  if greedy then .split body skip else .split skip body

/-- Applies a compiler `n` times, each time in front of what was compiled before. -/
def chain (compile : Nat → Program → Nat × Program) : Nat → Nat → Program → Nat × Program
  | 0, next, p => (next, p)
  | n + 1, next, p =>
    let (start, p) := compile next p
    chain compile n start p

def optional (compile : Nat → Program → Nat × Program) (greedy : Bool) (skip : Nat) :
    Nat → Nat → Program → Nat × Program
  | 0, next, p => (next, p)
  | n + 1, next, p =>
    let (body, p) := compile next p
    let (start, p) := p.emit (branch greedy body skip)
    optional compile greedy skip n start p

def loop (compile : Nat → Program → Nat × Program) (greedy : Bool) (next : Nat) (p : Program) :
    Nat × Program :=
  let (again, p) := p.emit .accept
  let (body, p) := compile again p
  (body, p.setIfInBounds again (branch greedy body next))

/-- Puts the instructions of an expression in front of the address `next`. -/
def compile : Expr → Nat → Program → Nat × Program
  | .empty, next, p => (next, p)
  | .char c, next, p => p.emit (.char c next)
  | .position q, next, p => p.emit (.position q next)
  | .seq a b, next, p =>
    let (middle, p) := compile b next p
    compile a middle p
  | .alt a b, next, p =>
    let (second, p) := compile b next p
    let (first, p) := compile a next p
    p.emit (.split first second)
  | .group i e, next, p =>
    let (close, p) := p.emit (.mark (2 * i + 1) next)
    let (body, p) := compile e close p
    p.emit (.mark (2 * i) body)
  | .rep e min (some max) greedy, next, p =>
    let (rest, p) := optional (compile e) greedy next (max - min) next p
    chain (compile e) min rest p
  | .rep e 0 none greedy, next, p =>
    if e.consumes then
      let (again, p) := p.emit .accept
      let (body, p) := compile e again p
      (again, p.setIfInBounds again (branch greedy body next))
    else
      let (body, p) := loop (compile e) greedy next p
      p.emit (branch greedy body next)
  | .rep e (n + 1) none greedy, next, p =>
    let (last, p) := loop (compile e) greedy next p
    chain (compile e) n last p

/-- The program of a whole pattern and the address where it starts.  The pattern itself is kept as
the group zero. -/
def ofExpr (e : Expr) : Nat × Program :=
  let (stop, p) := emit #[] .accept
  compile (.group 0 e) stop p

end Program

end TripleRules.Regex
