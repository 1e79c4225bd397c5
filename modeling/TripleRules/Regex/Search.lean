import TripleRules.Regex.Program

/-!
# Searching a text

All branches of a program advance through the text together, in order of preference, and no two of
them stand at the same instruction.  The first match that no preferred branch can displace wins; it
is the leftmost one, and among those the one that the pattern prefers.
-/

namespace TripleRules.Regex

/-- A branch in progress: the instruction that reads next and the places noted so far. -/
structure Thread where
  pc : Nat
  marks : List (Nat × Nat)

structure Gathered where
  threads : Array Thread
  visited : Array Bool

/-- Follows instructions that read nothing, preferred successors first, and gathers the branches
that are ready to read or accept.  Every visit of an address leaves at most two more to make. -/
def gather (p : Program) (before after : Option Char) (place : Nat) :
    (fuel : Nat) → List Thread → Gathered → Gathered
  | 0, _, g => g
  | _, [], g => g
  | fuel + 1, t :: todo, g =>
    if g.visited.getD t.pc true then gather p before after place fuel todo g
    else
      let g := { g with visited := g.visited.setIfInBounds t.pc true }
      match p[t.pc]? with
      | some (.split a b) =>
        gather p before after place fuel (⟨a, t.marks⟩ :: ⟨b, t.marks⟩ :: todo) g
      | some (.mark slot next) =>
        gather p before after place fuel (⟨next, (slot, place) :: t.marks⟩ :: todo) g
      | some (.position q next) =>
        if q.holds before after then
          gather p before after place fuel (⟨next, t.marks⟩ :: todo) g
        else gather p before after place fuel todo g
      | _ => gather p before after place fuel todo { g with threads := g.threads.push t }

def ready (p : Program) (before after : Option Char) (place : Nat) (ts : List Thread) :
    List Thread :=
  let start : Gathered := ⟨#[], Array.replicate p.size false⟩
  (gather p before after place (ts.length + 2 * p.size + 1) ts start).threads.toList

/-- The branches that read the next character, up to one that accepts, and the marks of that one. -/
def advance (p : Program) (next : Option Char) :
    List Thread → List Thread × Option (List (Nat × Nat))
  | [] => ([], none)
  | t :: ts =>
    match p[t.pc]? with
    | some .accept => ([], some t.marks)
    | some (.char c target) =>
      let (rest, found) := advance p next ts
      if next.any c.contains then (⟨target, t.marks⟩ :: rest, found) else (rest, found)
    | _ => advance p next ts

/-- Reads the text to its end.  Until something has matched, a new branch starts at every place,
behind all that are under way. -/
def scan (p : Program) (start : Nat) (before : Option Char) (place : Nat) (running : List Thread)
    (best : Option (List (Nat × Nat))) : List Char → Option (List (Nat × Nat))
  | [] =>
    let ts := if best.isNone then running ++ [⟨start, []⟩] else running
    (advance p none (ready p before none place ts)).2.or best
  | c :: cs =>
    let ts := if best.isNone then running ++ [⟨start, []⟩] else running
    let (running, found) := advance p (some c) (ready p before (some c) place ts)
    scan p start (some c) (place + 1) running (found.or best) cs

/-- Where the groups of a match lie: the text of a group that took part in it. -/
structure Captures where
  text : List Char
  marks : List (Nat × Nat)

def Captures.group? (m : Captures) (i : Nat) : Option String :=
  match m.marks.lookup (2 * i), m.marks.lookup (2 * i + 1) with
  | some a, some b => some (String.ofList ((m.text.drop a).take (b - a)))
  | _, _ => none

def Expr.search (e : Expr) (text : String) : Option Captures :=
  let (start, p) := Program.ofExpr e
  let cs := text.toList
  (scan p start none 0 [] none cs).map (⟨cs, ·⟩)

end TripleRules.Regex
