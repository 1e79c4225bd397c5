import TripleRules.Term.Pattern

/-!
# Bindings

The slots of one rule instance and the terms bound to them.  An operation that may clash answers
`Except Bindings Bindings`: either way the bindings are those made so far, and the outcome says
whether every part agreed.
-/

namespace TripleRules

structure Bindings where
  slots : List (Option Term)
  deriving DecidableEq, Inhabited

namespace Bindings

def empty (size : Nat) : Bindings := ⟨List.replicate size none⟩

def size (b : Bindings) : Nat := b.slots.length

def get? (b : Bindings) (v : Variable) : Option Term := (b.slots[v.slot]?).join

/-- Binds a variable, or checks the value that it has.  A slot that does not exist cannot be
bound. -/
def bind (b : Bindings) (v : Variable) (value : Term) : Except Bindings Bindings :=
  match b.slots[v.slot]? with
  | none => .error b
  | some none => .ok ⟨b.slots.set v.slot (some value)⟩
  | some (some bound) => if bound = value then .ok b else .error b

def resolve (b : Bindings) (t : Term) : Term := t.mapVars fun v => (b.get? v).getD (.var v)

def instantiate (b : Bindings) (pattern : Triple) : Triple :=
  ⟨b.resolve pattern.subject, b.resolve pattern.predicate, b.resolve pattern.object⟩

mutual

def unify : (pattern ground : Term) → Bindings → Except Bindings Bindings
  | .var v, g, b => if g.isGround then b.bind v g else .error b
  | .compound f ps, .compound g gs, b =>
    if f = g ∧ ps.length = gs.length then unifyAll ps gs b else .error b
  | p, g, b => if p = g then .ok b else .error b

def unifyAll : (patterns grounds : List Term) → Bindings → Except Bindings Bindings
  | p :: ps, g :: gs, b =>
    match unify p g b with
    | .ok b' => unifyAll ps gs b'
    | .error b' => .error b'
  | _, _, b => .ok b

end

def match? (b : Bindings) (pattern ground : Triple) : Option Bindings :=
  (unifyAll pattern.terms ground.terms b).toOption

mutual

/-- Takes from a goal term what it says about a rule head.  A variable of the goal says nothing; a
ground goal term binds a variable of the head; a goal term with variables inside only restricts a
variable that is already bound. -/
def unifyGoal : (head goal : Term) → Bindings → Except Bindings Bindings
  | _, .var _, b => .ok b
  | .var v, g, b =>
    if g.isGround then b.bind v g
    else
      match b.get? v with
      | none => .ok b
      | some bound => if g.matches? bound then .ok b else .error b
  | .compound f hs, .compound g gs, b =>
    if f = g ∧ hs.length = gs.length then unifyGoalAll hs gs b else .error b
  | h, g, b => if h = g then .ok b else .error b

def unifyGoalAll : (heads goals : List Term) → Bindings → Except Bindings Bindings
  | h :: hs, g :: gs, b =>
    match unifyGoal h g b with
    | .ok b' => unifyGoalAll hs gs b'
    | .error b' => .error b'
  | _, _, b => .ok b

end

def withGoal (b : Bindings) (head goal : Triple) : Except Bindings Bindings :=
  unifyGoalAll head.terms goal.terms b

end Bindings

end TripleRules
