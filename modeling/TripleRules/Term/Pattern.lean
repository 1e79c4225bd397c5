import TripleRules.Term.Basic

/-!
# Patterns

When a ground triple is an instance of a pattern, and the canonical form under which patterns that
differ only in the names of their variables are the same.
-/

namespace TripleRules

abbrev Assignment := List (Variable × Term)

namespace Term

mutual

/-- Matches a term against a ground term.  A variable met again has to stand for the same term. -/
def fit : (pattern ground : Term) → Assignment → Option Assignment
  | var v, g, a =>
    match a.lookup v with
    | some bound => if bound = g then some a else none
    | none => some ((v, g) :: a)
  | compound f ps, compound g gs, a =>
    if f = g ∧ ps.length = gs.length then fitAll ps gs a else none
  | p, g, a => if p = g then some a else none

def fitAll : (patterns grounds : List Term) → Assignment → Option Assignment
  | p :: ps, g :: gs, a => (p.fit g a).bind (fitAll ps gs)
  | _, _, a => some a

end

def matches? (pattern ground : Term) : Bool := (pattern.fit ground []).isSome

end Term

namespace Triple

def fit (pattern ground : Triple) (a : Assignment) : Option Assignment :=
  Term.fitAll pattern.terms ground.terms a

def matches? (pattern ground : Triple) : Bool := (pattern.fit ground []).isSome

def canonicalVar (slot : Nat) : Variable := ⟨"_" ++ slot.repr, slot⟩

def normalize (t : Triple) : Triple :=
  t.mapVars fun v => .var (canonicalVar (t.vars.idxOf v))

/-- Whether two patterns ask for the same thing: they differ only in the names of variables. -/
def sameGoal (s t : Triple) : Bool := s.normalize = t.normalize

end Triple

end TripleRules
