/-!
# Terms and triples

A term is a resource name, a literal, a blank node, a rule variable or a compound term.  A triple of
terms is a statement when it holds no variable, and a pattern otherwise; both have the one type
`Triple`.  Equality of terms is decided here by recursion on the term, so every test in the library
that compares terms also evaluates in proofs.
-/

namespace TripleRules

inductive Datatype where
  | plain
  | language (tag : String)
  | typed (iri : String)
  deriving DecidableEq, Inhabited

structure Literal where
  value : String
  datatype : Datatype
  deriving DecidableEq, Inhabited

def Literal.language? (l : Literal) : Option String :=
  match l.datatype with
  | .language tag => some tag
  | _ => none

def Literal.datatypeIri? (l : Literal) : Option String :=
  match l.datatype with
  | .typed iri => some iri
  | _ => none

/-- A node without a name: labeled in the input, or minted while rules ran. -/
inductive BlankNode where
  | labeled (label : String)
  | fresh (number : Nat)
  deriving DecidableEq, Inhabited

/-- A variable with the slot it occupies in the bindings of its rule.  Two variables are the same
only if both parts agree. -/
structure Variable where
  name : String
  slot : Nat
  deriving DecidableEq, Inhabited

inductive Term where
  | iri (name : String)
  | literal (lit : Literal)
  | blank (node : BlankNode)
  | var (v : Variable)
  | compound (functor : String) (args : List Term)
  deriving Inhabited

namespace Term

mutual

def decEq : (a b : Term) → Decidable (a = b)
  | iri a, iri b => decidable_of_iff (a = b) (by simp)
  | literal a, literal b => decidable_of_iff (a = b) (by simp)
  | blank a, blank b => decidable_of_iff (a = b) (by simp)
  | var a, var b => decidable_of_iff (a = b) (by simp)
  | compound f as, compound g bs =>
    if h : f = g then
      match decEqList as bs with
      | isTrue h' => isTrue (by rw [h, h'])
      | isFalse h' => isFalse (by simp [h'])
    else isFalse (by simp [h])
  | iri _, literal _ | iri _, blank _ | iri _, var _ | iri _, compound .. => isFalse (by simp)
  | literal _, iri _ | literal _, blank _ | literal _, var _ | literal _, compound .. =>
    isFalse (by simp)
  | blank _, iri _ | blank _, literal _ | blank _, var _ | blank _, compound .. =>
    isFalse (by simp)
  | var _, iri _ | var _, literal _ | var _, blank _ | var _, compound .. => isFalse (by simp)
  | compound .., iri _ | compound .., literal _ | compound .., blank _ | compound .., var _ =>
    isFalse (by simp)

def decEqList : (as bs : List Term) → Decidable (as = bs)
  | [], [] => isTrue rfl
  | [], _ :: _ | _ :: _, [] => isFalse (by simp)
  | a :: as, b :: bs =>
    match decEq a b with
    | isFalse h => isFalse (by simp [h])
    | isTrue h =>
      match decEqList as bs with
      | isTrue h' => isTrue (by rw [h, h'])
      | isFalse h' => isFalse (by simp [h'])

end

instance : DecidableEq Term := decEq

def plain (value : String) : Term := .literal ⟨value, .plain⟩

/-- A variable in slot zero; the rule it is put into assigns its slot. -/
def named (name : String) : Term := .var ⟨name, 0⟩

def isVar : Term → Bool
  | var _ => true
  | _ => false

mutual

def isGround : Term → Bool
  | var _ => false
  | compound _ args => allGround args
  | _ => true

def allGround : List Term → Bool
  | [] => true
  | t :: ts => t.isGround && allGround ts

end

mutual

def occurrences : Term → List Variable
  | var v => [v]
  | compound _ args => occurrencesAll args
  | _ => []

def occurrencesAll : List Term → List Variable
  | [] => []
  | t :: ts => t.occurrences ++ occurrencesAll ts

end

mutual

def mapVars (f : Variable → Term) : Term → Term
  | var v => f v
  | compound g args => compound g (mapVarsAll f args)
  | t => t

def mapVarsAll (f : Variable → Term) : List Term → List Term
  | [] => []
  | t :: ts => t.mapVars f :: mapVarsAll f ts

end

@[simp] theorem allGround_eq_all (ts : List Term) : allGround ts = ts.all isGround := by
  induction ts with
  | nil => rfl
  | cons t ts ih => simp [allGround, ih]

@[simp] theorem occurrencesAll_eq_flatMap (ts : List Term) :
    occurrencesAll ts = ts.flatMap occurrences := by
  induction ts with
  | nil => rfl
  | cons t ts ih => simp [occurrencesAll, ih]

@[simp] theorem mapVarsAll_eq_map (f : Variable → Term) (ts : List Term) :
    mapVarsAll f ts = ts.map (mapVars f) := by
  induction ts with
  | nil => rfl
  | cons t ts ih => simp [mapVarsAll, ih]

end Term

structure Triple where
  subject : Term
  predicate : Term
  object : Term
  deriving DecidableEq, Inhabited

namespace Triple

def terms (t : Triple) : List Term := [t.subject, t.predicate, t.object]

def isGround (t : Triple) : Bool :=
  t.subject.isGround && t.predicate.isGround && t.object.isGround

def occurrences (t : Triple) : List Variable := t.terms.flatMap Term.occurrences

def vars (t : Triple) : List Variable := t.occurrences.eraseDups

def mapVars (f : Variable → Term) (t : Triple) : Triple :=
  ⟨t.subject.mapVars f, t.predicate.mapVars f, t.object.mapVars f⟩

end Triple

end TripleRules
