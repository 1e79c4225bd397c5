import TripleRules.Term.Bindings

/-!
# Rules

A rule has a body of clauses and a head of conclusions.  A clause is a pattern or a call of a
builtin; a conclusion is a pattern or another rule, which is installed when the outer rule fires.
`Rule.make` numbers the variables of a rule by the first occurrence of their names: in the body,
then in the head, where the body of a nested rule goes before its head.
-/

namespace TripleRules

/-- Which way a rule is used: to derive whatever follows from the data, to prove what is asked for,
or both. -/
inductive Direction where
  | forward
  | backward
  | both
  deriving DecidableEq, Inhabited

def Direction.all : List Direction := [.forward, .backward, .both]

def Direction.name : Direction → String
  | forward => "forward"
  | backward => "backward"
  | both => "both"

def Direction.isForward : Direction → Bool
  | forward | both => true
  | backward => false

def Direction.isBackward : Direction → Bool
  | backward | both => true
  | forward => false

inductive Clause where
  | pattern (t : Triple)
  | call (builtin : String) (args : List Term)
  deriving DecidableEq, Inhabited

namespace Clause

def isCall : Clause → Bool
  | call .. => true
  | pattern _ => false

def occurrences : Clause → List Variable
  | pattern t => t.occurrences
  | call _ args => args.flatMap Term.occurrences

def mapVars (f : Variable → Term) : Clause → Clause
  | pattern t => pattern (t.mapVars f)
  | call builtin args => call builtin (args.map (Term.mapVars f))

end Clause

mutual

/-- A rule, with the number of slots that its variables need. -/
inductive Rule where
  | mk (name : Option String) (body : List Clause) (head : List Conclusion)
      (direction : Direction) (slots : Nat)

inductive Conclusion where
  | pattern (t : Triple)
  | rule (r : Rule)

end

namespace Rule

def name : Rule → Option String
  | mk name .. => name

def body : Rule → List Clause
  | mk _ body .. => body

def head : Rule → List Conclusion
  | mk _ _ head .. => head

def direction : Rule → Direction
  | mk _ _ _ direction _ => direction

def slots : Rule → Nat
  | mk _ _ _ _ slots => slots

mutual

def decEq : (r s : Rule) → Decidable (r = s)
  | mk n b h d k, mk n' b' h' d' k' =>
    if e : n = n' ∧ b = b' ∧ d = d' ∧ k = k' then
      match decEqHead h h' with
      | isTrue eh => isTrue (by simp only [e, eh])
      | isFalse eh => isFalse (by simp [eh])
    else isFalse fun h => e (by injection h; simp [*])

def decEqConclusion : (c d : Conclusion) → Decidable (c = d)
  | .pattern s, .pattern t => decidable_of_iff (s = t) (by simp)
  | .rule r, .rule s =>
    match decEq r s with
    | isTrue h => isTrue (by rw [h])
    | isFalse h => isFalse (by simp [h])
  | .pattern _, .rule _ | .rule _, .pattern _ => isFalse (by simp)

def decEqHead : (cs ds : List Conclusion) → Decidable (cs = ds)
  | [], [] => isTrue rfl
  | [], _ :: _ | _ :: _, [] => isFalse (by simp)
  | c :: cs, d :: ds =>
    match decEqConclusion c d with
    | isFalse h => isFalse (by simp [h])
    | isTrue h =>
      match decEqHead cs ds with
      | isTrue h' => isTrue (by rw [h, h'])
      | isFalse h' => isFalse (by simp [h'])

end

instance : DecidableEq Rule := decEq
instance : DecidableEq Conclusion := decEqConclusion
instance : Inhabited Rule := ⟨mk none [] [] .forward 0⟩
instance : Inhabited Conclusion := ⟨.rule default⟩

def withName : Rule → Option String → Rule
  | mk _ body head direction slots, name => mk name body head direction slots

/-- Whether no clause of the body is a pattern, so that the rule fires without any data. -/
def isAxiom (r : Rule) : Bool := r.body.all Clause.isCall

def headPattern? (r : Rule) : Option Triple :=
  match r.head with
  | [.pattern t] => some t
  | _ => none

end Rule

mutual

def Conclusion.occurrences : Conclusion → List Variable
  | .pattern t => t.occurrences
  | .rule (.mk _ body head _ _) =>
    body.flatMap Clause.occurrences ++ Conclusion.occurrencesAll head

def Conclusion.occurrencesAll : List Conclusion → List Variable
  | [] => []
  | c :: cs => c.occurrences ++ Conclusion.occurrencesAll cs

end

mutual

def Conclusion.mapVars (f : Variable → Term) : Conclusion → Conclusion
  | .pattern t => .pattern (t.mapVars f)
  | .rule (.mk name body head direction slots) =>
    .rule (.mk name (body.map (Clause.mapVars f)) (Conclusion.mapVarsAll f head) direction slots)

def Conclusion.mapVarsAll (f : Variable → Term) : List Conclusion → List Conclusion
  | [] => []
  | c :: cs => c.mapVars f :: Conclusion.mapVarsAll f cs

end

namespace Rule

def varNames (body : List Clause) (head : List Conclusion) : List String :=
  ((body.flatMap Clause.occurrences ++ Conclusion.occurrencesAll head).map (·.name)).eraseDups

def slotted (names : List String) (v : Variable) : Term := .var ⟨v.name, names.idxOf v.name⟩

/-- Builds a rule without a name and numbers its variables.  Nested rules keep the slot count that
they were built with, while their variables take the numbers of the outer rule. -/
def make (body : List Clause) (head : List Conclusion) (direction : Direction) : Rule :=
  let names := varNames body head
  mk none (body.map (Clause.mapVars (slotted names)))
    (Conclusion.mapVarsAll (slotted names) head) direction names.length

/-- Puts the bindings of an outer rule into a nested one.  The result is a backward rule of its own,
with its remaining variables numbered afresh. -/
def specialize (r : Rule) (b : Bindings) : Rule :=
  let value (v : Variable) : Term := (b.get? v).getD (.var v)
  (make (r.body.map (Clause.mapVars value)) (Conclusion.mapVarsAll value r.head)
    .backward).withName r.name

end Rule

end TripleRules
