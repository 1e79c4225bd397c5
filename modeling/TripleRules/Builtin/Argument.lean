import TripleRules.Builtin.Basic
import TripleRules.Term.Number
import TripleRules.Term.Text

/-!
# Arguments of builtins

Reading arguments as numbers or text, with the error that says what was wrong, and giving a result
to an argument: a variable is bound, and any other term has to have the value of the result.
-/

namespace TripleRules

def Term.kind : Term → String
  | iri _ => "URI"
  | literal l => "literal " ++ l.text
  | blank _ => "blank node"
  | var v => "unbound " ++ v.text
  | compound f _ => "functor " ++ f

/-- Whether two terms have the same value: numbers by their value, all else by equality. -/
def Term.sameValue (a b : Term) : Bool :=
  match a.number?, b.number? with
  | some m, some n => m.compare? n == some .eq
  | _, _ => a = b

namespace Builtin

def boundArg (args : List Term) (i : Nat) : Except BuiltinError Term :=
  match args[i]? with
  | none | some (.var _) => .error (.unbound i)
  | some t => .ok t

def numberArg (args : List Term) (i : Nat) : Except BuiltinError Number := do
  let t ← boundArg args i
  match t.number? with
  | some n => .ok n
  | none => .error (.type i "number" t.kind)

/-- The characters of an argument: the value of a literal, the name of a resource, the text of a
blank node. -/
def lexicalArg (args : List Term) (i : Nat) : Except BuiltinError String := do
  match ← boundArg args i with
  | .literal l => .ok l.value
  | .iri name => .ok name
  | .blank b => .ok b.text
  | t => .error (.type i "node" t.kind)

def bindOrCheck (args : List Term) (i : Nat) (value : Term) : Answer :=
  match args[i]? with
  | none => .fails
  | some (.var _) => .holds [(i, value)]
  | some t => .ofBool (t.sameValue value)

end Builtin

end TripleRules
