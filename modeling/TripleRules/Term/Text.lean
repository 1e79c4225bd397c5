import TripleRules.Term.Basic

/-!
# The text of terms

Terms are written the way rules quote them: resources in angle brackets, literals in double quotes
without escapes, blank nodes after `_:`, variables after `?`.  The inspection form differs in one
point: a variable shows its slot.
-/

namespace TripleRules

def Literal.text (l : Literal) : String :=
  match l.datatype with
  | .plain => "\"" ++ l.value ++ "\""
  | .language tag => "\"" ++ l.value ++ "\"@" ++ tag
  | .typed iri => "\"" ++ l.value ++ "\"^^<" ++ iri ++ ">"

def BlankNode.text : BlankNode → String
  | labeled label => "_:" ++ label
  | fresh number => "_:t" ++ number.repr

def BlankNode.label? : BlankNode → Option String
  | labeled label => some label
  | fresh _ => none

def Variable.text (v : Variable) : String := "?" ++ v.name

def Variable.inspect (v : Variable) : String := "?" ++ v.name ++ "#" ++ v.slot.repr

def iriText (iri : String) : String := "<" ++ iri ++ ">"

namespace Term

mutual

def render (showVar : Variable → String) : Term → String
  | iri name => iriText name
  | literal l => l.text
  | blank b => b.text
  | var v => showVar v
  | compound f args => f ++ "(" ++ ", ".intercalate (renderAll showVar args) ++ ")"

def renderAll (showVar : Variable → String) : List Term → List String
  | [] => []
  | t :: ts => t.render showVar :: renderAll showVar ts

end

def text (t : Term) : String := t.render Variable.text

def inspect (t : Term) : String := t.render Variable.inspect

/-- The characters that a term stands for in a report: the value of a literal and the name of a
resource without quotes or brackets, and the text of any other term. -/
def lexical : Term → String
  | literal l => l.value
  | iri name => name
  | t => t.text

end Term

namespace Triple

def render (showTerm : Term → String) (t : Triple) : String :=
  "(" ++ " ".intercalate (t.terms.map showTerm) ++ ")"

def text (t : Triple) : String := t.render Term.text

def inspect (t : Triple) : String := t.render Term.inspect

end Triple

end TripleRules
