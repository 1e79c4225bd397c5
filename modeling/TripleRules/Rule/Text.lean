import TripleRules.Rule.Basic
import TripleRules.Term.Text

/-!
# The text of rules

Clauses and conclusions are joined by spaces around an arrow that shows the direction.
-/

namespace TripleRules

def Clause.text : Clause → String
  | pattern t => t.text
  | call builtin args => (Term.compound builtin args).text

def Rule.frame (name : Option String) (direction : Direction) (body head : List String) : String :=
  let opening := match name with
    | some n => "[" ++ n ++ ": "
    | none => "["
  let body := " ".intercalate body
  let head := " ".intercalate head
  opening ++ (match direction with
    | .backward => head ++ " <- " ++ body
    | .forward => body ++ " -> " ++ head
    | .both => body ++ " <-> " ++ head) ++ "]"

mutual

def Conclusion.text : Conclusion → String
  | .pattern t => t.text
  | .rule (.mk name body head direction _) =>
    Rule.frame name direction (body.map Clause.text) (Conclusion.texts head)

def Conclusion.texts : List Conclusion → List String
  | [] => []
  | c :: cs => c.text :: Conclusion.texts cs

end

namespace Rule

def text (r : Rule) : String :=
  frame r.name r.direction (r.body.map Clause.text) (Conclusion.texts r.head)

/-- What messages call a rule: its name, or its text if it has none. -/
def label (r : Rule) : String := r.name.getD r.text

end Rule

end TripleRules
