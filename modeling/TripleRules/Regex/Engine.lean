import TripleRules.Builtin.Text
import TripleRules.Regex.Reading
import TripleRules.Regex.Search

/-!
# A search for patterns
-/

namespace TripleRules.Regex

def PatternError.text : PatternError → String
  | malformed => "invalid"
  | tooLarge => "Compiled regex exceeds size limit of 10485760 bytes."

/-- Patterns in the notation of this library, searched for from the left. -/
def engine : PatternSearch := fun pattern =>
  match Expr.read pattern with
  | .error e => .error e.text
  | .ok e => .ok fun text => (e.search text).map Captures.group?

end TripleRules.Regex
