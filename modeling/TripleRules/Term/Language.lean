import TripleRules.Term.Basic
import TripleRules.Text.Casing

/-!
# Language-tagged literals

Language tags are compared without regard to case, so literals keep them in small letters.
-/

namespace TripleRules

def Term.inLanguage (value tag : String) : Term := .literal ⟨value, .language (Text.lowercase tag)⟩

end TripleRules
