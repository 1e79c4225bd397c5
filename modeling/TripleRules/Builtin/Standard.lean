import TripleRules.Builtin.Arithmetic
import TripleRules.Builtin.Comparison
import TripleRules.Builtin.Node
import TripleRules.Regex.Engine

/-!
# The standard builtins

They are the same whatever search they are given for patterns.
-/

namespace TripleRules.Registry

/-- The builtins that every rule base knows unless it is given others. -/
def standardWith (search : PatternSearch) : Registry :=
  (Builtin.comparison ++ Builtin.arithmetic ++ Builtin.node ++ Builtin.onText search).foldl
    register empty

def standard : Registry := standardWith Regex.engine

end TripleRules.Registry
