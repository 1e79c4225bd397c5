import TripleRules.Builtin.Argument

/-!
# Comparison

Equality of values, and the order of numbers.
-/

namespace TripleRules.Builtin

def equality (expected : Bool) (args : List Term) : Except BuiltinError Answer := do
  let a ← boundArg args 0
  let b ← boundArg args 1
  return .ofBool (a.sameValue b == expected)

/-- Whether two numbers stand in the given order.  Unordered numbers stand in none. -/
def ordered (test : Ordering → Bool) (args : List Term) : Except BuiltinError Answer := do
  let a ← numberArg args 0
  let b ← numberArg args 1
  return .ofBool ((a.compare? b).any test)

def comparison : List Builtin :=
  [ofFun "equal" (.exactly 2) (equality true), ofFun "notEqual" (.exactly 2) (equality false),
    ofFun "lessThan" (.exactly 2) (ordered Ordering.isLT),
    ofFun "greaterThan" (.exactly 2) (ordered Ordering.isGT),
    ofFun "le" (.exactly 2) (ordered Ordering.isLE),
    ofFun "ge" (.exactly 2) (ordered Ordering.isGE)]

end TripleRules.Builtin
