import TripleRules.Builtin.Argument

/-!
# Tests on nodes

What kind of term an argument is, whether arguments are bound, and new blank nodes.  A variable is
of no kind, so the negated tests hold for it.
-/

namespace TripleRules.Builtin

def isLiteral : Term → Bool
  | .literal _ => true
  | _ => false

def isBlank : Term → Bool
  | .blank _ => true
  | _ => false

def isCompound : Term → Bool
  | .compound .. => true
  | _ => false

def test (name : String) (p : Term → Bool) : Builtin :=
  ofFun name (.exactly 1) fun args => .ok (.ofBool (args.head?.any p))

/-- Binds a variable to a new blank node.  Any other argument makes the call fail, and no node is
minted. -/
def makeTemp : Builtin where
  name := "makeTemp"
  arity := .exactly 1
  run args fresh :=
    match args.head? with
    | some (.var _) => (.ok (.holds [(0, .blank (.fresh fresh))]), fresh + 1)
    | _ => (.ok .fails, fresh)

def node : List Builtin :=
  [test "isLiteral" isLiteral, test "notLiteral" (!isLiteral ·), test "isBNode" isBlank,
    test "notBNode" (!isBlank ·), test "isFunctor" isCompound,
    ofFun "bound" (.atLeast 1) fun args => .ok (.ofBool (args.all (!·.isVar))),
    ofFun "unbound" (.atLeast 1) fun args => .ok (.ofBool (args.all (·.isVar))), makeTemp]

end TripleRules.Builtin
