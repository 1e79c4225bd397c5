import TripleRules.Rule.Checked

/-!
# Calls in rule bodies

What a call clause means for the rule it stands in.  An error that is not fatal only makes the
clause fail and is noted; a fatal one is a fault.
-/

namespace TripleRules

/-- A call that broke off with an error that was not fatal. -/
structure BuiltinFailure where
  rule : String
  builtin : String
  message : String
  deriving DecidableEq, Inhabited

inductive CallResult where
  | holds (b : Bindings)
  | fails
  | noted (f : BuiltinFailure)
  | fault (f : Fault)
  deriving Inhabited

def CheckedRule.call (r : CheckedRule) (b : Builtin) (args : List Term) (env : Bindings)
    (fresh : Nat) : CallResult × Nat :=
  match b.call args env fresh with
  | (.holds env', fresh) => (.holds env', fresh)
  | (.fails, fresh) => (.fails, fresh)
  | (.error e, fresh) =>
    if e.isFatal then (.fault (.builtinFailed r.rule.label b.name e), fresh)
    else (.noted ⟨r.rule.label, b.name, e.message⟩, fresh)

end TripleRules
