import TripleRules.Builtin.Basic
import TripleRules.Error.Report
import TripleRules.Term.Text

/-!
# Faults

What can go wrong when rules are checked, a graph is used or a reasoner is built.  A fault names its
cause; its code, wording and context are given here, in one place.
-/

namespace TripleRules

/-- The cause of an error.  Rules are given by their labels. -/
inductive Fault where
  | noHead (rule : String)
  /-- A backward rule that does not conclude exactly one pattern. -/
  | notSinglePattern (rule : String)
  | unsafeVariable (rule : String) (v : Variable)
  | unknownBuiltin (rule builtin : String)
  | wrongArity (rule builtin : String) (arity : Arity) (given : Nat)
  | builtinFailed (rule builtin : String) (error : BuiltinError)
  | graphClosed
  | notGround (t : Triple)
  | invalidSetting (key problem : String)
  deriving DecidableEq, Inhabited

namespace Fault

def code : Fault → ErrorCode
  | noHead _ | notSinglePattern _ => .malformedRule
  | unsafeVariable .. => .unsafeVariable
  | unknownBuiltin .. => .unknownBuiltin
  | wrongArity .. => .builtinArity
  | builtinFailed .. => .builtinFailed
  | graphClosed => .graphClosed
  | notGround _ => .nonGroundTriple
  | invalidSetting .. => .invalidConfigValue

def message : Fault → String
  | noHead rule => "rule " ++ rule ++ " has no head"
  | notSinglePattern rule =>
    "backward rule " ++ rule ++ " must have exactly one head pattern and no nested rules"
  | unsafeVariable rule v =>
    "head variable " ++ v.text ++ " of rule " ++ rule ++ " does not occur in the body"
  | unknownBuiltin rule builtin => "rule " ++ rule ++ " calls unknown builtin " ++ builtin
  | wrongArity rule builtin arity given =>
    "builtin " ++ builtin ++ " takes " ++ arity.text ++ " arguments, rule " ++ rule ++ " passes "
      ++ given.repr
  | builtinFailed _ _ error => error.message
  | graphClosed => "inference graph has been closed"
  | notGround t => "cannot add non-ground triple " ++ t.text
  | invalidSetting key problem => "Invalid value for " ++ key ++ ": " ++ problem

def fields : Fault → List (String × String)
  | unsafeVariable rule v => [("rule", rule), ("variable", v.text)]
  | unknownBuiltin _ builtin => [("builtin", builtin)]
  | builtinFailed rule builtin _ => [("builtin", builtin), ("rule", rule)]
  | _ => []

def report (f : Fault) : ErrorReport :=
  f.fields.foldl (fun r (key, value) => r.withField key value)
    { code := f.code, message := f.message }

end Fault

end TripleRules
