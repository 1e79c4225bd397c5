import TripleRules.Error.Fault
import TripleRules.Rule.Text

/-!
# Checked rules

A rule is checked before any engine sees it: its head has the form that its direction asks for,
every head variable occurs in the body, and every call in it or in a rule nested in it names a known
builtin with a fitting number of arguments.
-/

namespace TripleRules

/-- A clause of a checked body: calls hold the builtin itself. -/
inductive Premise where
  | pattern (t : Triple)
  | call (builtin : Builtin) (args : List Term)
  deriving Inhabited

/-- A rule that passed the checks, with its body ready to be run. -/
structure CheckedRule where
  rule : Rule
  body : List Premise
  deriving Inhabited

namespace Rule

/-- The first variable of a pattern in the head that does not occur in the body. -/
def unsafeVariable? (r : Rule) : Option Variable :=
  let bound := r.body.flatMap Clause.occurrences
  r.head.findSome? fun
    | .pattern t => t.vars.find? fun v => !bound.contains v
    | .rule _ => none

/-- Checks the form of a rule.  The variables of nested rules are not looked at, since the outer
rule may bind them. -/
def validate (r : Rule) : Except Fault Unit :=
  if r.head = [] then .error (.noHead r.label)
  else if r.direction.isBackward && r.headPattern?.isNone then
    .error (.notSinglePattern r.label)
  else
    match r.unsafeVariable? with
    | some v => .error (.unsafeVariable r.label v)
    | none => .ok ()

end Rule

def Registry.resolve (known : Registry) (label name : String) (arity : Nat) :
    Except Fault Builtin :=
  match known.find? name with
  | none => .error (.unknownBuiltin label name)
  | some b =>
    if b.arity.accepts arity then .ok b else .error (.wrongArity label name b.arity arity)

def Clause.resolve (known : Registry) (label : String) : Clause → Except Fault Premise
  | pattern t => .ok (.pattern t)
  | call name args => (known.resolve label name args.length).map (.call · args)

def resolveBody (known : Registry) (label : String) (body : List Clause) :
    Except Fault (List Premise) :=
  body.mapM (Clause.resolve known label)

mutual

def Conclusion.checkCalls (known : Registry) : Conclusion → Except Fault Unit
  | .pattern _ => .ok ()
  | .rule (.mk name body head direction slots) =>
    match resolveBody known (Rule.mk name body head direction slots).label body with
    | .error e => .error e
    | .ok _ => Conclusion.checkAllCalls known head

def Conclusion.checkAllCalls (known : Registry) : List Conclusion → Except Fault Unit
  | [] => .ok ()
  | c :: cs =>
    match c.checkCalls known with
    | .error e => .error e
    | .ok _ => Conclusion.checkAllCalls known cs

end

def Rule.check (r : Rule) (known : Registry) : Except Fault CheckedRule := do
  r.validate
  let body ← resolveBody known r.label r.body
  Conclusion.checkAllCalls known r.head
  return ⟨r, body⟩

namespace CheckedRule

def slots (r : CheckedRule) : Nat := r.rule.slots

def headPattern? (r : CheckedRule) : Option Triple := r.rule.headPattern?

/-- The bindings with which the rule starts on a goal, if its head can give an answer. -/
def start? (r : CheckedRule) (goal : Triple) : Option Bindings :=
  r.headPattern?.bind fun head => ((Bindings.empty r.slots).withGoal head goal).toOption

def headMatches (r : CheckedRule) (goal : Triple) : Bool := (r.start? goal).isSome

end CheckedRule

end TripleRules
