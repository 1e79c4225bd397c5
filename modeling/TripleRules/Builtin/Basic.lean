import TripleRules.Term.Bindings

/-!
# Builtins

A builtin is a procedure that a rule body calls by name.  It sees its arguments with the bindings of
the rule put in, and holds, fails or breaks off with an error.  When it holds it may bind argument
positions.  A builtin may mint blank nodes: it takes the number of the next one and gives back the
number after the last.
-/

namespace TripleRules

inductive ArithmeticError where
  | overflow (x y : Int)
  | divisionByZero
  | unordered
  deriving DecidableEq, Inhabited

/-- Why a builtin gave no answer.  Only a fatal error ends the reasoning; any other one fails the
clause that made the call. -/
inductive BuiltinError where
  | unbound (index : Nat)
  | type (index : Nat) (expected found : String)
  | arithmetic (cause : ArithmeticError)
  | fatal (message : String)
  deriving DecidableEq, Inhabited

def ArithmeticError.message : ArithmeticError → String
  | overflow x y => "integer overflow on " ++ toString x ++ " and " ++ toString y
  | divisionByZero => "division by zero"
  | unordered => "unordered numbers (NaN)"

def BuiltinError.message : BuiltinError → String
  | unbound i => "argument " ++ i.repr ++ " is unbound"
  | type i expected found =>
    "argument " ++ i.repr ++ ": expected " ++ expected ++ ", found " ++ found
  | arithmetic cause => "arithmetic error: " ++ cause.message
  | fatal message => "fatal: " ++ message

def BuiltinError.isFatal : BuiltinError → Bool
  | fatal _ => true
  | _ => false

/-- Whether a call holds, and the values it gives to argument positions. -/
inductive Answer where
  | holds (bindings : List (Nat × Term))
  | fails
  deriving DecidableEq, Inhabited

def Answer.ofBool (b : Bool) : Answer := if b then .holds [] else .fails

inductive Arity where
  | exactly (n : Nat)
  | atLeast (n : Nat)
  deriving DecidableEq, Inhabited

def Arity.accepts : Arity → Nat → Bool
  | exactly k, n => n == k
  | atLeast k, n => k ≤ n

def Arity.text : Arity → String
  | exactly k => k.repr
  | atLeast k => "at least " ++ k.repr

structure Builtin where
  name : String
  arity : Arity
  run : List Term → Nat → Except BuiltinError Answer × Nat

namespace Builtin

instance : Inhabited Builtin := ⟨⟨"", .atLeast 0, fun _ fresh => (.ok .fails, fresh)⟩⟩

/-- A builtin that mints nothing, and so is a function of its arguments. -/
def ofFun (name : String) (arity : Arity) (f : List Term → Except BuiltinError Answer) : Builtin :=
  ⟨name, arity, fun args fresh => (f args, fresh)⟩

def text (b : Builtin) : String := "Builtin(" ++ b.name ++ "/" ++ b.arity.text ++ ")"

end Builtin

structure Registry where
  builtins : List Builtin
  deriving Inhabited

namespace Registry

def empty : Registry := ⟨[]⟩

def find? (r : Registry) (name : String) : Option Builtin := r.builtins.find? (·.name == name)

def put (b : Builtin) : List Builtin → List Builtin
  | [] => [b]
  | c :: cs => if c.name = b.name then b :: cs else c :: put b cs

def register (r : Registry) (b : Builtin) : Registry := ⟨put b r.builtins⟩

def names (r : Registry) : List String := r.builtins.map (·.name)

def size (r : Registry) : Nat := r.builtins.length

end Registry

inductive CallOutcome where
  /-- The call holds under these bindings. -/
  | holds (b : Bindings)
  | fails
  | error (e : BuiltinError)
  deriving Inhabited

/-- Extends bindings by the values that a call gave to its arguments.  An argument that is not a
variable has to be the very value given; a position beyond the arguments takes none. -/
def Bindings.accept (resolved : List Term) : List (Nat × Term) → Bindings → Option Bindings
  | [], b => some b
  | (i, value) :: rest, b =>
    match resolved[i]? with
    | none => none
    | some (.var v) =>
      match b.bind v value with
      | .ok b' => b'.accept resolved rest
      | .error _ => none
    | some given => if given = value then b.accept resolved rest else none

def Builtin.call (b : Builtin) (args : List Term) (env : Bindings) (fresh : Nat) :
    CallOutcome × Nat :=
  let resolved := args.map env.resolve
  let (result, fresh) := b.run resolved fresh
  match result with
  | .error e => (.error e, fresh)
  | .ok .fails => (.fails, fresh)
  | .ok (.holds bindings) =>
    match env.accept resolved bindings with
    | some env' => (.holds env', fresh)
    | none => (.fails, fresh)

end TripleRules
