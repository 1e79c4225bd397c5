import TripleRules.Builtin.Argument

/-!
# Arithmetic

Sums, differences, products and quotients, the smaller and the greater of two numbers.  Integers
give integers, and a result outside sixty-four bits is an error; with a float the result is a float.
Sums and differences can be solved for either operand.
-/

namespace TripleRules.Builtin

inductive Operation where
  | add
  | sub
  | mul

namespace Operation

def onInts : Operation → Int → Int → Int
  | add => (· + ·)
  | sub => (· - ·)
  | mul => (· * ·)

def onFloats : Operation → Float → Float → Float
  | add => (· + ·)
  | sub => (· - ·)
  | mul => (· * ·)

/-- Exact on integers, rounded on floats. -/
def apply (op : Operation) : Number → Number → Except BuiltinError Number
  | .integer x, .integer y =>
    let r := op.onInts x y
    if Decimal.fitsInt64 r then .ok (.integer r) else .error (.arithmetic (.overflow x y))
  | a, b => .ok (.decimal (op.onFloats a.toFloat b.toFloat))

end Operation

/-- How an operand follows from the other operand and the result. -/
abbrev Inverse := (operand result : Number) → Except BuiltinError Number

/-- Computes the third argument from the first two, or one of these from the other and the third if
it is unbound and there is a way to solve for it. -/
def solve (op : Operation) (first second : Option Inverse) (args : List Term) :
    Except BuiltinError Answer :=
  match numberArg args 0, numberArg args 1 with
  | .ok a, .ok b => do
    let c ← op.apply a b
    return bindOrCheck args 2 (.ofNumber c)
  | .error e, .ok b =>
    match e, first with
    | .unbound _, some inverse => do
      let c ← numberArg args 2
      let a ← inverse b c
      return bindOrCheck args 0 (.ofNumber a)
    | _, _ => .error e
  | .ok a, .error e =>
    match e, second with
    | .unbound _, some inverse => do
      let c ← numberArg args 2
      let b ← inverse a c
      return bindOrCheck args 1 (.ofNumber b)
    | _, _ => .error e
  | .error e, .error _ => .error e

def sum : List Term → Except BuiltinError Answer :=
  solve .add (some fun b c => Operation.sub.apply c b) (some fun a c => Operation.sub.apply c a)

def difference : List Term → Except BuiltinError Answer :=
  solve .sub (some fun b c => Operation.add.apply c b) (some fun a c => Operation.sub.apply a c)

def product : List Term → Except BuiltinError Answer := solve .mul none none

/-- The quotient of two numbers: an integer if both are integers, the division is exact and its
result has sixty-four bits; a float otherwise. -/
def divide (a b : Number) : Except BuiltinError Number :=
  match a, b with
  | .integer x, .integer y =>
    if y = 0 then .error (.arithmetic .divisionByZero)
    else if x % y = 0 ∧ Decimal.fitsInt64 (x / y) then .ok (.integer (x / y))
    else .ok (.decimal (Float.ofInt x / Float.ofInt y))
  | a, b =>
    if b.toFloat == 0.0 then .error (.arithmetic .divisionByZero)
    else .ok (.decimal (a.toFloat / b.toFloat))

def quotient (args : List Term) : Except BuiltinError Answer := do
  let a ← numberArg args 0
  let b ← numberArg args 1
  return bindOrCheck args 2 (.ofNumber (← divide a b))

/-- Gives the third argument the first if it stands to the second as asked, and else the second. -/
def choose (keepFirst : Ordering → Bool) (args : List Term) : Except BuiltinError Answer := do
  let a ← numberArg args 0
  let b ← numberArg args 1
  match a.compare? b with
  | none => .error (.arithmetic .unordered)
  | some order =>
    let winner ← boundArg args (if keepFirst order then 0 else 1)
    return bindOrCheck args 2 winner

def minimum : List Term → Except BuiltinError Answer := choose Ordering.isLE

def maximum : List Term → Except BuiltinError Answer := choose Ordering.isGE

def arithmetic : List Builtin :=
  [ofFun "sum" (.exactly 3) sum, ofFun "difference" (.exactly 3) difference,
    ofFun "product" (.exactly 3) product, ofFun "quotient" (.exactly 3) quotient,
    ofFun "min" (.exactly 3) minimum, ofFun "max" (.exactly 3) maximum]

end TripleRules.Builtin
