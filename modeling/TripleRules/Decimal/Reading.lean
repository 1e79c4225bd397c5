import TripleRules.Decimal.Shortest

/-!
# Reading decimal numbers

Integers are an optional sign and digits.  Floating-point numbers are an optional sign and either a
name (`inf`, `infinity`, `nan`, in any case) or digits with at most one point and at most one
exponent.  Nothing may surround them, and digits are the ten of ASCII.
-/

namespace TripleRules.Decimal

def isDigit (c : Char) : Bool := '0' ≤ c && c ≤ '9'

def ofDigits (ds : List Char) : Nat := ds.foldl (fun n d => 10 * n + (d.toNat - 48)) 0

def natural? (cs : List Char) : Option Nat :=
  if cs ≠ [] ∧ cs.all isDigit then some (ofDigits cs) else none

/-- A sign and what follows it.  Without a sign a number is not negative. -/
def splitSign : List Char → Bool × List Char
  | '-' :: cs => (true, cs)
  | '+' :: cs => (false, cs)
  | cs => (false, cs)

def integer? (cs : List Char) : Option Int :=
  let (negative, ds) := splitSign cs
  (natural? ds).map fun n => if negative then -(n : Int) else n

def unsigned? : List Char → Option Nat
  | '+' :: cs => natural? cs
  | cs => natural? cs

def fitsInt64 (n : Int) : Bool := -9223372036854775808 ≤ n && n ≤ 9223372036854775807

def fitsUInt64 (n : Nat) : Bool := n ≤ 18446744073709551615

def int64? (cs : List Char) : Option Int := (integer? cs).filter fitsInt64

def uint64? (cs : List Char) : Option Nat := (unsigned? cs).filter fitsUInt64

/-- The float nearest to a decimal.  Decimals far outside the range of floats are settled by the
position of their first digit. -/
def Digits.toFloat (d : Digits) : Float :=
  let first := (digitCount d.coefficient : Int) + d.exponent
  if d.coefficient = 0 || first < -400 then 0.0
  else if 400 < first then 1.0 / 0.0
  else if 0 ≤ d.exponent then Float.ofScientific d.coefficient false d.exponent.toNat
  else Float.ofScientific d.coefficient true (-d.exponent).toNat

def exponent? : List Char → Option Int
  | [] => some 0
  | c :: cs => if c = 'e' || c = 'E' then integer? cs else none

def unsignedDigits? (cs : List Char) : Option Digits :=
  let whole := cs.takeWhile isDigit
  let (places, rest) :=
    match cs.dropWhile isDigit with
    | '.' :: r => (r.takeWhile isDigit, r.dropWhile isDigit)
    | r => ([], r)
  if whole = [] ∧ places = [] then none
  else (exponent? rest).map fun e => ⟨ofDigits (whole ++ places), e - places.length⟩

def float? (cs : List Char) : Option Float :=
  let (negative, body) := splitSign cs
  let magnitude :=
    match String.ofList (body.map Char.toLower) with
    | "inf" | "infinity" => some (1.0 / 0.0)
    | "nan" => some (0.0 / 0.0)
    | _ => (unsignedDigits? body).map Digits.toFloat
  magnitude.map fun x => if negative then -x else x

end TripleRules.Decimal
