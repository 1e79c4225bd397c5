/-!
# The shortest decimal of a binary fraction

A positive binary fraction `m · 2 ^ q` stands for every real number that rounds to it.  Among the
decimals in that interval the one with the fewest digits is chosen, and of several with as few
digits the nearest; a tie goes away from zero.  All arithmetic is exact, on natural numbers.
-/

namespace TripleRules.Decimal

/-- The decimal `coefficient · 10 ^ exponent`. -/
structure Digits where
  coefficient : Nat
  exponent : Int
  deriving DecidableEq, Inhabited

/-- A value and the bounds between which reals round to it, in units of `2 ^ unit`.  The bounds
themselves round to the value if `closed` is set. -/
structure Interval where
  unit : Int
  value : Nat
  low : Nat
  high : Nat
  closed : Bool

/-- The interval of `m · 2 ^ q`.  The gap below the value is half as wide if the value is the least
of its binary order; halves go to the even fraction. -/
def Interval.ofBinary (m : Nat) (q : Int) (narrowBelow : Bool) : Interval where
  unit := q - 2
  value := 4 * m
  low := if narrowBelow then 4 * m - 1 else 4 * m - 2
  high := 4 * m + 2
  closed := m % 2 == 0

/-- Numerator and denominator of `2 ^ p / 10 ^ j`. -/
def ratio (p j : Int) : Nat × Nat :=
  (Nat.pow 2 p.toNat * Nat.pow 10 (-j).toNat, Nat.pow 2 (-p).toNat * Nat.pow 10 j.toNat)

def digitCount (n : Nat) : Nat := (Nat.toDigits 10 n).length

def leadingExponent (num den : Nat) : Int :=
  if den ≤ num then (digitCount (num / den) : Int) - 1
  else
    let k := digitCount (den / num)
    if den ≤ num * Nat.pow 10 (k - 1) then 1 - k else -k

/-- The multiple of `10 ^ j` that stands for the value: of its two neighbours on that grid the one
inside the interval, and the nearer if both are. -/
def Interval.onGrid? (i : Interval) (j : Int) : Option Nat :=
  let (a, b) := ratio i.unit j
  let below := i.value * a / b
  let belowFits := i.low * a < below * b || (i.closed && i.low * a == below * b)
  let aboveFits := (below + 1) * b < i.high * a || (i.closed && (below + 1) * b == i.high * a)
  let nearerBelow := i.value * a - below * b < (below + 1) * b - i.value * a
  if belowFits && (!aboveFits || nearerBelow) then some below
  else if aboveFits then some (below + 1)
  else none

def Interval.shortest (i : Interval) : Digits :=
  let (a, b) := ratio i.unit 0
  let e := leadingExponent (i.value * a) b
  let found := (List.range 17).findSome? fun (n : Nat) =>
    let j := e - n
    (i.onGrid? j).map fun c => if c % 10 = 0 then Digits.mk (c / 10) (j + 1) else ⟨c, j⟩
  found.getD ⟨0, 0⟩

def Digits.positional (d : Digits) : String :=
  let ds := Nat.toDigits 10 d.coefficient
  if 0 ≤ d.exponent then String.ofList (ds ++ List.replicate d.exponent.toNat '0')
  else
    let places := (-d.exponent).toNat
    let padded := List.replicate (places + 1 - ds.length) '0' ++ ds
    let whole := padded.length - places
    String.ofList (padded.take whole ++ '.' :: padded.drop whole)

/-- The text of a floating-point number: its shortest decimal, written positionally and without a
point if it is integral.  The sign of zero is kept. -/
def floatText (x : Float) : String :=
  let bits := x.toBits.toNat
  let hidden := Nat.pow 2 52
  let fraction := bits % hidden
  let order := bits / hidden % Nat.pow 2 11
  let sign := if bits / Nat.pow 2 63 = 0 then "" else "-"
  if order = 2047 then if fraction = 0 then sign ++ "inf" else "NaN"
  else if order = 0 then
    if fraction = 0 then sign ++ "0"
    else sign ++ (Interval.ofBinary fraction (-1074) false).shortest.positional
  else
    let narrowBelow := fraction == 0 && order != 1
    let i := Interval.ofBinary (hidden + fraction) ((order : Int) - 1075) narrowBelow
    sign ++ i.shortest.positional

end TripleRules.Decimal
