import TripleRules.Term.Basic
import TripleRules.Vocabulary
import TripleRules.Decimal.Reading
import TripleRules.Text.Blank

/-!
# Numbers in literals

Which literals denote numbers.  Integers are exact and have sixty-four bits; all other numbers are
floats.
-/

namespace TripleRules

inductive Number where
  | integer (value : Int)
  | decimal (value : Float)
  deriving Inhabited

def Number.toFloat : Number → Float
  | integer n => Float.ofInt n
  | decimal x => x

/-- Exact between integers; a comparison with a float is one of floats, and NaN has no order. -/
def Number.compare? : Number → Number → Option Ordering
  | integer m, integer n => some (compare m n)
  | a, b =>
    let (x, y) := (a.toFloat, b.toFloat)
    if x < y then some .lt else if x == y then some .eq else if y < x then some .gt else none

def integerTypes : List String :=
  ["integer", "int", "long", "short", "byte", "nonNegativeInteger", "positiveInteger",
    "negativeInteger", "nonPositiveInteger", "unsignedInt", "unsignedLong", "unsignedShort",
    "unsignedByte"]

def decimalTypes : List String := ["decimal", "float", "double"]

/-- The number that a literal denotes.  White space around a typed literal does not count; an
untyped literal has to be a number exactly, and is an integer if it can be. -/
def Literal.number? (l : Literal) : Option Number :=
  match l.datatype with
  | .language _ => none
  | .plain =>
    ((Decimal.int64? l.value.toList).map .integer).or
      ((Decimal.float? l.value.toList).map .decimal)
  | .typed iri =>
    match Vocabulary.localName? Vocabulary.xsd iri with
    | none => none
    | some name =>
      let cs := Text.trim l.value.toList
      if name ∈ integerTypes then (Decimal.int64? cs).map .integer
      else if name ∈ decimalTypes then (Decimal.float? cs).map .decimal
      else none

namespace Term

def ofInt (n : Int) : Term := .literal ⟨toString n, .typed (Vocabulary.xsd ++ "integer")⟩

def ofFloat (x : Float) : Term :=
  .literal ⟨Decimal.floatText x, .typed (Vocabulary.xsd ++ "decimal")⟩

def ofNumber : Number → Term
  | .integer n => ofInt n
  | .decimal x => ofFloat x

def number? : Term → Option Number
  | literal l => l.number?
  | _ => none

end Term

end TripleRules
