import TripleRules.Text.Blank
import TripleRules.Text.Casing
import TripleRules.Regex.WordTable

/-!
# Character classes

Sets of characters as patterns write them, with a membership test.  Characters are taken as equal
without regard to case when simple case folding gives them the same key.
-/

namespace TripleRules.Regex

/-- The small letters that folding identifies with another letter although lower case does not. -/
def foldedLetters : List (Nat × Nat) :=
  [(0xB5, 0x3BC), (0x17F, 0x73), (0x345, 0x3B9), (0x3C2, 0x3C3), (0x3D0, 0x3B2), (0x3D1, 0x3B8),
   (0x3D5, 0x3C6), (0x3D6, 0x3C0), (0x3F0, 0x3BA), (0x3F1, 0x3C1), (0x3F5, 0x3B5),
   (0x1C80, 0x432), (0x1C81, 0x434), (0x1C82, 0x43E), (0x1C83, 0x441), (0x1C84, 0x442),
   (0x1C85, 0x442), (0x1C86, 0x44A), (0x1C87, 0x463), (0x1C88, 0xA64B), (0x1E9B, 0x1E61),
   (0x1FBE, 0x3B9), (0x1FD3, 0x390), (0x1FE3, 0x3B0), (0xFB05, 0xFB06)]

/-- The key under which a character is compared without regard to case. -/
def foldKey (c : Char) : Char :=
  let small := Text.smallLetter c
  match foldedLetters.lookup small.toNat with
  | some key => Char.ofNat key
  | none => small

def capitalsOf (small : Char) : List Char :=
  Text.capitalRuns.filterMap fun r =>
    let c := Char.ofNat ((small.toNat : Int) - r.offset).toNat
    if r.covers c then some c else none

/-- Every character with the same key, itself included. -/
def foldOrbit (c : Char) : List Char :=
  let key := foldKey c
  let smalls := key :: (foldedLetters.filter (·.2 == key.toNat)).map fun p => Char.ofNat p.1
  smalls ++ smalls.flatMap capitalsOf

inductive Class where
  | empty
  | range (first last : Char)
  | ranges (rs : List (Nat × Nat))
  | blank
  | union (a b : Class)
  | inter (a b : Class)
  | diff (a b : Class)
  | symmDiff (a b : Class)
  | compl (a : Class)
  /-- The class closed under change of case. -/
  | folded (a : Class)
  deriving Inhabited

namespace Class

def contains : Class → Char → Bool
  | empty, _ => false
  | range first last, c => first ≤ c && c ≤ last
  | ranges rs, c => Text.inRanges rs c
  | blank, c => Text.isBlank c
  | union a b, c => a.contains c || b.contains c
  | inter a b, c => a.contains c && b.contains c
  | diff a b, c => a.contains c && !b.contains c
  | symmDiff a b, c => a.contains c != b.contains c
  | compl a, c => !a.contains c
  | folded a, c => (foldOrbit c).any a.contains

def single (c : Char) : Class := range c c

def ofChars (cs : List Char) : Class := ranges (cs.map fun c => (c.toNat, c.toNat))

def word : Class := ranges wordRanges

def digit : Class := ranges digitRanges

def asciiWord : Class := ranges [(0x30, 0x39), (0x41, 0x5A), (0x5F, 0x5F), (0x61, 0x7A)]

def asciiBlank : Class := ranges [(0x9, 0xD), (0x20, 0x20)]

def byName? (name : String) : Option Class :=
  match name with
  | "alnum" => some (ranges [(0x30, 0x39), (0x41, 0x5A), (0x61, 0x7A)])
  | "alpha" => some (ranges [(0x41, 0x5A), (0x61, 0x7A)])
  | "ascii" => some (ranges [(0x0, 0x7F)])
  | "blank" => some (ranges [(0x9, 0x9), (0x20, 0x20)])
  | "cntrl" => some (ranges [(0x0, 0x1F), (0x7F, 0x7F)])
  | "digit" => some (ranges [(0x30, 0x39)])
  | "graph" => some (ranges [(0x21, 0x7E)])
  | "lower" => some (ranges [(0x61, 0x7A)])
  | "print" => some (ranges [(0x20, 0x7E)])
  | "punct" => some (ranges [(0x21, 0x2F), (0x3A, 0x40), (0x5B, 0x60), (0x7B, 0x7E)])
  | "space" => some asciiBlank
  | "upper" => some (ranges [(0x41, 0x5A)])
  | "word" => some asciiWord
  | "xdigit" => some (ranges [(0x30, 0x39), (0x41, 0x46), (0x61, 0x66)])
  | _ => none

end Class

end TripleRules.Regex
