import TripleRules.Text.CategoryTable
import TripleRules.Text.ScriptTable

/-!
# Runs of code points

Tables that give every code point a value are written as a sequence of runs: a count in hexadecimal
and, from the first capital on, the value of that many code points.
-/

namespace TripleRules.Text

def words (s : String) : List String :=
  (s.splitToList fun c => c == ' ' || c == '\n').filter (!·.isEmpty)

structure CodeRun where
  first : Nat
  count : Nat
  value : String

namespace CodeRun

def countOf (digits : List Char) : Nat :=
  digits.foldl (fun n c => 16 * n + (if c.isDigit then c.toNat - 48 else c.toNat - 87)) 0

def ofWords (first : Nat) : List String → List CodeRun
  | [] => []
  | word :: words =>
    let count := countOf (word.toList.takeWhile (!·.isUpper))
    let value := String.ofList (word.toList.dropWhile (!·.isUpper))
    ⟨first, count, value⟩ :: ofWords (first + count) words

def ofTable (table : String) : List CodeRun := ofWords 0 (words table)

def range (r : CodeRun) : Nat × Nat := (r.first, r.first + r.count - 1)

/-- A run in which capital and small letters take turns, as runs of single letters. -/
def alternating (r : CodeRun) : List CodeRun :=
  if r.value = "Lx" then
    (List.range r.count).map fun i => ⟨r.first + i, 1, if i % 2 = 0 then "Lu" else "Ll"⟩
  else [r]

end CodeRun

def rangesOfCategories (categories : List String) : List (Nat × Nat) :=
  (((CodeRun.ofTable categoryTable).flatMap (·.alternating)).filter
    (·.value ∈ categories)).map (·.range)

def rangesOfScript (script : String) : List (Nat × Nat) :=
  ((CodeRun.ofTable scriptTable).filter (·.value == script)).map (·.range)

end TripleRules.Text
