import TripleRules.Text.CasingTable

/-!
# Lower case

Full lower case mapping of a text.  Each capital becomes its small letter, a dotted capital I keeps
its dot as a separate character, and a capital sigma is final where a word ends.
-/

namespace TripleRules.Text

def inRanges (ranges : List (Nat × Nat)) (c : Char) : Bool :=
  ranges.any fun r => r.1 ≤ c.toNat && c.toNat ≤ r.2

def CapitalRun.covers (r : CapitalRun) (c : Char) : Bool :=
  r.first ≤ c.toNat && c.toNat ≤ r.last && (c.toNat - r.first) % r.step == 0

def smallLetter (c : Char) : Char :=
  match capitalRuns.find? (·.covers c) with
  | none => c
  | some r => Char.ofNat (c.toNat + r.offset).toNat

/-- Whether a cased letter comes next, after characters that have no say in it. -/
def meetsCased (cs : List Char) : Bool :=
  match cs.dropWhile (inRanges caseIgnorableRanges) with
  | [] => false
  | c :: _ => inRanges casedRanges c

def lowerAfter (before : List Char) : List Char → List Char
  | [] => []
  | c :: rest =>
    let small :=
      if c = 'İ' then ['i', '\u0307']
      else if c = 'Σ' then if meetsCased before && !meetsCased rest then ['ς'] else ['σ']
      else [smallLetter c]
    small ++ lowerAfter (c :: before) rest

def lowercase (s : String) : String := String.ofList (lowerAfter [] s.toList)

end TripleRules.Text
