import TripleRules.Term.Number

/-!
# The text of integers

The text of an integer reads as the integer.  So the literal of an integer of sixty-four bits
denotes it, and all integers that literals denote have sixty-four bits.
-/

namespace TripleRules

namespace Decimal

theorem isDigit_of_mem_toDigits {n : Nat} {c : Char} (h : c ∈ Nat.toDigits 10 n) : isDigit c :=
  Nat.isDigit_of_mem_toDigits (by decide) (by decide) h

theorem ofDigits_toDigits (n : Nat) : ofDigits (Nat.toDigits 10 n) = n :=
  Nat.ofDigitChars_toDigits (by decide) (by decide)

theorem natural?_toDigits (n : Nat) : natural? (Nat.toDigits 10 n) = some n := by
  have hall : (Nat.toDigits 10 n).all isDigit :=
    List.all_eq_true.mpr fun c hc => isDigit_of_mem_toDigits hc
  rw [natural?, if_pos ⟨Nat.toDigits_ne_nil, hall⟩, ofDigits_toDigits]

theorem splitSign_of_isDigit {cs : List Char} (h : ∀ c ∈ cs, isDigit c) :
    splitSign cs = (false, cs) := by
  unfold splitSign
  split
  · exact absurd (h '-' List.mem_cons_self) (by decide)
  · exact absurd (h '+' List.mem_cons_self) (by decide)
  · rfl

theorem toList_toString_ofNat (n : Nat) : (toString (n : Int)).toList = Nat.toDigits 10 n :=
  Nat.toList_repr

theorem toList_toString_negSucc (n : Nat) :
    (toString (Int.negSucc n)).toList = '-' :: Nat.toDigits 10 (n + 1) := by
  have htext : toString (Int.negSucc n) = "-" ++ (n + 1).repr := rfl
  rw [htext, String.toList_append, Nat.toList_repr]
  rfl

theorem integer?_toString (n : Int) : integer? (toString n).toList = some n := by
  cases n with
  | ofNat n =>
      have hsign := splitSign_of_isDigit fun c => isDigit_of_mem_toDigits (n := n) (c := c)
      rw [Int.ofNat_eq_natCast, toList_toString_ofNat, integer?, hsign]
      simp [natural?_toDigits]
  | negSucc n =>
      rw [toList_toString_negSucc, integer?, splitSign]
      simp [natural?_toDigits, Int.negSucc_eq]

theorem trim_of_not_isBlank {cs : List Char} (h : ∀ c ∈ cs, Text.isBlank c = false) :
    Text.trim cs = cs := by
  have hfront : ∀ ds : List Char, (∀ c ∈ ds, Text.isBlank c = false) →
      ds.dropWhile Text.isBlank = ds := by
    intro ds hds
    cases ds with
    | nil => rfl
    | cons c ds => rw [List.dropWhile_cons, hds c List.mem_cons_self, if_neg Bool.false_ne_true]
  rw [Text.trim, hfront cs h, hfront _ fun c hc => h c (List.mem_reverse.mp hc),
    List.reverse_reverse]

theorem isBlank_of_isDigit {c : Char} (h : isDigit c) : Text.isBlank c = false := by
  have hrange : 48 ≤ c.toNat ∧ c.toNat ≤ 57 := by
    simpa [isDigit, Char.le_def, UInt32.le_iff_toNat_le] using h
  simp only [Text.isBlank, List.mem_cons, List.not_mem_nil, or_false,
    Bool.or_eq_false_iff, Bool.and_eq_false_iff, decide_eq_false_iff_not]
  omega

theorem isBlank_of_mem_toString {n : Int} {c : Char} (h : c ∈ (toString n).toList) :
    Text.isBlank c = false := by
  cases n with
  | ofNat n =>
      rw [Int.ofNat_eq_natCast, toList_toString_ofNat] at h
      exact isBlank_of_isDigit (isDigit_of_mem_toDigits h)
  | negSucc n =>
      rw [toList_toString_negSucc] at h
      rcases List.mem_cons.mp h with rfl | h
      · rfl
      · exact isBlank_of_isDigit (isDigit_of_mem_toDigits h)

/-- The text of an integer of sixty-four bits reads as the integer. -/
theorem int64?_toString {n : Int} (h : fitsInt64 n) :
    int64? (Text.trim (toString n).toList) = some n := by
  rw [trim_of_not_isBlank fun _ => isBlank_of_mem_toString, int64?, integer?_toString]
  simp [h]

theorem fitsInt64_of_int64? {cs : List Char} {n : Int} (h : int64? cs = some n) :
    fitsInt64 n := by
  rw [int64?, Option.filter_eq_some_iff] at h
  exact h.2

end Decimal

theorem Term.number?_ofInt {n : Int} (h : Decimal.fitsInt64 n) :
    (Term.ofInt n).number? = some (.integer n) := by
  have hname : Vocabulary.localName? Vocabulary.xsd (Vocabulary.xsd ++ "integer") =
      some "integer" := by
    decide +kernel
  have hvalue := Decimal.int64?_toString h
  simpa [ofInt, number?, Literal.number?, hname, integerTypes] using hvalue

theorem Literal.fitsInt64_of_number? {l : Literal} {n : Int} (h : l.number? = some (.integer n)) :
    Decimal.fitsInt64 n := by
  have read : ∀ cs, (Decimal.int64? cs).map Number.integer = some (.integer n) →
      Decimal.fitsInt64 n := by
    intro cs hcs
    obtain ⟨m, hm, hmn⟩ := Option.map_eq_some_iff.mp hcs
    cases hmn
    exact Decimal.fitsInt64_of_int64? hm
  have float : ∀ cs, (Decimal.float? cs).map Number.decimal ≠ some (.integer n) := by
    simp
  unfold number? at h
  split at h
  · cases h
  · rcases Option.or_eq_some_iff.mp h with h | ⟨-, h⟩
    · exact read _ h
    · exact absurd h (float _)
  · split at h
    · cases h
    · dsimp only at h
      split at h
      · exact read _ h
      · split at h
        · exact absurd h (float _)
        · cases h

theorem Term.fitsInt64_of_number? {t : Term} {n : Int} (h : t.number? = some (.integer n)) :
    Decimal.fitsInt64 n := by
  cases t with
  | literal l => exact Literal.fitsInt64_of_number? h
  | _ => cases h

end TripleRules
