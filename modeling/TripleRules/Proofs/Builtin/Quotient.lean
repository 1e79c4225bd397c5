import TripleRules.Proofs.Builtin.Arithmetic

/-!
# Quotients of integers

The quotient of literals of integers is the exact one where there is one: division by zero is an
error, a divisor gives an integer, and anything else a float.  One division has an exact result that
does not have sixty-four bits, that of the least integer by minus one.  It gives a float as well,
and not the error that sums, differences and products give.
-/

namespace TripleRules.Builtin

def IsDecimal (t : Term) : Prop :=
  ∃ value, t = .literal ⟨value, .typed (Vocabulary.xsd ++ "decimal")⟩

/-- The only division of integers of sixty-four bits that is exact and has no such result. -/
def Escapes (x y : Int) : Prop := x = -9223372036854775808 ∧ y = -1

theorem isDecimal_ofFloat (x : Float) : IsDecimal (.ofFloat x) := ⟨_, rfl⟩

theorem not_isDecimal_ofInt (n : Int) : ¬ IsDecimal (.ofInt n) := by
  rintro ⟨value, h⟩
  have htype : Vocabulary.xsd ++ "integer" ≠ Vocabulary.xsd ++ "decimal" := by decide +kernel
  simp only [Term.ofInt, Term.literal.injEq, Literal.mk.injEq, Datatype.typed.injEq] at h
  exact htype h.2

variable {a b : Term} {x y q : Int}

/-- A divisor other than one and minus one at least halves, so only minus one can lead too far. -/
theorem fitsInt64_iff_not_escapes (hx : Decimal.fitsInt64 x) (hy : y ≠ 0) (h : x = y * q) :
    Decimal.fitsInt64 q ↔ ¬ Escapes x y := by
  have habs : x.natAbs = y.natAbs * q.natAbs := by rw [h, Int.natAbs_mul]
  simp only [Decimal.fitsInt64, Bool.and_eq_true, decide_eq_true_eq, Escapes] at hx ⊢
  by_cases hone : y.natAbs = 1
  · rcases (show y = 1 ∨ y = -1 by omega) with rfl | rfl <;> omega
  · have htwo : 2 * q.natAbs ≤ y.natAbs * q.natAbs := Nat.mul_le_mul_right _ (by omega)
    omega

/-! ## Division -/

theorem divide_zero (x : Int) :
    divide (.integer x) (.integer 0) = .error (.arithmetic .divisionByZero) := rfl

theorem divide_exact (hy : y ≠ 0) (h : x = y * q) (hq : Decimal.fitsInt64 q) :
    divide (.integer x) (.integer y) = .ok (.integer q) := by
  have hdiv : x / y = q := by rw [h, Int.mul_ediv_cancel_left q hy]
  have hmod : x % y = 0 := by rw [h, Int.mul_emod_right]
  rw [divide, if_neg hy, hdiv, if_pos ⟨hmod, hq⟩]

theorem divide_float (hx : Decimal.fitsInt64 x) (hy : y ≠ 0) (h : ¬ y ∣ x ∨ Escapes x y) :
    divide (.integer x) (.integer y) = .ok (.decimal (Float.ofInt x / Float.ofInt y)) := by
  have hnot : ¬ (x % y = 0 ∧ Decimal.fitsInt64 (x / y)) := by
    rintro ⟨hmod, hq⟩
    have hdvd := Int.dvd_of_emod_eq_zero hmod
    have hexact : x = y * (x / y) := (Int.mul_ediv_cancel' hdvd).symm
    rcases h with h | h
    · exact h hdvd
    · exact (fitsInt64_iff_not_escapes hx hy hexact).mp hq h
  rw [divide, if_neg hy, if_neg hnot]

/-! ## Calls -/

section Quotient

variable (v : Variable) (ha : a.number? = some (.integer x)) (hb : b.number? = some (.integer y))
include ha hb

/-- With numbers for its operands, a call gives an open argument their quotient. -/
theorem quotient_gives : quotient [a, b, .var v] =
    (divide (.integer x) (.integer y)).map fun n => .holds [(2, .ofNumber n)] := by
  have hfirst := numberArg_of_number [a, b, .var v] 0 rfl ha
  have hsecond := numberArg_of_number [a, b, .var v] 1 rfl hb
  rw [quotient, hfirst, hsecond]
  change (divide (.integer x) (.integer y) >>= fun n =>
    pure (Answer.holds [(2, .ofNumber n)])) = _
  cases divide (.integer x) (.integer y) <;> rfl

theorem quotient_exact (hy : y ≠ 0) (h : x = y * q) (hq : Decimal.fitsInt64 q) :
    quotient [a, b, .var v] = .ok (.holds [(2, .ofInt q)]) := by
  rw [quotient_gives v ha hb, divide_exact hy h hq]
  rfl

theorem quotient_float (hy : y ≠ 0) (h : ¬ y ∣ x ∨ Escapes x y) :
    quotient [a, b, .var v] = .ok (.holds [(2, .ofFloat (Float.ofInt x / Float.ofInt y))]) := by
  rw [quotient_gives v ha hb, divide_float (Term.fitsInt64_of_number? ha) hy h]
  rfl

theorem quotient_zero (hy : y = 0) :
    quotient [a, b, .var v] = .error (.arithmetic .divisionByZero) := by
  rw [quotient_gives v ha hb, hy, divide_zero]
  rfl

/-- Division by zero is an error, and a divisor gives the exact quotient if it has sixty-four bits,
as all of them but one have.  A float is given where the divisor does not divide, and in place of
the one exact quotient that does not fit. -/
theorem quotient_of_integers :
    (y = 0 → quotient [a, b, .var v] = .error (.arithmetic .divisionByZero)) ∧
    (∀ q, y ≠ 0 → x = y * q →
      (Decimal.fitsInt64 q → quotient [a, b, .var v] = .ok (.holds [(2, .ofInt q)])) ∧
      (Decimal.fitsInt64 q ↔ ¬ Escapes x y)) ∧
    (y ≠ 0 → ¬ y ∣ x ∨ Escapes x y →
      quotient [a, b, .var v] = .ok (.holds [(2, .ofFloat (Float.ofInt x / Float.ofInt y))])) ∧
    ((∃ i t, IsDecimal t ∧ ∃ bindings, quotient [a, b, .var v] = .ok (.holds bindings) ∧
      (i, t) ∈ bindings) ↔ y ≠ 0 ∧ (¬ y ∣ x ∨ Escapes x y)) := by
  have hx := Term.fitsInt64_of_number? ha
  refine ⟨quotient_zero v ha hb, fun q hy h => ⟨quotient_exact v ha hb hy h, ?_⟩,
    quotient_float v ha hb, ?_, ?_⟩
  · exact fitsInt64_iff_not_escapes hx hy h
  · rintro ⟨i, t, ht, bindings, hcall, hmem⟩
    have hy : y ≠ 0 := by
      intro hy
      rw [quotient_zero v ha hb hy] at hcall
      cases hcall
    refine ⟨hy, ?_⟩
    by_cases hdvd : y ∣ x
    · obtain ⟨q, h⟩ := hdvd
      by_cases hq : Decimal.fitsInt64 q
      · rw [quotient_exact v ha hb hy h hq] at hcall
        cases hcall
        cases List.mem_singleton.mp hmem
        exact absurd ht (not_isDecimal_ofInt q)
      · rw [fitsInt64_iff_not_escapes hx hy h, Classical.not_not] at hq
        exact .inr hq
    · exact .inl hdvd
  · rintro ⟨hy, h⟩
    exact ⟨2, _, isDecimal_ofFloat _, _, quotient_float v ha hb hy h, List.mem_cons_self⟩

end Quotient

/-- A padded literal divided by an untyped one. -/
theorem minusTwelve_by_four :
    quotient [.literal ⟨" -12 ", .typed (Vocabulary.xsd ++ "int")⟩, .plain "4", .var ⟨"c", 0⟩] =
      .ok (.holds [(2, .ofInt (-3))]) := by
  have hx : (Term.literal ⟨" -12 ", .typed (Vocabulary.xsd ++ "int")⟩).number? =
      some (.integer (-12)) := by
    rfl
  have hy : (Term.plain "4").number? = some (.integer 4) := by rfl
  obtain ⟨-, hexact, -⟩ := quotient_of_integers ⟨"c", 0⟩ hx hy
  exact (hexact (-3) (by decide) rfl).1 rfl

/-- The least integer divided by minus one is a float, although minus one divides it and the result
does not have sixty-four bits. -/
theorem least_by_minusOne : (-1 : Int) ∣ -9223372036854775808 ∧
    Decimal.fitsInt64 (-9223372036854775808 / -1) = false ∧
    ∃ t, IsDecimal t ∧ quotient [.ofInt (-9223372036854775808), .ofInt (-1), .var ⟨"c", 0⟩] =
      .ok (.holds [(2, t)]) := by
  have hleast := Term.number?_ofInt (n := -9223372036854775808) rfl
  have hminus := Term.number?_ofInt (n := -1) rfl
  have hfloat := quotient_float ⟨"c", 0⟩ hleast hminus (by decide) (.inr ⟨rfl, rfl⟩)
  exact ⟨⟨9223372036854775808, rfl⟩, rfl, _, isDecimal_ofFloat _, hfloat⟩

end TripleRules.Builtin
