import TripleRules.Builtin.Arithmetic
import TripleRules.Proofs.Decimal.Integers

/-!
# Arithmetic of integers

On literals of integers, sums, differences and products are those of the integers: a call gives or
tests the exact result if it has sixty-four bits, and is an error otherwise.  Sums and differences
are solved for an operand by the one integer that makes them true.  With the values that it gave, a
call holds and gives nothing more.
-/

namespace TripleRules.Builtin

open Operation

def exactly (n : Int) (cause : ArithmeticError) : Except BuiltinError Number :=
  if Decimal.fitsInt64 n then .ok (.integer n) else .error (.arithmetic cause)

def bindExact (i : Nat) (n : Int) (cause : ArithmeticError) : Except BuiltinError Answer :=
  if Decimal.fitsInt64 n then .ok (.holds [(i, .ofInt n)]) else .error (.arithmetic cause)

def IsOperand (t : Term) : Prop := (∃ v, t = .var v) ∨ ∃ n, t.number? = some (.integer n)

/-- Calls compute an operation on integers without rounding and wrapping. -/
structure Computes (call : List Term → Except BuiltinError Answer) (op : Int → Int → Int) :
    Prop where
  /-- The exact result is given to an unbound argument. -/
  gives : ∀ {a b : Term} {x y : Int} (v : Variable),
    a.number? = some (.integer x) → b.number? = some (.integer y) →
      call [a, b, .var v] = bindExact 2 (op x y) (.overflow x y)
  /-- The exact result is what an integer has to equal. -/
  tests : ∀ {a b c : Term} {x y z : Int},
    a.number? = some (.integer x) → b.number? = some (.integer y) →
      c.number? = some (.integer z) →
        call [a, b, c] =
          if Decimal.fitsInt64 (op x y) then .ok (.ofBool (op x y = z))
          else .error (.arithmetic (.overflow x y))
  /-- With the values given, the same call holds and gives none. -/
  settles : ∀ {a b c : Term} {bindings : List (Nat × Term)},
    IsOperand a → IsOperand b → IsOperand c → call [a, b, c] = .ok (.holds bindings) →
      ∀ binding ∈ bindings, call ([a, b, c].set binding.1 binding.2) = .ok (.holds [])

/-- Calls compute an operation and find each operand from the other one and the result. -/
structure Inverts (call : List Term → Except BuiltinError Answer) (op : Int → Int → Int) :
    Prop extends Computes call op where
  /-- The first operand is the only solution. -/
  first : ∀ {b c : Term} {y z : Int} (v : Variable),
    b.number? = some (.integer y) → c.number? = some (.integer z) →
      ∃ w m n, (∀ u, op u y = z ↔ u = w) ∧ call [.var v, b, c] = bindExact 0 w (.overflow m n)
  /-- The second operand is the only solution. -/
  second : ∀ {a c : Term} {x z : Int} (v : Variable),
    a.number? = some (.integer x) → c.number? = some (.integer z) →
      ∃ w m n, (∀ u, op x u = z ↔ u = w) ∧ call [a, .var v, c] = bindExact 1 w (.overflow m n)

/-! ## Results -/

theorem Operation.apply_integer (op : Operation) (x y : Int) :
    op.apply (.integer x) (.integer y) = exactly (op.onInts x y) (.overflow x y) := rfl

theorem exactly_bind (n : Int) (cause : ArithmeticError) (f : Number → Answer) :
    (exactly n cause >>= fun r => pure (f r)) =
      if Decimal.fitsInt64 n then .ok (f (.integer n)) else .error (.arithmetic cause) := by
  unfold exactly
  split <;> rfl

theorem of_mem_bindExact {i : Nat} {n : Int} {cause : ArithmeticError}
    {bindings : List (Nat × Term)} (h : bindExact i n cause = .ok (.holds bindings))
    {binding : Nat × Term} (hbinding : binding ∈ bindings) :
    binding = (i, .ofInt n) ∧ (Term.ofInt n).number? = some (.integer n) := by
  unfold bindExact at h
  split at h
  · rename_i hfits
    cases h
    exact ⟨List.mem_singleton.mp hbinding, Term.number?_ofInt hfits⟩
  · cases h

/-! ## Solving -/

theorem boundArg_of_number {args : List Term} {i : Nat} {t : Term} {n : Number}
    (h : args[i]? = some t) (hn : t.number? = some n) : boundArg args i = .ok t := by
  cases t with
  | var v => cases hn
  | _ => simp [boundArg, h]

theorem numberArg_of_number (args : List Term) (i : Nat) {t : Term} {n : Number}
    (h : args[i]? = some t) (hn : t.number? = some n) : numberArg args i = .ok n := by
  simp [numberArg, boundArg_of_number h hn, hn, bind, Except.bind]

theorem numberArg_of_var (args : List Term) (i : Nat) {v : Variable}
    (h : args[i]? = some (.var v)) : numberArg args i = .error (.unbound i) := by
  simp [numberArg, boundArg, h, bind, Except.bind]

theorem bindOrCheck_of_integer {args : List Term} {i : Nat} {t : Term} {m n : Int}
    (h : args[i]? = some t) (hm : t.number? = some (.integer m)) (hn : Decimal.fitsInt64 n) :
    bindOrCheck args i (.ofInt n) = .ofBool (n = m) := by
  have hsame : t.sameValue (.ofInt n) = decide (n = m) := by
    rw [Bool.eq_iff_iff]
    simp only [Term.sameValue, hm, Term.number?_ofInt hn, Number.compare?, Option.some_beq_some,
      beq_iff_eq, Std.compare_eq_iff_eq, decide_eq_true_eq]
    exact eq_comm
  cases t with
  | var v => cases hm
  | _ => simp [bindOrCheck, h, hsame]

section Solve

variable {op : Operation} {firstInverse secondInverse : Option Inverse} {inverse : Inverse}
variable {a b c : Term} {x y z w : Int} {cause : ArithmeticError}

theorem solve_of_operands (ha : a.number? = some (.integer x)) (hb : b.number? = some (.integer y))
    (c : Term) :
    solve op firstInverse secondInverse [a, b, c] =
      if Decimal.fitsInt64 (op.onInts x y) then
        .ok (bindOrCheck [a, b, c] 2 (.ofInt (op.onInts x y)))
      else .error (.arithmetic (.overflow x y)) := by
  have hfirst := numberArg_of_number [a, b, c] 0 rfl ha
  have hsecond := numberArg_of_number [a, b, c] 1 rfl hb
  rw [solve, hfirst, hsecond]
  exact exactly_bind ..

theorem solve_gives (v : Variable) (ha : a.number? = some (.integer x))
    (hb : b.number? = some (.integer y)) :
    solve op firstInverse secondInverse [a, b, .var v] =
      bindExact 2 (op.onInts x y) (.overflow x y) :=
  solve_of_operands ha hb (.var v)

theorem solve_tests (ha : a.number? = some (.integer x)) (hb : b.number? = some (.integer y))
    (hc : c.number? = some (.integer z)) :
    solve op firstInverse secondInverse [a, b, c] =
      if Decimal.fitsInt64 (op.onInts x y) then .ok (.ofBool (op.onInts x y = z))
      else .error (.arithmetic (.overflow x y)) := by
  rw [solve_of_operands ha hb]
  split
  · rename_i hfits
    rw [bindOrCheck_of_integer rfl hc hfits]
  · rfl

theorem solve_holds (ha : a.number? = some (.integer x)) (hb : b.number? = some (.integer y))
    (hc : c.number? = some (.integer z)) (h : op.onInts x y = z) :
    solve op firstInverse secondInverse [a, b, c] = .ok (.holds []) := by
  have hfits : Decimal.fitsInt64 (op.onInts x y) := h ▸ Term.fitsInt64_of_number? hc
  rw [solve_tests ha hb hc, if_pos hfits, decide_eq_true h]
  rfl

theorem solve_open {args : List Term} (i : Nat) {v : Variable} (hopen : args[i]? = some (.var v))
    (hresult : numberArg args 2 = .ok (.integer z))
    (hinverse : inverse (.integer y) (.integer z) = exactly w cause) :
    (do
      let result ← numberArg args 2
      let n ← inverse (.integer y) result
      return bindOrCheck args i (.ofNumber n)) = bindExact i w cause := by
  have hbind : bindOrCheck args i (.ofInt w) = .holds [(i, .ofInt w)] := by
    rw [bindOrCheck, hopen]
  calc _ = (inverse (.integer y) (.integer z) >>= fun n =>
        pure (bindOrCheck args i (.ofNumber n))) := by rw [hresult]; rfl
    _ = if Decimal.fitsInt64 w then .ok (bindOrCheck args i (.ofInt w))
        else .error (.arithmetic cause) := by rw [hinverse]; exact exactly_bind ..
    _ = bindExact i w cause := by rw [hbind, bindExact]

theorem solve_first (v : Variable) (hb : b.number? = some (.integer y))
    (hc : c.number? = some (.integer z))
    (hinverse : inverse (.integer y) (.integer z) = exactly w cause) :
    solve op (some inverse) secondInverse [.var v, b, c] = bindExact 0 w cause := by
  have hfirst := numberArg_of_var [.var v, b, c] 0 rfl
  have hsecond := numberArg_of_number [.var v, b, c] 1 rfl hb
  have hresult := numberArg_of_number [.var v, b, c] 2 rfl hc
  rw [solve, hfirst, hsecond]
  exact solve_open 0 rfl hresult hinverse

theorem solve_second (v : Variable) (ha : a.number? = some (.integer x))
    (hc : c.number? = some (.integer z))
    (hinverse : inverse (.integer x) (.integer z) = exactly w cause) :
    solve op firstInverse (some inverse) [a, .var v, c] = bindExact 1 w cause := by
  have hfirst := numberArg_of_number [a, .var v, c] 0 rfl ha
  have hsecond := numberArg_of_var [a, .var v, c] 1 rfl
  have hresult := numberArg_of_number [a, .var v, c] 2 rfl hc
  rw [solve, hfirst, hsecond]
  exact solve_open 1 rfl hresult hinverse

theorem number_of_bind {args : List Term} {i : Nat} {f : Number → Except BuiltinError Answer}
    {answer : Answer} (hi : args[i]? = some c) (hc : IsOperand c)
    (h : (numberArg args i >>= f) = .ok answer) : ∃ z, c.number? = some (.integer z) := by
  rcases hc with ⟨v, rfl⟩ | hc
  · rw [numberArg_of_var args i hi] at h
    cases h
  · exact hc

theorem first_of_solve {v : Variable} {answer : Answer} (hb : b.number? = some (.integer y))
    (hc : IsOperand c) (h : solve op firstInverse secondInverse [.var v, b, c] = .ok answer) :
    (∃ inverse, firstInverse = some inverse) ∧ ∃ z, c.number? = some (.integer z) := by
  have hfirst := numberArg_of_var [.var v, b, c] 0 rfl
  have hsecond := numberArg_of_number [.var v, b, c] 1 rfl hb
  rw [solve, hfirst, hsecond] at h
  cases firstInverse with
  | none => cases h
  | some inverse => exact ⟨⟨inverse, rfl⟩, number_of_bind rfl hc h⟩

theorem second_of_solve {v : Variable} {answer : Answer} (ha : a.number? = some (.integer x))
    (hc : IsOperand c) (h : solve op firstInverse secondInverse [a, .var v, c] = .ok answer) :
    (∃ inverse, secondInverse = some inverse) ∧ ∃ z, c.number? = some (.integer z) := by
  have hfirst := numberArg_of_number [a, .var v, c] 0 rfl ha
  have hsecond := numberArg_of_var [a, .var v, c] 1 rfl
  rw [solve, hfirst, hsecond] at h
  cases secondInverse with
  | none => cases h
  | some inverse => exact ⟨⟨inverse, rfl⟩, number_of_bind rfl hc h⟩

end Solve

def Inverse.Solves (inverse : Inverse) (equation : (unknown operand result : Int) → Prop) : Prop :=
  ∀ y z, ∃ w m n, (∀ u, equation u y z ↔ u = w) ∧
    inverse (.integer y) (.integer z) = exactly w (.overflow m n)

/-- If each way to solve finds the only solution, a call holds with the values it gave. -/
theorem solve_settles {op : Operation} {firstInverse secondInverse : Option Inverse}
    (hfirst : ∀ inverse ∈ firstInverse, inverse.Solves fun u y z => op.onInts u y = z)
    (hsecond : ∀ inverse ∈ secondInverse, inverse.Solves fun u x z => op.onInts x u = z)
    {a b c : Term} {bindings : List (Nat × Term)}
    (ha : IsOperand a) (hb : IsOperand b) (hc : IsOperand c)
    (h : solve op firstInverse secondInverse [a, b, c] = .ok (.holds bindings))
    (binding : Nat × Term) (hbinding : binding ∈ bindings) :
    solve op firstInverse secondInverse ([a, b, c].set binding.1 binding.2) = .ok (.holds []) := by
  rcases ha with ⟨v, rfl⟩ | ⟨x, ha⟩
  · rcases hb with ⟨v', rfl⟩ | ⟨y, hb⟩
    · cases h
    · obtain ⟨⟨inverse, rfl⟩, z, hz⟩ := first_of_solve hb hc h
      obtain ⟨w, m, n, hunique, hinverse⟩ := hfirst inverse rfl y z
      rw [solve_first v hb hz hinverse] at h
      obtain ⟨rfl, hw⟩ := of_mem_bindExact h hbinding
      exact solve_holds hw hb hz ((hunique w).mpr rfl)
  · rcases hb with ⟨v, rfl⟩ | ⟨y, hb⟩
    · obtain ⟨⟨inverse, rfl⟩, z, hz⟩ := second_of_solve ha hc h
      obtain ⟨w, m, n, hunique, hinverse⟩ := hsecond inverse rfl x z
      rw [solve_second v ha hz hinverse] at h
      obtain ⟨rfl, hw⟩ := of_mem_bindExact h hbinding
      exact solve_holds ha hw hz ((hunique w).mpr rfl)
    · rcases hc with ⟨v, rfl⟩ | ⟨z, hc⟩
      · rw [solve_gives v ha hb] at h
        obtain ⟨rfl, hresult⟩ := of_mem_bindExact h hbinding
        exact solve_holds ha hb hresult rfl
      · rw [solve_tests ha hb hc] at h
        split at h
        · have hnone : bindings = [] := by
            unfold Answer.ofBool at h
            split at h <;> cases h
            rfl
          rw [hnone] at hbinding
          cases hbinding
        · cases h

theorem solve_computes {op : Operation} {firstInverse secondInverse : Option Inverse}
    (hfirst : ∀ inverse ∈ firstInverse, inverse.Solves fun u y z => op.onInts u y = z)
    (hsecond : ∀ inverse ∈ secondInverse, inverse.Solves fun u x z => op.onInts x u = z) :
    Computes (solve op firstInverse secondInverse) op.onInts where
  gives := solve_gives
  tests := solve_tests
  settles := solve_settles hfirst hsecond

theorem solve_inverts {op : Operation} {firstInverse secondInverse : Inverse}
    (hfirst : firstInverse.Solves fun u y z => op.onInts u y = z)
    (hsecond : secondInverse.Solves fun u x z => op.onInts x u = z) :
    Inverts (solve op (some firstInverse) (some secondInverse)) op.onInts where
  toComputes := solve_computes (by rintro _ ⟨⟩; exact hfirst) (by rintro _ ⟨⟩; exact hsecond)
  first v hb hc := by
    obtain ⟨w, m, n, hunique, hinverse⟩ := hfirst _ _
    exact ⟨w, m, n, hunique, solve_first v hb hc hinverse⟩
  second v ha hc := by
    obtain ⟨w, m, n, hunique, hinverse⟩ := hsecond _ _
    exact ⟨w, m, n, hunique, solve_second v ha hc hinverse⟩

/-- Integer arithmetic is exact, and sums and differences can be solved for either operand. -/
theorem integers_exact :
    Inverts sum (· + ·) ∧ Inverts difference (· - ·) ∧ Computes product (· * ·) := by
  refine ⟨solve_inverts ?_ ?_, solve_inverts ?_ ?_, solve_computes nofun nofun⟩
  · exact fun y z => ⟨z - y, z, y, fun u => by dsimp [onInts]; omega, sub.apply_integer z y⟩
  · exact fun x z => ⟨z - x, z, x, fun u => by dsimp [onInts]; omega, sub.apply_integer z x⟩
  · exact fun y z => ⟨z + y, z, y, fun u => by dsimp [onInts]; omega, add.apply_integer z y⟩
  · exact fun x z => ⟨x - z, x, z, fun u => by dsimp [onInts]; omega, sub.apply_integer x z⟩

theorem integers_exact_at_bounds :
    product [.ofInt (-9223372036854775808), .ofInt (-1), .var ⟨"x", 0⟩] =
        .error (.arithmetic (.overflow (-9223372036854775808) (-1))) ∧
      (∃ m n, difference [.ofInt 0, .var ⟨"x", 0⟩, .ofInt (-9223372036854775808)] =
        .error (.arithmetic (.overflow m n))) ∧
      difference [.ofInt (-1), .var ⟨"x", 0⟩, .ofInt (-9223372036854775808)] =
        .ok (.holds [(1, .ofInt 9223372036854775807)]) ∧
      difference [.ofInt (-1), .ofInt 9223372036854775807, .ofInt (-9223372036854775808)] =
        .ok (.holds []) := by
  obtain ⟨-, hdifference, hproduct⟩ := integers_exact
  have hleast := Term.number?_ofInt (n := -9223372036854775808) rfl
  have hzero := Term.number?_ofInt (n := 0) rfl
  have hminus := Term.number?_ofInt (n := -1) rfl
  have hbinds : difference [.ofInt (-1), .var ⟨"x", 0⟩, .ofInt (-9223372036854775808)] =
      .ok (.holds [(1, .ofInt 9223372036854775807)]) := by
    obtain ⟨w, m, n, hunique, hcall⟩ := hdifference.second _ hminus hleast
    rw [hcall, ← (hunique 9223372036854775807).mp rfl]
    rfl
  refine ⟨hproduct.gives _ hleast hminus, ?_, hbinds, ?_⟩
  · obtain ⟨w, m, n, hunique, hcall⟩ := hdifference.second _ hzero hleast
    refine ⟨m, n, ?_⟩
    rw [hcall, ← (hunique 9223372036854775808).mp rfl]
    rfl
  · exact hdifference.settles (.inr ⟨_, hminus⟩) (.inl ⟨_, rfl⟩) (.inr ⟨_, hleast⟩) hbinds _
      List.mem_cons_self

end TripleRules.Builtin
