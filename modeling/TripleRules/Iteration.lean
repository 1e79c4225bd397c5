/-!
# Iteration

Runs of a step function.  A run may go on forever, so it is given the number of steps it may make;
more steps never change the outcome of a run that has ended.
-/

namespace TripleRules

inductive Progress (σ β : Type) where
  | next (s : σ)
  | done (b : β)

/-- Runs a step function to its outcome, with at most `fuel` steps. -/
def iterate {σ β : Type} (step : σ → Progress σ β) : (fuel : Nat) → σ → Option β
  | 0, _ => none
  | fuel + 1, s =>
    match step s with
    | .done b => some b
    | .next s' => iterate step fuel s'

theorem iterate_succ_of_some {σ β : Type} {step : σ → Progress σ β} {fuel : Nat} {s : σ} {b : β}
    (h : iterate step fuel s = some b) : iterate step (fuel + 1) s = some b := by
  induction fuel generalizing s with
  | zero => simp [iterate] at h
  | succ n ih =>
    rw [iterate] at h ⊢
    cases hs : step s with
    | done c => simpa [hs] using h
    | next s' =>
      rw [hs] at h
      exact ih h

theorem iterate_mono {σ β : Type} {step : σ → Progress σ β} {fuel more : Nat} {s : σ} {b : β}
    (hle : fuel ≤ more) (h : iterate step fuel s = some b) : iterate step more s = some b := by
  induction hle with
  | refl => exact h
  | step _ ih => exact iterate_succ_of_some ih

/-- What every step keeps holds when a run ends. -/
theorem iterate_preserves {σ β : Type} {step : σ → Progress σ β} {I : σ → Prop} {Q : β → Prop}
    (hnext : ∀ s s', I s → step s = .next s' → I s')
    (hdone : ∀ s b, I s → step s = .done b → Q b) {fuel : Nat} {s : σ} {b : β} (hs : I s)
    (h : iterate step fuel s = some b) : Q b := by
  induction fuel generalizing s with
  | zero => simp [iterate] at h
  | succ n ih =>
    rw [iterate] at h
    cases hstep : step s with
    | done c =>
      rw [hstep] at h
      cases h
      exact hdone s _ hs hstep
    | next s' =>
      rw [hstep] at h
      exact ih (hnext s s' hs hstep) h

/-- A run ends if every step goes down in a well-founded order. -/
theorem exists_iterate_eq_some {σ β : Type} {step : σ → Progress σ β} {I : σ → Prop}
    {r : σ → σ → Prop} (hr : WellFounded r)
    (hnext : ∀ s s', I s → step s = .next s' → I s' ∧ r s' s) {s : σ} (hs : I s) :
    ∃ fuel b, iterate step fuel s = some b := by
  induction s using hr.induction with
  | h s ih =>
    cases hstep : step s with
    | done b => exact ⟨1, b, by rw [iterate, hstep]⟩
    | next s' =>
      obtain ⟨hs', hlt⟩ := hnext s s' hs hstep
      obtain ⟨fuel, b, hb⟩ := ih s' hlt hs'
      exact ⟨fuel + 1, b, by rw [iterate, hstep]; exact hb⟩

end TripleRules
