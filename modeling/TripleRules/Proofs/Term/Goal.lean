import TripleRules.Proofs.Term.Bindings

/-!
# Heads and goals

What a goal says about a rule head.  It rules out no instance of the head that it matches, and it
binds variables of the head to ground terms of the goal only.
-/

namespace TripleRules.Bindings

/-! ## No instance is ruled out -/

theorem unifyGoalAll_agrees (hs : List Term) {τ : Nat → Term} {ρ : Variable → Term}
    (ih : ∀ h ∈ hs, ∀ g b, Agrees b τ → (∀ v ∈ h.occurrences, v.slot < b.size) →
      g.mapVars ρ = h.mapVars (bySlot τ) →
      ∃ b', unifyGoal h g b = .ok b' ∧ b'.Agrees τ ∧ b'.size = b.size) :
    ∀ gs b, Agrees b τ → (∀ v ∈ hs.flatMap Term.occurrences, v.slot < b.size) →
      gs.map (Term.mapVars ρ) = hs.map (Term.mapVars (bySlot τ)) →
      ∃ b', unifyGoalAll hs gs b = .ok b' ∧ b'.Agrees τ ∧ b'.size = b.size := by
  induction hs with
  | nil => exact fun gs b hb _ _ => ⟨b, by simp [unifyGoalAll], hb, rfl⟩
  | cons h hs ihs =>
      intro gs b hb hlt hinst
      cases gs with
      | nil => simp at hinst
      | cons g gs =>
          simp only [List.map_cons, List.cons.injEq] at hinst
          obtain ⟨c, hc, hagr, hsize⟩ := ih h (by simp) g b hb
            (fun v hv => hlt v (by simp [hv])) hinst.1
          obtain ⟨b', hb', hagr', hsize'⟩ := ihs (fun q hq => ih q (by simp [hq])) gs c hagr
            (fun v hv => hsize ▸ hlt v (by
              simp only [List.flatMap_cons, List.mem_append, hv, or_true])) hinst.2
          refine ⟨b', ?_, hagr', hsize'.trans hsize⟩
          simp only [unifyGoalAll, hc, hb']

theorem unifyGoal_var_agrees {τ : Nat → Term} {ρ : Variable → Term} {v : Variable} {g : Term}
    {b : Bindings} (hb : b.Agrees τ) (hv : v.slot < b.size) (hg : ¬ g.isVar)
    (hinst : g.mapVars ρ = τ v.slot) :
    ∃ b', unifyGoal (.var v) g b = .ok b' ∧ b'.Agrees τ ∧ b'.size = b.size := by
  have hstep : unifyGoal (.var v) g b =
      if g.isGround then b.bind v g
      else (b.get? v).elim (.ok b) fun bound => if g.matches? bound then .ok b else .error b := by
    rw [unifyGoal]
    · cases b.get? v <;> rfl
    · rintro w rfl
      exact hg rfl
  rw [hstep]
  split
  · rename_i hground
    obtain ⟨b', h, hagr⟩ := bind_agrees hb hv
    rw [Term.mapVars_of_isGround hground] at hinst
    subst hinst
    exact ⟨b', h, hagr, (bind_ok hground h).1.size_eq⟩
  · cases hget : b.get? v with
    | none => exact ⟨b, rfl, hb, rfl⟩
    | some bound =>
        have hbound : bound = τ v.slot := hb _ _ ((get?_eq_some_iff b v bound).mp hget)
        have hmatch : g.matches? bound := (Term.matches?_iff g bound).mpr ⟨ρ, by rw [hinst, hbound]⟩
        exact ⟨b, by simp [hmatch], hb, rfl⟩

theorem unifyGoal_agrees {τ : Nat → Term} {ρ : Variable → Term} (h : Term) :
    ∀ g b, Agrees b τ → (∀ v ∈ h.occurrences, v.slot < b.size) →
      g.mapVars ρ = h.mapVars (bySlot τ) →
      ∃ b', unifyGoal h g b = .ok b' ∧ b'.Agrees τ ∧ b'.size = b.size := by
  induction h using Term.induct with
  | iri | literal | blank =>
      intro g b hb _ hinst
      refine ⟨b, ?_, hb, rfl⟩
      cases g <;> simp_all [unifyGoal, Term.mapVars]
  | var v =>
      intro g b hb hlt hinst
      cases g with
      | var => exact ⟨b, by simp [unifyGoal], hb, rfl⟩
      | iri | literal | blank | compound =>
          exact unifyGoal_var_agrees hb (hlt v (by simp [Term.occurrences])) (by simp [Term.isVar])
            hinst
  | compound f hs ih =>
      intro g b hb hlt hinst
      cases g with
      | var => exact ⟨b, by simp [unifyGoal], hb, rfl⟩
      | compound c gs =>
          simp only [Term.mapVars, Term.mapVarsAll_eq_map, Term.compound.injEq] at hinst
          obtain ⟨b', h, hagr, hsize⟩ := unifyGoalAll_agrees hs ih gs b hb
            (by simpa [Term.occurrences] using hlt) hinst.2
          have hlen : hs.length = gs.length := by
            have := congrArg List.length hinst.2
            simpa using this.symm
          exact ⟨b', by simp [unifyGoal, hinst.1, hlen, h], hagr, hsize⟩
      | iri | literal | blank => simp [Term.mapVars] at hinst

/-- A head can start on every goal that matches one of its instances. -/
theorem withGoal_agrees {b : Bindings} {τ : Nat → Term} {head goal : Triple} (hb : b.Agrees τ)
    (hhead : ∀ v ∈ head.occurrences, v.slot < b.size)
    (hgoal : goal.matches? (head.mapVars (bySlot τ))) :
    ∃ b', b.withGoal head goal = .ok b' ∧ b'.Agrees τ ∧ b'.size = b.size := by
  obtain ⟨ρ, hρ⟩ := (Triple.matches?_iff goal _).mp hgoal
  apply unifyGoalAll_agrees head.terms (fun h _ => unifyGoal_agrees h) goal.terms b hb hhead
  rw [← Triple.terms_mapVars, ← Triple.terms_mapVars, hρ]

/-! ## Only ground terms of the goal are bound -/

theorem unifyGoalAll_ok (hs : List Term)
    (ih : ∀ h ∈ hs, ∀ g b b', unifyGoal h g b = .ok b' → b.Extends b' h.occurrences) :
    ∀ gs b b', unifyGoalAll hs gs b = .ok b' → b.Extends b' (hs.flatMap Term.occurrences) := by
  induction hs with
  | nil =>
      intro gs b b' h
      simp only [unifyGoalAll, Except.ok.injEq] at h
      exact h ▸ .refl b _
  | cons h hs ihs =>
      intro gs b b' hok
      cases gs with
      | nil =>
          simp only [unifyGoalAll, Except.ok.injEq] at hok
          exact hok ▸ .refl b _
      | cons g gs =>
          simp only [unifyGoalAll] at hok
          split at hok
          · rename_i c hc
            have hbc := ih h (by simp) g b c hc
            have hcb := ihs (fun q hq => ih q (by simp [hq])) gs c b' hok
            exact (hbc.mono (by simp)).trans (hcb.mono (by simp))
          · cases hok

theorem unifyGoal_var_ok {v : Variable} {g : Term} {b b' : Bindings}
    (h : unifyGoal (.var v) g b = .ok b') : b' = b ∨ g.isGround ∧ b.bind v g = .ok b' := by
  cases g with
  | var => simp_all [unifyGoal]
  | iri | literal | blank | compound =>
      simp only [unifyGoal] at h
      split at h
      · exact .inr ⟨‹_›, h⟩
      · split at h
        · simp_all
        · split at h <;> simp_all

theorem unifyGoal_ok (h : Term) :
    ∀ g b b', unifyGoal h g b = .ok b' → b.Extends b' h.occurrences := by
  induction h using Term.induct with
  | iri | literal | blank =>
      intro g b b' hok
      have hb : b' = b := by
        cases g <;> simp only [unifyGoal] at hok <;> first | split at hok <;> simp_all | simp_all
      exact hb ▸ .refl b _
  | var v =>
      intro g b b' hok
      rcases unifyGoal_var_ok hok with hb | ⟨hg, hbind⟩
      · exact hb ▸ .refl b _
      · simpa [Term.occurrences] using (bind_ok hg hbind).1
  | compound f hs ih =>
      intro g b b' hok
      cases g with
      | var =>
          simp only [unifyGoal, Except.ok.injEq] at hok
          exact hok ▸ .refl b _
      | compound c gs =>
          simp only [unifyGoal] at hok
          split at hok
          · simpa [Term.occurrences] using unifyGoalAll_ok hs ih gs b b' hok
          · cases hok
      | iri | literal | blank => simp [unifyGoal] at hok

theorem withGoal_ok {b b' : Bindings} {head goal : Triple} (h : b.withGoal head goal = .ok b') :
    b.Extends b' head.occurrences :=
  unifyGoalAll_ok head.terms (fun h _ => unifyGoal_ok h) goal.terms b b' h

end TripleRules.Bindings
