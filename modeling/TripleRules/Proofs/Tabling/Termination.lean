import TripleRules.Proofs.Tabling.Descent

/-!
# Termination

Under flat rules every pump ends, and each pump of a goal that is not complete completes it or
brings an answer.  Answers are bounded, so a goal is complete after finitely many pumps, whatever is
done in between.
-/

namespace TripleRules.Tabling

theorem wellFounded_descends (width count : Nat) :
    WellFounded fun m' m : Machine => Descends width count m.tables m.turn m'.tables m'.turn := by
  have hlex := InvImage.wf
    (fun m : Machine => (aim width count m.tables m.turn, toil width count m.tables m.turn))
    (WellFounded.prod_lex Nat.lt_wfRel.wf Nat.lt_wfRel.wf)
  refine Subrelation.wf ?_ hlex
  intro m' m h
  rcases h with haim | ⟨haim, htoil⟩
  · exact Prod.Lex.left _ _ haim
  · rcases Nat.lt_or_eq_of_le haim with hlt | heq
    · exact Prod.Lex.left _ _ hlt
    · have hright : Prod.Lex (· < ·) (· < ·)
          (aim width count m'.tables m'.turn, toil width count m'.tables m'.turn)
          (aim width count m.tables m.turn, toil width count m.tables m.turn) := by
        rw [heq]
        exact Prod.Lex.right _ htoil
      exact hright

namespace Attentive

variable {ctx : Context} {t : Tables}

theorem ask (hlinked : Linked t) (h : Attentive t none) (goal : Triple) :
    Attentive (t.generatorFor ctx goal).2 none :=
  none_iff.mpr ((none_iff.mp h).generatorFor hlinked ctx goal)

theorem enqueue (h : Attentive t none) (id : GeneratorId) : Attentive (t.enqueue id) none := by
  have hqueued := (none_iff.mp h).enqueue id
  exact none_iff.mpr (hqueued.mono (fun _ _ hb => hb.1) (fun _ _ hl => hl) fun _ ho => ho)

theorem invariant (hctx : ctx.Built) (hguard : ctx.Guarded) :
    Invariant ctx fun t turn => Faithful hctx hguard t ∧ Attentive t turn where
  ask _ goal h := ⟨h.1.generatorFor goal, h.2.ask h.1.linked goal⟩
  enqueue t id h _ := ⟨h.1.settles (closed_nil t) (t.settles_enqueue id), h.2.enqueue id⟩
  move _ _ _ _ h hm := ⟨h.1.move hm, h.2.move h.1.linked hm⟩
  safe _ _ _ _ _ _ premises fresh f h ht := h.1.safe ht premises fresh f

theorem reached (hctx : ctx.Built) (hguard : ctx.Guarded) (ht : Reached ctx t) :
    Attentive t none :=
  ((invariant hctx hguard).reached
    (fun _ hblank => ⟨.blank hblank, none_iff.mpr (.blank hblank)⟩) ht).2

end Attentive

theorem Bounded.within {ctx : Context} {hctx : ctx.Built} {hguard : ctx.Guarded}
    {hflat : ctx.Flat} {asked : List Triple} {t : Tables}
    (h : Bounded hctx hguard hflat asked t) :
    Within ctx ctx.width (ctx.goalsWith asked).length t :=
  ⟨h.size_le, h.1.size_results_le hflat, hctx.length_find_le⟩

/-- Every pump ends, and without a fault. -/
theorem exists_pump_eq_some {ctx : Context} (hctx : ctx.Built) (hguard : ctx.Guarded)
    (hflat : ctx.Flat) {t : Tables} (ht : Reached ctx t) (target : GeneratorId)
    (limit fresh : Nat) :
    ∃ fuel o, t.pump fuel ctx target limit fresh = some o ∧ o.fault = none := by
  obtain ⟨asked, hbounded⟩ := Bounded.reached hctx hguard hflat ht
  have hattentive := Attentive.reached hctx hguard ht
  -- a pump asks for nothing from outside, so the bounds stay the same
  have hstart : Bounded hctx hguard hflat asked
      (if (t.generator target).state = .ready then t.enqueue target else t) ∧
        Attentive (if (t.generator target).state = .ready then t.enqueue target else t) none := by
    split
    · exact ⟨hbounded.settles (closed_nil t) (t.settles_enqueue target),
        hattentive.enqueue target⟩
    · exact ⟨hbounded, hattentive⟩
  have hends : ∃ fuel o, t.pump fuel ctx target limit fresh = some o := by
    apply exists_iterate_eq_some (I := fun m : Machine =>
      Bounded hctx hguard hflat asked m.tables ∧ Attentive m.tables m.turn)
      (wellFounded_descends ctx.width (ctx.goalsWith asked).length) _ hstart
    intro m m' hm hstep
    have hmove := step_next (Nat.le_max_right limit 1) hstep
    have hbounded' := hm.1.move hmove
    have hlinked := hm.1.1.linked
    exact ⟨⟨hbounded', hm.2.move hlinked hmove⟩,
      hmove.descends hlinked hm.2 hm.1.within hbounded'.within⟩
  obtain ⟨fuel, o, ho⟩ := hends
  have hfaithful := Faithful.reached hctx hguard ht
  exact ⟨fuel, o, ho, (Faithful.invariant.pump hfaithful ho).2.1⟩

/-- The tables when one generator has been pumped some number of times; anything else may have been
asked and pumped in between. -/
inductive Pumped (ctx : Context) (id : GeneratorId) (t : Tables) : Nat → Tables → Prop where
  | start : Pumped ctx id t 0 t
  | between {n : Nat} {t' t'' : Tables} (h : Pumped ctx id t n t') (hruns : Runs ctx t' t'') :
      Pumped ctx id t n t''
  | pump {n : Nat} {t' : Tables} (h : Pumped ctx id t n t') {fuel limit fresh : Nat} {o : Outcome}
      (ho : t'.pump fuel ctx id limit fresh = some o) : Pumped ctx id t (n + 1) o.tables

theorem Pumped.runs {ctx : Context} {id : GeneratorId} {t t' : Tables} {n : Nat}
    (h : Pumped ctx id t n t') : Runs ctx t t' := by
  induction h with
  | start => exact .refl
  | between _ hruns ih => exact ih.trans hruns
  | pump _ ho ih => exact ih.pump ho

/-- Each pump of a goal completes it or brings an answer. -/
theorem Pumped.isComplete_or_le {ctx : Context} (hctx : ctx.Built) (hguard : ctx.Guarded)
    {id : GeneratorId} {t t' : Tables} {n : Nat} (hfaithful : Faithful hctx hguard t)
    (hid : id < t.size) (h : Pumped ctx id t n t') :
    (t'.generator id).isComplete ∨ n ≤ (t'.generator id).results.size := by
  induction h with
  | start => exact .inr (Nat.zero_le _)
  | @between n t₁ t₂ h hruns ih =>
      have hmid := (Faithful.later_invariant t id).runs ⟨hfaithful, .refl hid⟩ h.runs
      have hlater := ((Faithful.later_invariant t₁ id).runs
        ⟨hmid.1, .refl hmid.2.size⟩ hruns).2
      have hsize := hlater.size_results_le
      rcases ih with hc | hle
      · exact .inl (hlater.isComplete hc)
      · exact .inr (hle.trans hsize)
  | @pump n t₁ h fuel limit fresh o ho ih =>
      have hmid := (Faithful.later_invariant t id).runs ⟨hfaithful, .refl hid⟩ h.runs
      have hpump := (Faithful.later_invariant t₁ id).pump ⟨hmid.1, .refl hmid.2.size⟩ ho
      rcases ih with hc | hle
      · exact .inl (hpump.1.2.isComplete hc)
      · rcases hpump.2.2 with hc | hlt
        · exact .inl hc
        · exact .inr (by omega)

/-- A goal that is pumped until it is complete is pumped no more often than the width allows. -/
theorem exists_iterate_solveStep {ctx : Context} (hctx : ctx.Built) (hguard : ctx.Guarded)
    (hflat : ctx.Flat) (id : GeneratorId) (limit k : Nat) {t : Tables} (ht : Reached ctx t)
    (hk : (t.generator id).isComplete ∨ ctx.width < k + (t.generator id).results.size)
    (fresh : Nat) :
    ∃ fuel, ∀ more, fuel ≤ more → ∃ o : Outcome,
      iterate (Tables.solveStep more ctx id limit) (k + 1) (t, fresh) = some (some o) ∧
        o.fault = none ∧ (o.tables.generator id).isComplete := by
  induction k generalizing t fresh with
  | zero =>
      have hwidth := (Faithful.reached hctx hguard ht).size_results_le hflat id
      have hc : (t.generator id).isComplete := hk.resolve_right (by omega)
      refine ⟨0, fun more _ => ⟨⟨t, fresh, none⟩, ?_, rfl, hc⟩⟩
      rw [iterate, Tables.solveStep, if_pos hc]
  | succ k ih =>
      by_cases hc : (t.generator id).isComplete
      · refine ⟨0, fun more _ => ⟨⟨t, fresh, none⟩, ?_, rfl, hc⟩⟩
        rw [iterate, Tables.solveStep, if_pos hc]
      · obtain ⟨fuel, o, ho, hfault⟩ := exists_pump_eq_some hctx hguard hflat ht id limit fresh
        have hpump := (Faithful.invariant.pump (Faithful.reached hctx hguard ht) ho).2.2
        have hnext : (o.tables.generator id).isComplete ∨
            ctx.width < k + (o.tables.generator id).results.size := by
          rcases hpump with hdone | hlt
          · exact .inl hdone
          · have hwidth := hk.resolve_left hc
            exact .inr (by omega)
        obtain ⟨fuel', hrest⟩ := ih (ht.pump ho) hnext o.fresh
        refine ⟨max fuel fuel', fun more hmore => ?_⟩
        have hmono : t.pump more ctx id limit fresh = some o :=
          iterate_mono ((Nat.le_max_left _ _).trans hmore) ho
        obtain ⟨o', ho', hend⟩ := hrest more ((Nat.le_max_right _ _).trans hmore)
        refine ⟨o', ?_, hend⟩
        rw [iterate, Tables.solveStep, if_neg hc, hmono]
        dsimp only
        rw [hfault]
        exact ho'

/-- All answers of a goal are found in the end. -/
theorem exists_solve_eq_some {ctx : Context} (hctx : ctx.Built) (hguard : ctx.Guarded)
    (hflat : ctx.Flat) {t : Tables} (ht : Reached ctx t) (id : GeneratorId) (limit fresh : Nat) :
    ∃ fuel o, t.solve fuel ctx id limit fresh = some o ∧ o.fault = none ∧
      (o.tables.generator id).isComplete := by
  obtain ⟨fuel, hsolve⟩ := exists_iterate_solveStep hctx hguard hflat id limit (ctx.width + 1) ht
    (.inr (by omega)) fresh
  obtain ⟨o, ho, hend⟩ := hsolve (max fuel (ctx.width + 2)) (Nat.le_max_left _ _)
  have hmono := iterate_mono (Nat.le_max_right fuel (ctx.width + 2)) ho
  refine ⟨max fuel (ctx.width + 2), o, ?_, hend⟩
  rw [Tables.solve, hmono]
  rfl

/-- Tabled proof ends under flat rules.  Whatever has been asked and pumped before, every pump
returns, and there is a number of pumps of a goal's generator that complete it. -/
theorem pumps_complete {ctx : Context} (hctx : ctx.Built) (hguard : ctx.Guarded)
    (hflat : ctx.Flat) {t : Tables} (ht : Reached ctx t) (goal : Triple) :
    (∀ t', Runs ctx t t' → ∀ target limit fresh, ∃ fuel o,
      t'.pump fuel ctx target limit fresh = some o ∧ o.fault = none) ∧
    ∃ n, ∀ t', Pumped ctx (t.generatorFor ctx goal).1 (t.generatorFor ctx goal).2 n t' →
      (t'.generator (t.generatorFor ctx goal).1).isComplete := by
  refine ⟨fun t' hruns target limit fresh =>
    exists_pump_eq_some hctx hguard hflat (ht.runs hruns) target limit fresh,
    ctx.width + 1, fun t' hpumped => ?_⟩
  have hfaithful := Faithful.reached hctx hguard ht
  have hid := (hfaithful.linked.generatorFor_fst ctx goal).1
  have hfaithful' : Faithful hctx hguard t' :=
    Faithful.reached hctx hguard ((ht.ask goal).runs hpumped.runs)
  have hwidth := hfaithful'.size_results_le hflat (t.generatorFor ctx goal).1
  have hprogress := hpumped.isComplete_or_le hctx hguard (hfaithful.generatorFor goal) hid
  exact hprogress.resolve_right (by omega)

/-! ## An instance -/

theorem flat_circle : circle.Flat := by
  rintro r (⟨s, ⟨⟩, hr⟩ | hr)
  · rw [List.mem_singleton.mp hr]
    decide
  · exact absurd hr List.not_mem_nil

/-- What is before a compound term is asked for, with a goal that holds two variables. -/
theorem circle_pumps_complete :
    (∀ t', Runs circle (Tables.new {}) t' → ∀ target limit fresh, ∃ fuel o,
      t'.pump fuel circle target limit fresh = some o ∧ o.fault = none) ∧
    ∃ n, ∀ t', Pumped circle 0
      ((Tables.new {}).generatorFor circle
        ⟨.named "x", .iri "before", .compound "f" [.named "y"]⟩).2 n t' →
      (t'.generator 0).isComplete :=
  pumps_complete built_circle guarded_circle flat_circle ⟨_, Tables.blank_new {}, .refl⟩
    ⟨.named "x", .iri "before", .compound "f" [.named "y"]⟩

end TripleRules.Tabling
