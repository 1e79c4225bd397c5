import TripleRules.Forward.Engine
import TripleRules.Proofs.Forward.Matching

/-!
# Firing

What drawing conclusions does to an engine.  Deductions and installed rules only grow; what is new
among the deductions is also new on the agenda, was in neither of the other stores, and is bounded
by what its rule may conclude.  Afterwards every conclusion that was drawn is there.
-/

namespace TripleRules.Forward

namespace Engine

/-- How an engine develops over given data: it keeps what it has, and what it adds is bounded by a
set of triples and a set of rules. -/
structure Develops (d : Data) (M : Triple → Prop) (N : CheckedRule → Prop) (e e' : Engine) :
    Prop where
  base : e'.base = e.base
  threshold : e'.threshold = e.threshold
  exceeded : e'.stats.thresholdExceeded = e.stats.thresholdExceeded
  deductions : ∀ t ∈ e.deductions.triples, t ∈ e'.deductions.triples
  deduced : ∀ t ∈ e'.deductions.triples, t ∈ e.deductions.triples ∨
    M t ∧ t ∉ d.raw.triples ∧ t ∉ d.schema.triples
  installed : ∀ r ∈ e.installed.rules, r ∈ e'.installed.rules
  added : ∀ r ∈ e'.installed.rules, r ∈ e.installed.rules ∨ N r
  builtDeductions : e.deductions.Built → e'.deductions.Built
  builtInstalled : e.installed.Built → e'.installed.Built

structure Grows (d : Data) (M : Triple → Prop) (N : CheckedRule → Prop) (e e' : Engine) : Prop
    extends Develops d M N e e' where
  agenda : ∀ t ∈ e.agenda, t ∈ e'.agenda
  pushed : ∀ t ∈ e'.deductions.triples, t ∈ e.deductions.triples ∨ t ∈ e'.agenda
  queued : ∀ t ∈ e'.agenda, t ∈ e.agenda ∨ t ∈ e'.deductions.triples

variable {d : Data} {M : Triple → Prop} {N : CheckedRule → Prop} {e e' e'' : Engine}

theorem Develops.refl (e : Engine) : Develops d M N e e :=
  ⟨rfl, rfl, rfl, fun _ h => h, fun _ h => .inl h, fun _ h => h, fun _ h => .inl h, id, id⟩

theorem Develops.trans (h : Develops d M N e e') (h' : Develops d M N e' e'') :
    Develops d M N e e'' where
  base := h'.base.trans h.base
  threshold := h'.threshold.trans h.threshold
  exceeded := h'.exceeded.trans h.exceeded
  deductions t ht := h'.deductions t (h.deductions t ht)
  deduced t ht := (h'.deduced t ht).elim (h.deduced t) .inr
  installed r hr := h'.installed r (h.installed r hr)
  added r hr := (h'.added r hr).elim (h.added r) .inr
  builtDeductions hb := h'.builtDeductions (h.builtDeductions hb)
  builtInstalled hb := h'.builtInstalled (h.builtInstalled hb)

theorem Develops.of_agenda {ts : List Triple} (h : Develops d M N { e with agenda := ts } e') :
    Develops d M N e e' :=
  ⟨h.base, h.threshold, h.exceeded, h.deductions, h.deduced, h.installed, h.added,
    h.builtDeductions, h.builtInstalled⟩

theorem Grows.refl (e : Engine) : Grows d M N e e :=
  ⟨.refl e, fun _ h => h, fun _ h => .inl h, fun _ h => .inl h⟩

theorem Grows.trans (h : Grows d M N e e') (h' : Grows d M N e' e'') : Grows d M N e e'' where
  toDevelops := h.toDevelops.trans h'.toDevelops
  agenda t ht := h'.agenda t (h.agenda t ht)
  pushed t ht := (h'.pushed t ht).elim (fun ht => (h.pushed t ht).imp_right (h'.agenda t)) .inr
  queued t ht := (h'.queued t ht).elim (fun ht => (h.queued t ht).imp_right (h'.deductions t)) .inr

theorem Develops.contains (h : Develops d M N e e') {t : Triple} (ht : (e.sources d).contains t) :
    (e'.sources d).contains t := by
  rw [Sources.contains_iff] at ht ⊢
  exact ht.imp_right (·.imp_right (h.deductions t))

theorem Develops.contains_rule (h : Develops d M N e e') {r : Rule}
    (hr : e.installed.contains r) : e'.installed.contains r := by
  rw [RuleSet.contains, List.any_eq_true] at hr ⊢
  obtain ⟨q, hq, heq⟩ := hr
  exact ⟨q, h.installed q hq, heq⟩

theorem Grows.mem_agenda (h : Grows d M N e e') {t : Triple} (ht : (e'.sources d).contains t)
    (hnew : ¬ (e.sources d).contains t) : t ∈ e'.agenda := by
  rw [Sources.contains_iff] at ht hnew
  rcases ht with ht | ht | ht
  · exact absurd (.inl ht) hnew
  · exact absurd (.inr (.inl ht)) hnew
  · rcases h.pushed t ht with ht | ht
    · exact absurd (.inr (.inr ht)) hnew
    · exact ht

/-! ## Conclusions -/

/-- The conclusion may be drawn under bindings. -/
def Licensed (M : Triple → Prop) (N : CheckedRule → Prop) (known : Registry) (env : Bindings) :
    Conclusion → Prop
  | .pattern p => (env.instantiate p).isGround ∧ M (env.instantiate p)
  | .rule r => ∀ c, (r.specialize env).check known = .ok c → N c

def Concluded (e : Engine) (d : Data) (env : Bindings) : Conclusion → Prop
  | .pattern p => (e.sources d).contains (env.instantiate p)
  | .rule r => ∀ c, (r.specialize env).check e.base.known = .ok c → e.installed.contains c.rule

def Drawn (e : Engine) (d : Data) (r : CheckedRule) (env : Bindings) : Prop :=
  ∀ c ∈ r.rule.head, e.Concluded d env c

theorem Concluded.mono (h : Develops d M N e e') {env : Bindings} {c : Conclusion}
    (hc : e.Concluded d env c) : e'.Concluded d env c := by
  cases c with
  | pattern p => exact h.contains hc
  | rule r =>
      intro q hq
      rw [h.base] at hq
      exact h.contains_rule (hc q hq)

theorem Drawn.mono (h : Develops d M N e e') {r : CheckedRule} {env : Bindings}
    (hr : e.Drawn d r env) : e'.Drawn d r env :=
  fun c hc => (hr c hc).mono h

theorem deduce_grows (f : Firing) {t : Triple} (ht : M t) : Grows d M N e (e.deduce d f t) := by
  unfold deduce
  split
  · exact .refl e
  · rename_i hnew
    simp only [Bool.or_eq_true, Bool.not_eq_true', not_or, Bool.not_eq_false] at hnew
    obtain ⟨hground, hnew⟩ := hnew
    have hapart : t ∉ d.raw.triples ∧ t ∉ d.schema.triples := by
      rw [Sources.contains_iff, not_or, not_or] at hnew
      exact ⟨hnew.1, hnew.2.1⟩
    refine ⟨⟨rfl, rfl, rfl, fun u hu => ?_, fun u hu => ?_, fun _ h => h, fun _ h => .inl h,
      fun hb => hb.insert hground, id⟩, fun u hu => ?_, fun u hu => ?_, fun u hu => ?_⟩
    · exact (Store.mem_insert _ _ _).mpr (.inl hu)
    · rcases (Store.mem_insert _ _ _).mp hu with hu | rfl
      · exact .inl hu
      · exact .inr ⟨ht, hapart⟩
    · exact List.mem_append_left _ hu
    · rcases (Store.mem_insert _ _ _).mp hu with hu | rfl
      · exact .inl hu
      · exact .inr (List.mem_append_right _ (List.mem_singleton_self _))
    · rcases List.mem_append.mp hu with hu | hu
      · exact .inl hu
      · rw [List.mem_singleton] at hu
        exact .inr ((Store.mem_insert _ _ _).mpr (.inr hu))

theorem contains_deduce (f : Firing) {t : Triple} (ht : t.isGround) :
    ((e.deduce d f t).sources d).contains t := by
  unfold deduce
  split
  · rename_i h
    simpa [ht] using h
  · rw [Sources.contains_iff]
    exact .inr (.inr ((Store.mem_insert _ _ _).mpr (.inr rfl)))

theorem install_grows {r : Rule} {env : Bindings}
    (hr : ∀ c, (r.specialize env).check e.base.known = .ok c → N c) :
    Grows d M N e (e.install r env) := by
  unfold install
  cases hcheck : (r.specialize env).check e.base.known with
  | error f => exact ⟨⟨rfl, rfl, rfl, fun _ h => h, fun _ h => .inl h, fun _ h => h,
      fun _ h => .inl h, id, id⟩, fun _ h => h, fun _ h => .inl h, fun _ h => .inl h⟩
  | ok c =>
      obtain ⟨hchecked, hback⟩ := CheckedRule.isChecked_specialize hcheck
      dsimp only
      split
      · exact .refl e
      · refine ⟨⟨rfl, rfl, rfl, fun _ h => h, fun _ h => .inl h, fun q hq => ?_, fun q hq => ?_, id,
          fun hb => hb.insert hchecked hback⟩, fun _ h => h, fun _ h => .inl h, fun _ h => .inl h⟩
        · exact RuleSet.mem_insert_of_mem _ _ hq
        · rcases RuleSet.mem_of_mem_insert hq with hq | rfl
          · exact .inl hq
          · exact .inr (hr _ hcheck)

theorem contains_install {r : Rule} {env : Bindings} {c : CheckedRule}
    (hc : (r.specialize env).check e.base.known = .ok c) :
    (e.install r env).installed.contains c.rule := by
  unfold install
  rw [hc]
  dsimp only
  split
  · rename_i h
    exact h
  · exact RuleSet.contains_insert _ _

theorem conclude_grows (f : Firing) {c : Conclusion}
    (hc : Licensed M N e.base.known f.env c) :
    Grows d M N e (conclude d f e c) ∧ (conclude d f e c).Concluded d f.env c := by
  cases c with
  | pattern p => exact ⟨deduce_grows f hc.2, contains_deduce f hc.1⟩
  | rule r =>
      have hgrows : Grows d M N e (e.install r f.env) := install_grows hc
      refine ⟨hgrows, fun q hq => contains_install ?_⟩
      rwa [← hgrows.base]

theorem foldl_conclude_grows (f : Firing) {cs : List Conclusion}
    (hcs : ∀ c ∈ cs, Licensed M N e.base.known f.env c) :
    Grows d M N e (cs.foldl (conclude d f) e) ∧
      ∀ c ∈ cs, (cs.foldl (conclude d f) e).Concluded d f.env c := by
  induction cs generalizing e with
  | nil => exact ⟨.refl e, fun _ h => absurd h List.not_mem_nil⟩
  | cons c cs ih =>
      obtain ⟨hc, hconcluded⟩ := conclude_grows (d := d) f (hcs c List.mem_cons_self)
      obtain ⟨hrest, hdrawn⟩ := ih (e := conclude d f e c) fun q hq => by
        rw [hc.base]
        exact hcs q (List.mem_cons_of_mem _ hq)
      rw [List.foldl_cons]
      refine ⟨hc.trans hrest, fun q hq => ?_⟩
      rcases List.mem_cons.mp hq with rfl | hq
      · exact hconcluded.mono hrest.toDevelops
      · exact hdrawn q hq

theorem fire_grows {f : Firing} (hf : ∀ c ∈ f.rule.rule.head, Licensed M N e.base.known f.env c) :
    Grows d M N e (e.fire d f) ∧ (e.fire d f).Drawn d f.rule f.env := by
  let counted : Engine := { e with stats := { e.stats with firings := e.stats.firings + 1 } }
  have hcounted : Grows d M N e counted := ⟨⟨rfl, rfl, rfl, fun _ h => h, fun _ h => .inl h,
    fun _ h => h, fun _ h => .inl h, id, id⟩, fun _ h => h, fun _ h => .inl h, fun _ h => .inl h⟩
  obtain ⟨hgrows, hdrawn⟩ := foldl_conclude_grows (e := counted) (d := d) f hf
  exact ⟨hcounted.trans hgrows, hdrawn⟩

/-! ## Whole firings -/

def Over (e e' : Engine) : Prop := e'.stats.thresholdExceeded = true ∧ 0 < e.threshold

theorem Grows.over (h : Grows d M N e e') (h' : e'.Over e'') : e.Over e'' :=
  ⟨h'.1, h.threshold ▸ h'.2⟩

/-- Bodies are fired until the limit is met. -/
theorem fireAll_spec {fs : List Firing}
    (hfs : ∀ f ∈ fs, ∀ c ∈ f.rule.rule.head, Licensed M N e.base.known f.env c) :
    (fireAll d fs e).2 = true ∧ Grows d M N e (fireAll d fs e).1 ∧
        (∀ f ∈ fs, (fireAll d fs e).1.Drawn d f.rule f.env) ∨
      (fireAll d fs e).2 = false ∧ e.Over (fireAll d fs e).1 := by
  induction fs generalizing e with
  | nil => exact .inl ⟨rfl, .refl e, fun _ h => absurd h List.not_mem_nil⟩
  | cons f fs ih =>
      rw [fireAll]
      split
      · rename_i hlimit
        rw [atThreshold, Bool.and_eq_true, decide_eq_true_eq] at hlimit
        exact .inr ⟨rfl, rfl, hlimit.1⟩
      · obtain ⟨hf, hdrawn⟩ := fire_grows (d := d) (hfs f List.mem_cons_self)
        have hfs' : ∀ g ∈ fs, ∀ c ∈ g.rule.rule.head,
            Licensed M N (e.fire d f).base.known g.env c := by
          rw [hf.base]
          exact fun g hg => hfs g (List.mem_cons_of_mem _ hg)
        rcases ih hfs' with ⟨hgo, hgrows, hall⟩ | ⟨hgo, hover⟩
        · refine .inl ⟨hgo, hf.trans hgrows, fun g hg => ?_⟩
          rcases List.mem_cons.mp hg with rfl | hg
          · exact hdrawn.mono hgrows.toDevelops
          · exact hall g hg
        · exact .inr ⟨hgo, hf.over hover⟩

def Installs (b : RuleBase) (M : Triple → Prop) (c : CheckedRule) : Prop :=
  ∃ r ∈ b.forward, ∃ τ : Nat → Term, (∀ i, (τ i).isGround) ∧ Applies M r.body (bySlot τ) ∧
    ∃ q, .rule q ∈ r.rule.head ∧ (q.specialize (r.bindings τ)).check b.known = .ok c

/-- A set of triples is closed under the forward rules and holds all sources. -/
structure Bounded (e : Engine) (d : Data) (M : Triple → Prop) : Prop where
  built : e.base.Built
  closed : ∀ r ∈ e.base.forward, ClosedUnder M r
  sources : ∀ t, (e.sources d).contains t → M t

theorem Bounded.develops (h : e.Bounded d M) (hd : Develops d M N e e') : e'.Bounded d M := by
  refine ⟨?_, ?_, fun t ht => ?_⟩
  · rw [hd.base]
    exact h.built
  · rw [hd.base]
    exact h.closed
  · have hkeep := h.sources t
    rw [Sources.contains_iff] at ht hkeep
    rcases ht with ht | ht | ht
    · exact hkeep (.inl ht)
    · exact hkeep (.inr (.inl ht))
    · rcases hd.deduced t ht with ht | ht
      · exact hkeep (.inr (.inr ht))
      · exact ht.1

theorem Bounded.licensed (h : e.Bounded d M) {r : CheckedRule} (hr : r ∈ e.base.forward)
    {done rest : List Premise} {env : Bindings} (hentry : Entry (e.sources d) r done rest env)
    {f : Firing} (hf : f.Completes (e.sources d) r done rest env) :
    ∀ c ∈ r.rule.head, Licensed M (Installs e.base M) e.base.known f.env c := by
  have hchecked : r.IsChecked := h.built.consistent.forward r hr
  have hvalues : f.env.Values (·.isGround) := hf.binds.values hentry.begun.values
  have hτ : ∀ i, (f.env.filled i).isGround := Bindings.isGround_filled hvalues
  obtain ⟨happ, henv⟩ := hentry.applies hf f.env.agrees_filled
  have happ : Applies M r.body (bySlot f.env.filled) :=
    ⟨fun p hp => h.sources _ (happ.patterns p hp), happ.calls⟩
  intro c hc
  cases c with
  | pattern p =>
      have hinst : f.env.instantiate p = p.mapVars (bySlot f.env.filled) :=
        (congrArg (Bindings.instantiate · p) henv).trans
          (CheckedRule.instantiate_bindings hchecked fun v hv => hchecked.mem_vars_of_head hc hv)
      rw [Licensed, hinst]
      exact ⟨Triple.isGround_mapVars (isGrounding_bySlot hτ) p,
        h.closed r hr _ (isGrounding_bySlot hτ) happ p hc⟩
  | rule q =>
      intro c hcheck
      rw [henv] at hcheck
      exact ⟨r, hr, _, hτ, happ, q, hc, hcheck⟩

/-- From an entry, every instance that applies has its conclusions drawn, unless the limit is met.
-/
theorem matchAndFire_spec (h : e.Bounded d M) {r : CheckedRule} (hr : r ∈ e.base.forward)
    {done rest : List Premise} {env : Bindings} (hentry : Entry (e.sources d) r done rest env)
    (premises : List Triple) (fresh : Nat) {o : Outcome} {goOn : Bool}
    (ho : e.matchAndFire d r rest env premises fresh = (o, goOn)) :
    o.fault = none ∧
      (goOn = true ∧ Grows d M (Installs e.base M) e o.engine ∧
          (∀ τ, (∀ i, (τ i).isGround) → env.Agrees τ →
            Applies ((e.sources d).contains ·) r.body (bySlot τ) →
              o.engine.Drawn d r (r.bindings τ)) ∨
        goOn = false ∧ e.Over o.engine) := by
  have hchecked : r.IsChecked := h.built.consistent.forward r hr
  let m := complete (e.sources d) r e.record rest env premises (.start fresh)
  have hadds : (Matching.start fresh).Adds m (·.Completes (e.sources d) r done rest env) :=
    complete_adds hentry.begun premises rfl
  have hcompletes : ∀ f ∈ m.firings, f.Completes (e.sources d) r done rest env := fun f hf =>
    (hadds.adds f hf).resolve_left List.not_mem_nil
  let noted : Engine := { e with failures := e.failures ++ m.failures }
  have hnoted : Grows d M (Installs e.base M) e noted := ⟨⟨rfl, rfl, rfl, fun _ h => h,
    fun _ h => .inl h, fun _ h => h, fun _ h => .inl h, id, id⟩, fun _ h => h, fun _ h => .inl h,
    fun _ h => .inl h⟩
  have hlicensed : ∀ f ∈ m.firings, ∀ c ∈ f.rule.rule.head,
      Licensed M (Installs e.base M) noted.base.known f.env c := by
    intro f hf c hc
    rw [(hcompletes f hf).rule] at hc
    exact h.licensed hr hentry (hcompletes f hf) c hc
  have hmatch : e.matchAndFire d r rest env premises fresh =
      (⟨(fireAll d m.firings noted).1, m.fresh, none⟩, (fireAll d m.firings noted).2) := by
    rw [matchAndFire]
    simp only [m, noted, hadds.fault]
  rw [hmatch, Prod.mk.injEq] at ho
  obtain ⟨rfl, rfl⟩ := ho
  refine ⟨rfl, ?_⟩
  rcases fireAll_spec (d := d) hlicensed with ⟨hgo, hgrows, hdrawn⟩ | ⟨hgo, hover⟩
  · refine .inl ⟨hgo, hnoted.trans hgrows, fun τ hτ hagr happ => ?_⟩
    obtain ⟨f, hf, hfτ⟩ := hentry.covers hchecked e.record premises fresh hτ hagr happ
    have hfr := hdrawn f hf
    rw [(hcompletes f hf).rule, (hentry.applies (hcompletes f hf) hfτ).2] at hfr
    exact hfr
  · exact .inr ⟨hgo, hnoted.over hover⟩

end Engine

end TripleRules.Forward
