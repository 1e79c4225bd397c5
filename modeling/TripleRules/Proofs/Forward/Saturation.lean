import TripleRules.Proofs.Forward.Firing

/-!
# Saturation

No instance of a forward rule is missed.  At any time, an instance that applies in the sources has a
premise on the agenda, or its conclusions have been drawn, or it lies within the schema.  Taking a
triple from the agenda keeps that: the instances with a premise in the triple have all other
premises in the sources by then and are found, or they have another premise on the agenda.
-/

namespace TripleRules.Forward

namespace Engine

variable {d : Data} {M : Triple → Prop} {e e' : Engine}

/-- The instance needs nothing but the schema, and something of it. -/
def FromSchema (d : Data) (r : CheckedRule) (τ : Nat → Term) : Prop :=
  r.rule.isAxiom = false ∧ Applies (· ∈ d.schema.triples) r.body (bySlot τ)

def HasPremise (ts : List Triple) (r : CheckedRule) (τ : Nat → Term) : Prop :=
  ∃ p, .pattern p ∈ r.body ∧ p.mapVars (bySlot τ) ∈ ts

/-- Every instance that applies is on the agenda, has been dealt with, or is waited for
otherwise. -/
def Covered (e : Engine) (d : Data) (W : CheckedRule → (Nat → Term) → Prop) : Prop :=
  ∀ r ∈ e.base.forward, ∀ τ : Nat → Term, (∀ i, (τ i).isGround) →
    Applies ((e.sources d).contains ·) r.body (bySlot τ) →
      HasPremise e.agenda r τ ∨ e.Drawn d r (r.bindings τ) ∨ FromSchema d r τ ∨ W r τ

def Saturated (e : Engine) (d : Data) : Prop :=
  ∀ r ∈ e.base.forward, ∀ τ : Nat → Term, (∀ i, (τ i).isGround) →
    Applies ((e.sources d).contains ·) r.body (bySlot τ) →
      e.Drawn d r (r.bindings τ) ∨ FromSchema d r τ

structure Steady (e : Engine) (d : Data) (M : Triple → Prop) : Prop extends Bounded e d M where
  stores : (e.sources d).Built
  guarded : ∀ r ∈ e.base.forward, r.Guarded
  agenda : ∀ t ∈ e.agenda, (e.sources d).contains t

theorem Steady.grows (h : e.Steady d M) (hg : Grows d M (Installs e.base M) e e') :
    e'.Steady d M where
  toBounded := h.toBounded.develops hg.toDevelops
  stores := ⟨h.stores.raw, h.stores.schema, hg.builtDeductions h.stores.deductions⟩
  guarded := by
    rw [hg.base]
    exact h.guarded
  agenda t ht := by
    rcases hg.queued t ht with ht | ht
    · exact hg.contains (h.agenda t ht)
    · exact (Sources.contains_iff _ t).mpr (.inr (.inr ht))

theorem Steady.withAgenda (h : e.Steady d M) {ts : List Triple}
    (hts : ∀ t ∈ ts, (e.sources d).contains t) : Steady { e with agenda := ts } d M :=
  ⟨⟨h.built, h.closed, h.sources⟩, h.stores, h.guarded, hts⟩

theorem Covered.imp {W W' : CheckedRule → (Nat → Term) → Prop} (h : e.Covered d W)
    (hW : ∀ r ∈ e.base.forward, ∀ τ : Nat → Term, (∀ i, (τ i).isGround) → W r τ → W' r τ) :
    e.Covered d W' := by
  intro r hr τ hτ happ
  rcases h r hr τ hτ happ with hagenda | hdrawn | hschema | hw
  · exact .inl hagenda
  · exact .inr (.inl hdrawn)
  · exact .inr (.inr (.inl hschema))
  · exact .inr (.inr (.inr (hW r hr τ hτ hw)))

theorem Covered.grows {W W' : CheckedRule → (Nat → Term) → Prop} (h : e.Covered d W)
    (hg : Grows d M (Installs e.base M) e e')
    (hW : ∀ r ∈ e.base.forward, ∀ τ : Nat → Term, (∀ i, (τ i).isGround) →
      Applies ((e.sources d).contains ·) r.body (bySlot τ) → W r τ →
        e'.Drawn d r (r.bindings τ) ∨ W' r τ) : e'.Covered d W' := by
  intro r hr τ hτ happ
  rw [hg.base] at hr
  by_cases hold : ∀ p, .pattern p ∈ r.body → (e.sources d).contains (p.mapVars (bySlot τ))
  · have happ : Applies ((e.sources d).contains ·) r.body (bySlot τ) := ⟨hold, happ.calls⟩
    rcases h r hr τ hτ happ with ⟨p, hp, hin⟩ | hdrawn | hschema | hwaits
    · exact .inl ⟨p, hp, hg.agenda _ hin⟩
    · exact .inr (.inl (hdrawn.mono hg.toDevelops))
    · exact .inr (.inr (.inl hschema))
    · rcases hW r hr τ hτ happ hwaits with hdrawn | hwaits
      · exact .inr (.inl hdrawn)
      · exact .inr (.inr (.inr hwaits))
  · simp only [not_forall] at hold
    obtain ⟨p, hp, hnew⟩ := hold
    exact .inl ⟨p, hp, hg.mem_agenda (happ.patterns p hp) hnew⟩

/-! ## The first pass -/

theorem fireUnconditional_spec {W : CheckedRule → (Nat → Term) → Prop} {rs : List CheckedRule}
    (h : e.Steady d M) (hrs : ∀ r ∈ rs, r ∈ e.base.forward) (fresh : Nat)
    (hcov : e.Covered d fun r τ => r ∈ rs ∨ W r τ) :
    (fireUnconditional d rs e fresh).fault = none ∧
      (e.Over (fireUnconditional d rs e fresh).engine ∨
        Grows d M (Installs e.base M) e (fireUnconditional d rs e fresh).engine ∧
          (fireUnconditional d rs e fresh).engine.Covered d W) := by
  induction rs generalizing e fresh with
  | nil =>
      exact ⟨rfl, .inr ⟨.refl e, hcov.imp fun r _ τ _ hw => hw.resolve_left List.not_mem_nil⟩⟩
  | cons r rs ih =>
      have hr : r ∈ e.base.forward := hrs r List.mem_cons_self
      have hentry := Entry.front h.stores (h.guarded r hr)
      rw [fireUnconditional]
      cases hmatch : e.matchAndFire d r r.body (.empty r.slots) [] fresh with
      | mk o goOn =>
          obtain ⟨hfault, ⟨rfl, hg, hdrawn⟩ | ⟨rfl, hover⟩⟩ :=
            matchAndFire_spec h.toBounded hr hentry [] fresh hmatch
          · have hrs' : ∀ q ∈ rs, q ∈ o.engine.base.forward := by
              rw [hg.base]
              exact fun q hq => hrs q (List.mem_cons_of_mem _ hq)
            have hcov' : o.engine.Covered d fun r τ => r ∈ rs ∨ W r τ := by
              refine hcov.grows hg fun q _ τ hτ happ hw => ?_
              rcases hw with hq | hw
              · rcases List.mem_cons.mp hq with rfl | hq
                · exact .inl (hdrawn τ hτ (Bindings.agrees_empty _ _) happ)
                · exact .inr (.inl hq)
              · exact .inr (.inr hw)
            obtain ⟨hfault', hrest⟩ := ih (h.grows hg) hrs' o.fresh hcov'
            refine ⟨hfault', hrest.imp hg.over fun hrest => ?_⟩
            rw [hg.base] at hrest
            exact ⟨hg.trans hrest.1, hrest.2⟩
          · exact ⟨hfault, .inl hover⟩

/-! ## One triple -/

/-- The instance is waited for at a trigger that the triple sets off. -/
def AwaitsTrigger (trs : List Trigger) (t : Triple) (r : CheckedRule) (τ : Nat → Term) : Prop :=
  ∃ tr ∈ trs, tr.IsOf r ∧ tr.pattern.mapVars (bySlot τ) = t

/-- A triple sets off the trigger of every instance of which it is a premise there. -/
theorem match?_of_awaits {r : CheckedRule} (hr : r.IsChecked) {tr : Trigger} (htr : tr.IsOf r)
    {τ : Nat → Term} (hτ : ∀ i, (τ i).isGround) {t : Triple}
    (ht : tr.pattern.mapVars (bySlot τ) = t) :
    ∃ env, (Bindings.empty tr.rule.slots).match? tr.pattern t = some env ∧ env.Agrees τ := by
  rw [← ht, htr.rule]
  refine Bindings.match?_agrees (Bindings.agrees_empty _ τ) hτ fun v hv => ?_
  rw [Bindings.size_empty]
  exact hr.slot_lt (CheckedRule.mem_vars_iff.mpr ⟨_, List.mem_of_getElem? htr.clause, hv⟩)

theorem tryTriggers_spec {t : Triple} {trs : List Trigger} (h : e.Steady d M)
    (ht : (e.sources d).contains t) (htrs : ∀ tr ∈ trs, ∃ r ∈ e.base.forward, tr.IsOf r)
    (fresh : Nat) (hcov : e.Covered d (AwaitsTrigger trs t)) :
    (tryTriggers d t trs e fresh).fault = none ∧
      (e.Over (tryTriggers d t trs e fresh).engine ∨
        Grows d M (Installs e.base M) e (tryTriggers d t trs e fresh).engine ∧
          (tryTriggers d t trs e fresh).engine.Covered d fun _ _ => False) := by
  induction trs generalizing e fresh with
  | nil =>
      refine ⟨rfl, .inr ⟨.refl e, hcov.imp fun r _ τ _ hw => ?_⟩⟩
      obtain ⟨tr, htr, -⟩ := hw
      cases htr
  | cons tr trs ih =>
      obtain ⟨r, hr, htr⟩ := htrs tr List.mem_cons_self
      have hchecked : ∀ q ∈ e.base.forward, q.IsChecked := h.built.consistent.forward
      rw [tryTriggers]
      cases hmatch : (Bindings.empty tr.rule.slots).match? tr.pattern t with
      | none =>
          refine ih h ht (fun u hu => htrs u (List.mem_cons_of_mem _ hu)) fresh
            (hcov.imp fun q hq τ hτ hw => ?_)
          obtain ⟨u, hu, hof, hinst⟩ := hw
          rcases List.mem_cons.mp hu with rfl | hu
          · obtain ⟨env, henv, -⟩ := match?_of_awaits (hchecked q hq) hof hτ hinst
            rw [hmatch] at henv
            cases henv
          · exact ⟨u, hu, hof, hinst⟩
      | some env =>
          have hentry : Entry (e.sources d) r [.pattern tr.pattern] tr.rest env :=
            .trigger h.stores (h.guarded r hr) htr ht (htr.rule ▸ hmatch)
          dsimp only
          cases hfire : e.matchAndFire d tr.rule tr.rest env
              (if e.record then [t] else []) fresh with
          | mk o goOn =>
              obtain ⟨hfault, ⟨rfl, hg, hdrawn⟩ | ⟨rfl, hover⟩⟩ :=
                matchAndFire_spec h.toBounded hr hentry _ fresh (htr.rule ▸ hfire)
              · have htrs' : ∀ u ∈ trs, ∃ q ∈ o.engine.base.forward, u.IsOf q := by
                  rw [hg.base]
                  exact fun u hu => htrs u (List.mem_cons_of_mem _ hu)
                have hcov' : o.engine.Covered d (AwaitsTrigger trs t) := by
                  refine hcov.grows hg fun q hq τ hτ happ hw => ?_
                  obtain ⟨u, hu, hof, hinst⟩ := hw
                  rcases List.mem_cons.mp hu with rfl | hu
                  · obtain ⟨env', henv, hagr⟩ := match?_of_awaits (hchecked q hq) hof hτ hinst
                    rw [hmatch, Option.some.injEq] at henv
                    subst henv
                    have hqr : q = r := hof.rule.symm.trans htr.rule
                    subst hqr
                    exact .inl (hdrawn τ hτ hagr happ)
                  · exact .inr ⟨u, hu, hof, hinst⟩
                obtain ⟨hfault', hrest⟩ := ih (h.grows hg) (hg.contains ht) htrs' o.fresh hcov'
                refine ⟨hfault', hrest.imp hg.over fun hrest => ?_⟩
                rw [hg.base] at hrest
                exact ⟨hg.trans hrest.1, hrest.2⟩
              · exact ⟨hfault, .inl hover⟩

/-! ## Working off the agenda -/

/-- Where chaining stands between two triples: it has met its limit, or it has missed nothing. -/
def Underway (d : Data) (M : Triple → Prop) (e₀ e : Engine) : Prop :=
  e₀.Over e ∨ Develops d M (Installs e₀.base M) e₀ e ∧ e.stats.thresholdExceeded = false ∧
    e.Steady d M ∧ e.Covered d fun _ _ => False

def Settled (d : Data) (M : Triple → Prop) (e₀ e : Engine) : Prop :=
  e₀.Over e ∨ Develops d M (Installs e₀.base M) e₀ e ∧ e.agenda = [] ∧ e.Steady d M ∧ e.Saturated d

theorem Covered.pop {t : Triple} {rest : List Triple} (hb : e.base.Built)
    (hcov : e.Covered d fun _ _ => False) (hagenda : e.agenda = t :: rest) :
    Covered { e with agenda := rest } d (AwaitsTrigger (e.base.triggersFor t.predicate) t) := by
  intro r hr τ hτ happ
  rcases hcov r hr τ hτ happ with ⟨p, hp, hin⟩ | hdrawn | hschema | hfalse
  · rw [hagenda] at hin
    rcases List.mem_cons.mp hin with hin | hin
    · obtain ⟨tr, htr, hof, hpat⟩ := hb.exists_mem_triggersFor hr hp (bySlot τ)
      rw [hin] at htr
      exact .inr (.inr (.inr ⟨tr, htr, hof, hpat ▸ hin⟩))
    · exact .inl ⟨p, hp, hin⟩
  · exact .inr (.inl hdrawn)
  · exact .inr (.inr (.inl hschema))
  · exact hfalse.elim

theorem drainStep_underway {e₀ : Engine} (h : Underway d M e₀ e) (fresh : Nat) :
    (∃ e' fresh', drainStep d (e, fresh) = .next (e', fresh') ∧ Underway d M e₀ e') ∨
      ∃ o, drainStep d (e, fresh) = .done o ∧ o.fault = none ∧ Settled d M e₀ o.engine := by
  rw [drainStep]
  cases hagenda : e.agenda with
  | nil =>
      refine .inr ⟨_, rfl, rfl, h.imp_right fun ⟨hdev, _, hsteady, hcov⟩ => ?_⟩
      refine ⟨hdev, hagenda, hsteady, fun r hr τ hτ happ => ?_⟩
      rcases hcov r hr τ hτ happ with ⟨p, -, hin⟩ | hdrawn | hschema | hfalse
      · rw [hagenda] at hin
        cases hin
      · exact .inl hdrawn
      · exact .inr hschema
      · exact hfalse.elim
  | cons t rest =>
      dsimp only
      rcases h with hover | ⟨hdev, hlimit, hsteady, hcov⟩
      · rw [if_pos hover.1]
        exact .inr ⟨_, rfl, rfl, .inl hover⟩
      · have ht : (e.sources d).contains t := by
          apply hsteady.agenda
          rw [hagenda]
          exact List.mem_cons_self
        have hpopped : Steady { e with agenda := rest } d M := by
          refine hsteady.withAgenda fun u hu => ?_
          apply hsteady.agenda
          rw [hagenda]
          exact List.mem_cons_of_mem _ hu
        obtain ⟨hfault, hrest⟩ := tryTriggers_spec hpopped ht
          (fun tr htr => hsteady.built.of_mem_triggersFor htr) fresh
          (hcov.pop hsteady.built hagenda)
        rw [if_neg (by rw [hlimit]; exact Bool.false_ne_true),
          if_neg (by rw [hfault]; exact Bool.false_ne_true)]
        refine .inl ⟨_, _, rfl,
          hrest.imp (fun h => ⟨h.1, hdev.threshold ▸ h.2⟩) fun ⟨hg, hcov'⟩ => ?_⟩
        refine ⟨hdev.trans ?_, hg.exceeded.trans hlimit, hpopped.grows hg, hcov'⟩
        rw [← hdev.base]
        exact hg.toDevelops.of_agenda

theorem drain_spec {e₀ : Engine} {fuel fresh : Nat} {o : Outcome} (h : Underway d M e₀ e)
    (ho : e.drain fuel d fresh = some o) : o.fault = none ∧ Settled d M e₀ o.engine := by
  refine iterate_preserves (I := fun s => Underway d M e₀ s.1)
    (Q := fun o => o.fault = none ∧ Settled d M e₀ o.engine) ?_ ?_ h ho
  · intro ⟨e₁, fresh₁⟩ s hs hstep
    rcases drainStep_underway hs fresh₁ with ⟨e', fresh', heq, hnext⟩ | ⟨o, heq, -⟩
    · rw [hstep] at heq
      cases heq
      exact hnext
    · rw [hstep] at heq
      cases heq
  · intro ⟨e₁, fresh₁⟩ o hs hstep
    rcases drainStep_underway hs fresh₁ with ⟨e', fresh', heq, -⟩ | ⟨o', heq, hdone⟩
    · rw [hstep] at heq
      cases heq
    · rw [hstep] at heq
      cases heq
      exact hdone

/-! ## From the start -/

section Start

variable {b : RuleBase} {settings : ReasoningSettings} {installed : RuleSet}

theorem contains_new (d : Data) (t : Triple) :
    ((Engine.new b settings installed).sources d).contains t ↔
      t ∈ d.raw.triples ∨ t ∈ d.schema.triples := by
  rw [Sources.contains_iff]
  simp [Engine.sources, Engine.new, Store.empty]

structure Starts (b : RuleBase) (d : Data) (M : Triple → Prop) : Prop where
  base : b.Built
  guarded : ∀ r ∈ b.forward, r.Guarded
  raw : d.raw.Built
  schema : d.schema.Built
  model : IsModel (fun t => t ∈ d.raw.triples ∨ t ∈ d.schema.triples) (· ∈ b.forward) M

theorem Starts.steady_new (h : Starts b d M) : (Engine.new b settings installed).Steady d M where
  built := h.base
  closed := h.model.rules
  sources t ht := h.model.facts t ((contains_new d t).mp ht)
  stores := ⟨h.raw, h.schema, .empty⟩
  guarded := h.guarded
  agenda _ ht := absurd ht List.not_mem_nil

theorem covered_new (d : Data) : (Engine.new b settings installed).Covered d
    fun r τ => r ∈ b.unconditional ∨ HasPremise d.raw.triples r τ := by
  intro r hr τ _ happ
  by_cases hplain : r.rule.isAxiom
  · have hmem : r ∈ b.unconditional := List.mem_filter.mpr ⟨hr, hplain⟩
    exact .inr (.inr (.inr (.inl hmem)))
  · by_cases hraw : HasPremise d.raw.triples r τ
    · exact .inr (.inr (.inr (.inr hraw)))
    · have hschema : ∀ p, .pattern p ∈ r.body → p.mapVars (bySlot τ) ∈ d.schema.triples := by
        intro p hp
        rcases (contains_new d _).mp (happ.patterns p hp) with hin | hin
        · exact absurd ⟨p, hp, hin⟩ hraw
        · exact hin
      exact .inr (.inr (.inl ⟨by simpa using hplain, hschema, happ.calls⟩))

/-- The first pass misses nothing. -/
theorem Starts.run_spec (h : Starts b d M) {fuel fresh : Nat} {o : Outcome}
    (ho : (Engine.new b settings installed).run fuel d fresh = some o) :
    o.fault = none ∧ Settled d M (Engine.new b settings installed) o.engine := by
  have hsteady : (Engine.new b settings installed).Steady d M := h.steady_new
  let first := fireUnconditional d b.unconditional (Engine.new b settings installed) fresh
  have hspec : first.fault = none ∧ ((Engine.new b settings installed).Over first.engine ∨
      Grows d M (Installs b M) (Engine.new b settings installed) first.engine ∧
        first.engine.Covered d (HasPremise d.raw.triples)) :=
    fireUnconditional_spec hsteady (fun r hr => (List.mem_filter.mp hr).1) fresh (covered_new d)
  obtain ⟨hfault, hfirst⟩ := hspec
  have hunderway : Underway d M (Engine.new b settings installed)
      { first.engine with agenda := first.engine.agenda ++ d.raw.triples } := by
    refine hfirst.imp id fun ⟨hg, hcov⟩ => ?_
    have hnow := hsteady.grows hg
    refine ⟨hg.toDevelops.trans (Develops.of_agenda (.refl _)), hg.exceeded, ?_, ?_⟩
    · refine hnow.withAgenda fun t ht => ?_
      rcases List.mem_append.mp ht with ht | ht
      · exact hnow.agenda t ht
      · exact (Sources.contains_iff _ t).mpr (.inl ht)
    · intro r hr τ hτ happ
      rcases hcov r hr τ hτ happ with ⟨p, hp, hin⟩ | hdrawn | hschema | ⟨p, hp, hin⟩
      · exact .inl ⟨p, hp, List.mem_append_left _ hin⟩
      · exact .inr (.inl hdrawn)
      · exact .inr (.inr (.inl hschema))
      · exact .inl ⟨p, hp, List.mem_append_right _ hin⟩
  have hrun : (Engine.new b settings installed).run fuel d fresh = if first.fault.isSome then
      some first else drain { first.engine with agenda := first.engine.agenda ++ d.raw.triples }
        fuel d first.fresh := rfl
  rw [hrun, hfault, Option.isSome_none, if_neg Bool.false_ne_true] at ho
  exact drain_spec hunderway ho

end Start

end Engine

end TripleRules.Forward
