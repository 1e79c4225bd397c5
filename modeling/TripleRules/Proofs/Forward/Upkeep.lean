import TripleRules.Proofs.Forward.LeastFixpoint

/-!
# Upkeep

An engine without a limit that has worked off its agenda is up to date: it holds what follows from
the data, and it has installed what the data install.  It stays so when a triple is added, whether
that triple was deduced before, lies in the schema or is new.
-/

namespace TripleRules.Forward

namespace Engine

def Entails (b : RuleBase) (d : Data) : Triple → Prop :=
  Entailed (fun t => t ∈ d.raw.triples ∨ t ∈ d.schema.triples) (· ∈ b.forward)

/-- An engine without a limit has done all its work on the data, from rules installed beforehand. -/
structure Current (b : RuleBase) (installed : RuleSet) (d : Data) (e : Engine) : Prop where
  base : e.base = b
  unlimited : e.threshold = 0
  limit : e.stats.thresholdExceeded = false
  agenda : e.agenda = []
  steady : e.Steady d (Entails b d)
  saturated : e.Saturated d
  kept : ∀ c ∈ installed.rules, c ∈ e.installed.rules
  added : ∀ c ∈ e.installed.rules, c ∈ installed.rules ∨ Installs b (Entails b d) c
  built : e.installed.Built

variable {b : RuleBase} {installed : RuleSet} {d d' : Data} {e e' : Engine}

theorem Installs.mono {M M' : Triple → Prop} {c : CheckedRule} (h : Installs b M c)
    (hM : ∀ t, M t → M' t) : Installs b M' c := by
  obtain ⟨r, hr, τ, hτ, happ, q, hq, hc⟩ := h
  exact ⟨r, hr, τ, hτ, happ.mono hM, q, hq, hc⟩

/-- Chaining that ends brings an engine without a limit up to date. -/
theorem Settled.current (h : Settled d (Entails b d) e e') (hbase : e.base = b)
    (hunlimited : e.threshold = 0) (hlimit : e.stats.thresholdExceeded = false)
    (hkept : ∀ c ∈ installed.rules, c ∈ e.installed.rules)
    (hadded : ∀ c ∈ e.installed.rules, c ∈ installed.rules ∨ Installs b (Entails b d) c)
    (hbuilt : e.installed.Built) : Current b installed d e' := by
  rcases h with hover | ⟨hdev, hagenda, hsteady, hsat⟩
  · have hpos : 0 < e.threshold := hover.2
    omega
  · rw [hbase] at hdev
    refine ⟨hdev.base.trans hbase, hdev.threshold.trans hunlimited, hdev.exceeded.trans hlimit,
      hagenda, hsteady, hsat, fun c hc => hdev.installed c (hkept c hc), fun c hc => ?_,
      hdev.builtInstalled hbuilt⟩
    rcases hdev.added c hc with hc | hc
    · exact hadded c hc
    · exact .inr hc

theorem current_of_run {settings : ReasoningSettings} (hstarts : Starts b d (Entails b d))
    (hunlimited : settings.ruleThreshold = 0) (hbuilt : installed.Built) {fuel fresh : Nat}
    {o : Outcome} (ho : (Engine.new b settings installed).run fuel d fresh = some o) :
    o.fault = none ∧ Current b installed d o.engine := by
  obtain ⟨hfault, hsettled⟩ := hstarts.run_spec ho
  exact ⟨hfault, hsettled.current rfl hunlimited rfl (fun _ hc => hc) (fun _ hc => .inl hc) hbuilt⟩

/-! ## Adding a triple -/

structure Enlarges (d d' : Data) (t : Triple) : Prop where
  raw : ∀ u, u ∈ d'.raw.triples ↔ u ∈ d.raw.triples ∨ u = t
  schema : d'.schema = d.schema
  built : d'.raw.Built

theorem Enlarges.contains_iff {t : Triple} (h : Enlarges d d' t) (u : Triple) :
    (e.sources d').contains u ↔ (e.sources d).contains u ∨ u = t := by
  rw [Sources.contains_iff, Sources.contains_iff]
  simp only [Engine.sources, h.raw, h.schema]
  tauto

theorem Enlarges.entails {t u : Triple} (h : Enlarges d d' t) (hu : Entails b d u) :
    Entails b d' u := by
  refine Entailed.mono (fun x hx => ?_) (fun _ hr => hr) hu
  rw [h.raw, h.schema]
  exact hx.imp_left .inl

theorem Enlarges.entails_self {t : Triple} (h : Enlarges d d' t) : Entails b d' t :=
  .fact (.inl ((h.raw t).mpr (.inr rfl)))

theorem Drawn.enlarge {t : Triple} (h : Enlarges d d' t) {r : CheckedRule} {env : Bindings}
    (hr : e.Drawn d r env) : e.Drawn d' r env := by
  intro c hc
  have hconcluded := hr c hc
  cases c with
  | pattern p => exact (h.contains_iff _).mpr (.inl hconcluded)
  | rule q => exact hconcluded

theorem Current.steady_enlarge {t : Triple} (hcur : Current b installed d e)
    (h : Enlarges d d' t) : e.Steady d' (Entails b d') := by
  have hsteady := hcur.steady
  refine ⟨⟨hsteady.built, ?_, fun u hu => ?_⟩, ⟨h.built, ?_, hsteady.stores.deductions⟩,
    hsteady.guarded, fun u hu => ?_⟩
  · rw [hcur.base]
    exact Entailed.isModel.rules
  · rcases (h.contains_iff u).mp hu with hu | rfl
    · exact h.entails (hsteady.sources u hu)
    · exact h.entails_self
  · rw [Engine.sources, h.schema]
    exact hsteady.stores.schema
  · rw [hcur.agenda] at hu
    cases hu

theorem Current.covered_enlarge {t : Triple} (hcur : Current b installed d e)
    (h : Enlarges d d' t) : Covered { e with agenda := [t] } d' fun _ _ => False := by
  intro r hr τ hτ happ
  by_cases hnew : HasPremise [t] r τ
  · exact .inl hnew
  · have hold : Applies ((e.sources d).contains ·) r.body (bySlot τ) := by
      refine ⟨fun p hp => ?_, happ.calls⟩
      rcases (h.contains_iff _).mp (happ.patterns p hp) with hin | heq
      · exact hin
      · exact absurd ⟨p, hp, by rw [heq]; exact List.mem_singleton_self t⟩ hnew
    rcases hcur.saturated r hr τ hτ hold with hdrawn | hschema
    · exact .inr (.inl (hdrawn.enlarge h))
    · rw [FromSchema, ← h.schema] at hschema
      exact .inr (.inr (.inl hschema))

theorem Current.saturated_enlarge {t : Triple} (hcur : Current b installed d e)
    (h : Enlarges d d' t) (ht : t ∈ e.deductions.triples) : e.Saturated d' := by
  intro r hr τ hτ happ
  have hold : Applies ((e.sources d).contains ·) r.body (bySlot τ) := by
    refine happ.mono fun u hu => ?_
    rcases (h.contains_iff u).mp hu with hu | rfl
    · exact hu
    · exact (Sources.contains_iff _ u).mpr (.inr (.inr ht))
  rcases hcur.saturated r hr τ hτ hold with hdrawn | hschema
  · exact .inl (hdrawn.enlarge h)
  · rw [FromSchema, ← h.schema] at hschema
    exact .inr hschema

/-- An engine that is up to date stays so when a triple is added. -/
theorem Current.addTriple {t : Triple} (hcur : Current b installed d e) (h : Enlarges d d' t)
    {fuel fresh : Nat} {o : Outcome} (ho : e.addTriple fuel d' t fresh = some o) :
    o.fault = none ∧ Current b installed d' o.engine := by
  have hsteady := hcur.steady_enlarge h
  have hadded : ∀ c ∈ e.installed.rules, c ∈ installed.rules ∨ Installs b (Entails b d') c :=
    fun c hc => (hcur.added c hc).imp_right fun hc => hc.mono fun _ => h.entails
  rw [Engine.addTriple] at ho
  split at ho
  · rename_i hded
    cases ho
    rw [Store.contains_iff] at hded
    exact ⟨rfl, hcur.base, hcur.unlimited, hcur.limit, hcur.agenda, hsteady,
      hcur.saturated_enlarge h hded, hcur.kept, hadded, hcur.built⟩
  · have hpushed : Steady { e with agenda := [t] } d' (Entails b d') := by
      refine hsteady.withAgenda fun u hu => ?_
      rw [List.mem_singleton] at hu
      exact (h.contains_iff u).mpr (.inr hu)
    have hunderway : Underway d' (Entails b d') e { e with agenda := [t] } :=
      .inr ⟨.of_agenda (.refl _), hcur.limit, hpushed, hcur.covered_enlarge h⟩
    rw [hcur.agenda, List.nil_append] at ho
    obtain ⟨hfault, hsettled⟩ := drain_spec hunderway ho
    exact ⟨hfault, hsettled.current hcur.base hcur.unlimited hcur.limit hcur.kept hadded hcur.built⟩

/-! ## What an engine holds that is up to date -/

theorem Current.contains_iff (hcur : Current b installed d e) (hschema : SchemaClosed b d.schema)
    (t : Triple) : (e.sources d).contains t ↔ Entails b d t := by
  have hsteady := hcur.steady
  rw [Entails, ← hcur.base] at hsteady
  rw [← hcur.base] at hschema
  rw [hcur.saturated.contains_iff hsteady hschema, Entails, hcur.base]

theorem Installs.check {M : Triple → Prop} {c : CheckedRule} (h : Installs b M c) :
    c.rule.check b.known = .ok c := by
  obtain ⟨r, -, τ, -, -, q, -, hc⟩ := h
  rwa [(Rule.check_ok hc).2.2]

theorem Current.checksOut (hcur : Current b installed d e) (h : installed.ChecksOut b.known) :
    e.installed.ChecksOut b.known := by
  intro c hc
  rcases hcur.added c hc with hc | hc
  · exact h c hc
  · exact hc.check

def SchemaInstalled (b : RuleBase) (schema : Store) (installed : RuleSet) : Prop :=
  ∀ r ∈ b.forward, r.rule.isAxiom = false → ∀ τ : Nat → Term, (∀ i, (τ i).isGround) →
    Applies (· ∈ schema.triples) r.body (bySlot τ) → ∀ q, .rule q ∈ r.rule.head →
      ∀ c, (q.specialize (r.bindings τ)).check b.known = .ok c → installed.contains c.rule

/-- The rules that are installed are those installed beforehand and those that the data install. -/
theorem Current.mem_installed_iff (hcur : Current b installed d e)
    (hschema : SchemaClosed b d.schema) (hinstalled : SchemaInstalled b d.schema installed)
    (hchecks : installed.ChecksOut b.known) (c : CheckedRule) :
    c ∈ e.installed.rules ↔ c ∈ installed.rules ∨ Installs b (Entails b d) c := by
  refine ⟨hcur.added c, fun h => ?_⟩
  rcases h with hc | hc
  · exact hcur.kept c hc
  · have hcheck := hc.check
    obtain ⟨r, hr, τ, hτ, happ, q, hq, hspec⟩ := hc
    have hsources : Applies ((e.sources d).contains ·) r.body (bySlot τ) :=
      happ.mono fun u hu => (hcur.contains_iff hschema u).mpr hu
    have hbase : r ∈ e.base.forward := by rwa [hcur.base]
    rcases hcur.saturated r hbase τ hτ hsources with hdrawn | ⟨hplain, hwithin⟩
    · have hcontains : e.installed.contains c.rule :=
        hdrawn (.rule q) hq c (by rw [hcur.base]; exact hspec)
      exact (hcur.checksOut hchecks).mem_of_contains hcheck hcontains
    · have hcontains := hinstalled r hr hplain τ hτ hwithin q hq c hspec
      exact hcur.kept c (hchecks.mem_of_contains hcheck hcontains)

end Engine

end TripleRules.Forward
