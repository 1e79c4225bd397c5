import TripleRules.Proofs.Forward.Trace
import TripleRules.Proofs.Forward.Upkeep
import TripleRules.Proofs.Rule.Nested
import TripleRules.Reasoner

/-!
# Reasoners

A reasoner is built from rules and may be bound to a schema.  Without a limit on firings, the schema
it hands on is closed under the forward rules with patterns, and everything that the schema installs
has been installed.
-/

namespace TripleRules

open Forward Forward.Engine

/-- The rules of a base, and the rules nested in their heads, call tests only, on variables that are
bound. -/
structure RuleBase.Guarded (b : RuleBase) : Prop where
  forward : ∀ c ∈ b.forward, c.Guarded
  nested : ∀ c ∈ b.forward, c.NestedGuarded b.known
  backward : ∀ c ∈ b.backward.rules, c.Guarded

theorem RuleBase.Guarded.installs {b : RuleBase} (hguard : b.Guarded) (hb : b.Built)
    {M : Triple → Prop} {c : CheckedRule} (h : Installs b M c) : c.Guarded := by
  obtain ⟨q, hq, τ, hτ, -, nested, hnested, hc⟩ := h
  exact (hguard.nested q hq).guarded (hb.consistent.forward q hq) hτ hnested hc

namespace SchemaClosure

structure Fits (s : SchemaClosure) (b : RuleBase) (runsForward : Bool) : Prop where
  graph : s.graph.Built
  built : s.installed.Built
  checks : s.installed.ChecksOut b.known
  guarded : ∀ c ∈ s.installed.rules, c.Guarded
  closed : runsForward → SchemaClosed b s.graph
  installs : runsForward → SchemaInstalled b s.graph s.installed

theorem not_applies_empty {b : RuleBase} (hb : b.Built) {r : CheckedRule} (hr : r ∈ b.forward)
    (hplain : r.rule.isAxiom = false) (σ : Variable → Term) :
    ¬ Applies (· ∈ Store.empty.triples) r.body σ := by
  intro happ
  have hnone : r.rule.isAxiom := by
    rw [(hb.consistent.forward r hr).isAxiom_iff]
    exact fun p hp => List.not_mem_nil (happ.patterns p hp)
  rw [hplain] at hnone
  cases hnone

theorem closed_empty {b : RuleBase} (hb : b.Built) : SchemaClosed b .empty :=
  fun _ hr hplain σ _ happ => absurd happ (not_applies_empty hb hr hplain σ)

theorem installed_empty {b : RuleBase} (hb : b.Built) (s : RuleSet) :
    SchemaInstalled b .empty s :=
  fun _ hr hplain τ _ happ => absurd happ (not_applies_empty hb hr hplain (bySlot τ))

theorem checksOut_empty (b : RuleBase) : RuleSet.empty.ChecksOut b.known :=
  fun _ hc => absurd hc List.not_mem_nil

theorem fits_empty {b : RuleBase} (hb : b.Built) (runsForward : Bool) :
    SchemaClosure.empty.Fits b runsForward where
  graph := .empty
  built := .empty
  checks := checksOut_empty b
  guarded _ hc := absurd hc List.not_mem_nil
  closed _ := closed_empty hb
  installs _ := installed_empty hb .empty

end SchemaClosure

namespace Reasoner

/-- A reasoner as it is built: from rules, and then bound to schemas. -/
inductive Built : Reasoner → Prop where
  | build {known : Registry} {rules : List Rule} {settings : ReasoningSettings} {r : Reasoner}
      (hrules : ∀ q ∈ rules, q.IsMade) (h : build known rules settings = .ok r) : Built r
  | bindSchema {r r' : Reasoner} (h : Built r) {fuel fresh fresh' : Nat} {schema : Store}
      (hschema : schema.Built) (hbind : r.bindSchema fuel schema fresh = some (.ok r', fresh')) :
      Built r'

variable {r r' : Reasoner}

theorem build_ok {known : Registry} {rules : List Rule} {settings : ReasoningSettings}
    (h : build known rules settings = .ok r) :
    ∃ b, RuleBase.ofRules known rules = .ok b ∧ r = ⟨b, settings, .empty⟩ := by
  rw [build] at h
  split at h
  · cases h
  · cases hbase : RuleBase.ofRules known rules with
    | error f =>
        rw [hbase] at h
        cases h
    | ok b =>
        rw [hbase] at h
        cases h
        exact ⟨b, rfl, rfl⟩

inductive BindsSchema (r : Reasoner) (fuel : Nat) (schema : Store) (fresh : Nat) :
    Except Fault Reasoner → Prop where
  | plain (hmode : r.settings.mode.runsForward = false) :
      BindsSchema r fuel schema fresh (.ok { r with schema := .plain schema })
  | worked (hmode : r.settings.mode.runsForward = true) {o : Outcome}
      (hrun : (Engine.new r.base r.settings .empty).run fuel ⟨schema, .empty⟩ fresh = some o)
      (hdone : o.fault = none) :
      BindsSchema r fuel schema fresh (.ok { r with schema := .ofEngine schema o.engine })
  | broken (hmode : r.settings.mode.runsForward = true) {o : Outcome}
      (hrun : (Engine.new r.base r.settings .empty).run fuel ⟨schema, .empty⟩ fresh = some o)
      {f : Fault} (hfault : o.fault = some f) : BindsSchema r fuel schema fresh (.error f)

theorem bindsSchema {fuel fresh fresh' : Nat} {schema : Store} {bound : Except Fault Reasoner}
    (h : r.bindSchema fuel schema fresh = some (bound, fresh')) :
    r.BindsSchema fuel schema fresh bound := by
  unfold bindSchema at h
  split at h
  · rename_i hmode
    rw [Option.map_eq_some_iff] at h
    obtain ⟨o, hrun, ho⟩ := h
    split at ho
    · rename_i f hfault
      cases ho
      exact .broken hmode hrun hfault
    · rename_i hdone
      cases ho
      exact .worked hmode hrun hdone
  · rename_i hmode
    cases h
    exact .plain (Bool.eq_false_iff.mpr hmode)

theorem bindSchema_keeps {fuel fresh fresh' : Nat} {schema : Store}
    (h : r.bindSchema fuel schema fresh = some (.ok r', fresh')) :
    r'.base = r.base ∧ r'.settings = r.settings := by
  cases bindsSchema h with
  | plain | worked => exact ⟨rfl, rfl⟩

def Derives (r : Reasoner) (facts : Triple → Prop) : Triple → Prop :=
  Entailed facts fun c => r.settings.mode.runsForward = true ∧ c ∈ r.base.forward

def InstallsFrom (r : Reasoner) (facts : Triple → Prop) (c : CheckedRule) : Prop :=
  r.settings.mode.runsForward = true ∧ Installs r.base (r.Derives facts) c

section Derives

variable {facts facts' : Triple → Prop}

theorem derives_iff (h : r.settings.mode.runsForward = true) (t : Triple) :
    r.Derives facts t ↔ Entailed facts (· ∈ r.base.forward) t :=
  Entailed.congr (fun _ => Iff.rfl) (fun _ => and_iff_right h) t

theorem derives_idle (h : r.settings.mode.runsForward = false) (t : Triple) :
    r.Derives facts t ↔ facts t := by
  refine Entailed.iff_facts (fun c hc => ?_) t
  rw [h] at hc
  exact Bool.false_ne_true hc.1

theorem derives_congr (h : ∀ t, facts t ↔ facts' t) (t : Triple) :
    r.Derives facts t ↔ r.Derives facts' t :=
  Entailed.congr h (fun _ => Iff.rfl) t

theorem installsFrom_congr (h : ∀ t, r.Derives facts t ↔ r.Derives facts' t) (c : CheckedRule) :
    r.InstallsFrom facts c ↔ r.InstallsFrom facts' c :=
  and_congr_right fun _ =>
    ⟨fun hc => hc.mono fun t => (h t).mp, fun hc => hc.mono fun t => (h t).mpr⟩

theorem InstallsFrom.mono {c : CheckedRule} (h : r.InstallsFrom facts c)
    (hfacts : ∀ t, facts t → facts' t) : r.InstallsFrom facts' c :=
  ⟨h.1, h.2.mono fun _ => Entailed.mono hfacts fun _ hc => hc⟩

end Derives

/-- A schema is handed on with just what follows from it. -/
structure Closes (r : Reasoner) (schema : Store) (s : SchemaClosure) : Prop where
  graph : s.graph.Built
  built : s.installed.Built
  mem_graph : ∀ t, t ∈ s.graph.triples ↔ r.Derives (· ∈ schema.triples) t
  mem_installed : ∀ c, c ∈ s.installed.rules ↔ r.InstallsFrom (· ∈ schema.triples) c

theorem closes_empty (h : r.settings.mode.runsForward = false) {schema : Store}
    (hschema : schema.Built) : r.Closes schema (.plain schema) where
  graph := hschema
  built := .empty
  mem_graph t := (derives_idle h t).symm
  mem_installed c := by
    refine ⟨fun hc => absurd hc List.not_mem_nil, fun hc => ?_⟩
    rw [InstallsFrom, h] at hc
    exact absurd hc.1 Bool.false_ne_true

/-- An engine that has done all its work on a schema has worked out just what follows from it. -/
theorem closes_ofEngine (hb : r.base.Built) (hforward : r.settings.mode.runsForward = true)
    {schema : Store} (hschema : schema.Built) {e : Engine}
    (hcur : Current r.base .empty ⟨schema, .empty⟩ e) :
    r.Closes schema (.ofEngine schema e) := by
  have hcontains := hcur.contains_iff (SchemaClosure.closed_empty hb)
  have hinstalled := hcur.mem_installed_iff (SchemaClosure.closed_empty hb)
    (SchemaClosure.installed_empty hb _) (SchemaClosure.checksOut_empty _)
  have hentails : ∀ t, Entails r.base ⟨schema, .empty⟩ t ↔ r.Derives (· ∈ schema.triples) t := by
    intro t
    rw [derives_iff hforward, Entails]
    exact Entailed.congr (fun u => by simp [Store.empty]) (fun _ => Iff.rfl) t
  refine ⟨hschema.insertAll hcur.steady.stores.deductions.consistent.ground, hcur.built,
    fun t => ?_, fun c => ?_⟩
  · rw [← hentails, ← hcontains, Sources.contains_iff]
    simp [SchemaClosure.ofEngine, Store.mem_insertAll, Engine.sources, Store.empty]
  · rw [InstallsFrom, and_iff_right hforward]
    refine (hinstalled c).trans ⟨fun hc => ?_, fun hc => .inr (hc.mono fun t => (hentails t).mpr)⟩
    rcases hc with hc | hc
    · cases hc
    · exact hc.mono fun t => (hentails t).mp

/-- Binding a schema without a limit on firings succeeds, if it ends. -/
theorem closes_bindSchema (hb : r.base.Built) (hguard : r.base.Guarded)
    (hunlimited : r.settings.ruleThreshold = 0) {fuel fresh fresh' : Nat} {schema : Store}
    (hschema : schema.Built) {bound : Except Fault Reasoner}
    (h : r.bindSchema fuel schema fresh = some (bound, fresh')) :
    ∃ s, bound = .ok { r with schema := s } ∧ r.Closes schema s := by
  have hstarts : Starts r.base ⟨schema, .empty⟩ (Entails r.base ⟨schema, .empty⟩) :=
    ⟨hb, hguard.forward, hschema, .empty, Entailed.isModel⟩
  cases bindsSchema h with
  | plain hforward => exact ⟨_, rfl, closes_empty hforward hschema⟩
  | broken _ hrun hfault =>
      rw [(current_of_run hstarts hunlimited .empty hrun).1] at hfault
      cases hfault
  | worked hforward hrun _ =>
      obtain ⟨-, hcur⟩ := current_of_run hstarts hunlimited .empty hrun
      exact ⟨_, rfl, closes_ofEngine hb hforward hschema hcur⟩

theorem Closes.fits {schema : Store} {s : SchemaClosure} (h : r.Closes schema s)
    (hb : r.base.Built) (hguard : r.base.Guarded) :
    s.Fits r.base r.settings.mode.runsForward where
  graph := h.graph
  built := h.built
  checks c hc := ((h.mem_installed c).mp hc).2.check
  guarded c hc := hguard.installs hb ((h.mem_installed c).mp hc).2
  closed hforward q hq _ σ hσ happ head hhead := by
    have happ' := happ.mono fun t ht => (h.mem_graph t).mp ht
    exact (h.mem_graph _).mpr (Entailed.isModel.rules q ⟨hforward, hq⟩ σ hσ happ' head hhead)
  installs hforward q hq _ τ hτ happ nested hnested c hc := by
    have happ' := happ.mono fun t ht => (h.mem_graph t).mp ht
    have hmem := (h.mem_installed c).mpr ⟨hforward, q, hq, τ, hτ, happ', nested, hnested, hc⟩
    rw [RuleSet.contains, List.any_eq_true]
    exact ⟨c, hmem, decide_eq_true rfl⟩

theorem Built.base (h : r.Built) : r.base.Built := by
  induction h with
  | build hrules h =>
      obtain ⟨b, hb, rfl⟩ := build_ok h
      exact RuleBase.built_ofRules hrules hb
  | bindSchema _ _ hbind ih =>
      rw [(bindSchema_keeps hbind).1]
      exact ih

theorem Built.schema_built (h : r.Built) :
    r.schema.graph.Built ∧ r.schema.installed.Built := by
  induction h with
  | build _ h =>
      obtain ⟨b, -, rfl⟩ := build_ok h
      exact ⟨.empty, .empty⟩
  | bindSchema _ hschema hbind =>
      cases bindsSchema hbind with
      | plain => exact ⟨hschema, .empty⟩
      | worked _ hrun _ =>
          have hgrown := (leadsTo_call (c := .run) hrun).grown
          obtain ⟨hdeductions, hinstalled⟩ := hgrown.built .empty .empty
          exact ⟨hschema.insertAll hdeductions.consistent.ground, hinstalled⟩

theorem Built.fits (h : r.Built) (hguard : r.base.Guarded)
    (hunlimited : r.settings.ruleThreshold = 0) :
    r.schema.Fits r.base r.settings.mode.runsForward := by
  have hb := h.base
  cases h with
  | build hrules h =>
      obtain ⟨b, -, rfl⟩ := build_ok h
      exact SchemaClosure.fits_empty hb _
  | bindSchema h hschema hbind =>
      obtain ⟨hbase, hsettings⟩ := bindSchema_keeps hbind
      rw [hbase] at hguard hb
      rw [hsettings] at hunlimited
      rw [hbase, hsettings]
      obtain ⟨s, heq, hcloses⟩ := closes_bindSchema hb hguard hunlimited hschema hbind
      cases heq
      exact hcloses.fits hb hguard

def withoutSchema (r : Reasoner) : Reasoner := { r with schema := .empty }

theorem Built.withoutSchema (h : r.Built) : r.withoutSchema.Built := by
  induction h with
  | build hrules h =>
      obtain ⟨b, -, rfl⟩ := build_ok h
      exact .build hrules h
  | bindSchema _ _ hbind ih =>
      obtain ⟨hbase, hsettings⟩ := bindSchema_keeps hbind
      rw [Reasoner.withoutSchema, hbase, hsettings]
      exact ih

end Reasoner

end TripleRules
