import TripleRules.Proofs.Forward.Saturation

/-!
# The least fixpoint

When chaining ends below its limit, the sources and the deductions together are the least set of
triples that holds the sources and is closed under the forward rules.  The schema is not pushed, so
it has to be closed under the rules with patterns beforehand.
-/

namespace TripleRules.Forward

namespace Engine

variable {d : Data} {M : Triple → Prop} {e : Engine}

/-- A closed schema gives what its own instances conclude. -/
def SchemaClosed (b : RuleBase) (schema : Store) : Prop :=
  ∀ r ∈ b.forward, r.rule.isAxiom = false → ClosedUnder (· ∈ schema.triples) r

/-- A saturated engine over a closed schema has the conclusions of every instance. -/
theorem Saturated.closedUnder (h : e.Saturated d) (hsteady : e.Steady d M)
    (hschema : SchemaClosed e.base d.schema) {r : CheckedRule} (hr : r ∈ e.base.forward) :
    ClosedUnder ((e.sources d).contains ·) r := by
  have hchecked : r.IsChecked := hsteady.built.consistent.forward r hr
  refine .of_bySlot hchecked fun τ hτ happ head hhead => ?_
  rcases h r hr τ hτ happ with hdrawn | ⟨hpatterns, happ⟩
  · have hcontains := hdrawn (.pattern head) hhead
    rwa [Concluded, CheckedRule.instantiate_bindings hchecked fun v hv =>
      hchecked.mem_vars_of_head hhead hv] at hcontains
  · have hin := hschema r hr hpatterns _ (isGrounding_bySlot hτ) happ head hhead
    exact (Sources.contains_iff _ _).mpr (.inr (.inl hin))

/-- A saturated engine that stays within the least model has reached it. -/
theorem Saturated.contains_iff (h : e.Saturated d)
    (hsteady : e.Steady d (Entailed (fun t => t ∈ d.raw.triples ∨ t ∈ d.schema.triples)
      (· ∈ e.base.forward)))
    (hschema : SchemaClosed e.base d.schema) (t : Triple) :
    (e.sources d).contains t ↔
      Entailed (fun t => t ∈ d.raw.triples ∨ t ∈ d.schema.triples) (· ∈ e.base.forward) t := by
  have hmodel : IsModel (fun t => t ∈ d.raw.triples ∨ t ∈ d.schema.triples)
      (· ∈ e.base.forward) ((e.sources d).contains ·) :=
    ⟨fun u hu => (Sources.contains_iff _ u).mpr (hu.imp_right .inl),
      fun r hr => h.closedUnder hsteady hschema hr⟩
  exact ⟨hsteady.sources t, Entailed.mem_of_isModel hmodel⟩

section Run

variable {b : RuleBase} {settings : ReasoningSettings} {installed : RuleSet}

structure Complete (b : RuleBase) (d : Data) (e : Engine) : Prop where
  contains_iff : ∀ t, (e.sources d).contains t ↔
    Entailed (fun t => t ∈ d.raw.triples ∨ t ∈ d.schema.triples) (· ∈ b.forward) t
  built : e.deductions.Built
  apart : ∀ t ∈ e.deductions.triples, t ∉ d.raw.triples ∧ t ∉ d.schema.triples

/-- The first pass ends without a fault and reaches the least model, or meets the limit. -/
theorem run_complete (hb : b.Built) (hguard : ∀ r ∈ b.forward, r.Guarded) (hraw : d.raw.Built)
    (hbuilt : d.schema.Built) (hschema : SchemaClosed b d.schema) {fuel fresh : Nat} {o : Outcome}
    (ho : (Engine.new b settings installed).run fuel d fresh = some o)
    (hlimit : o.engine.stats.thresholdExceeded = false) :
    o.fault = none ∧ Complete b d o.engine := by
  have hstarts : Starts b d
      (Entailed (fun t => t ∈ d.raw.triples ∨ t ∈ d.schema.triples) (· ∈ b.forward)) :=
    ⟨hb, hguard, hraw, hbuilt, Entailed.isModel⟩
  obtain ⟨hfault, hover | ⟨hdev, -, hsteady, hsat⟩⟩ := hstarts.run_spec ho
  · rw [hover.1] at hlimit
    cases hlimit
  · have hbase : o.engine.base = b := hdev.base
    refine ⟨hfault, ?_, hsteady.stores.deductions, fun t ht => ?_⟩
    · rw [← hbase] at hsteady hschema ⊢
      exact hsat.contains_iff hsteady hschema
    · exact ((hdev.deduced t ht).resolve_left List.not_mem_nil).2

/-- Forward chaining computes the least fixpoint.  If it ends below its limit, there was no fault;
the sources and the deductions are the least set of ground triples that holds the sources and is
closed under all forward rules; and the deductions are new triples, each of them once.  The order in
which triples were asserted makes no difference. -/
theorem run_isLeast (hb : b.Built) (hguard : ∀ r ∈ b.forward, r.Guarded) (hraw : d.raw.Built)
    (hbuilt : d.schema.Built) (hschema : SchemaClosed b d.schema) {fuel fresh : Nat} {o : Outcome}
    (ho : (Engine.new b settings installed).run fuel d fresh = some o)
    (hlimit : o.engine.stats.thresholdExceeded = false) :
    o.fault = none ∧
      IsLeast {M : Triple → Prop | (∀ t, M t → t.isGround) ∧
          IsModel (fun t => t ∈ d.raw.triples ∨ t ∈ d.schema.triples) (· ∈ b.forward) M}
        (fun t => (o.engine.sources d).contains t) ∧
      (∀ t ∈ o.engine.deductions.triples, t ∉ d.raw.triples ∧ t ∉ d.schema.triples) ∧
      o.engine.deductions.triples.Nodup ∧
      ∀ raw : Store, raw.Built → (∀ t, t ∈ raw.triples ↔ t ∈ d.raw.triples) →
        ∀ (fuel' fresh' : Nat) (o' : Outcome),
          (Engine.new b settings installed).run fuel' ⟨raw, d.schema⟩ fresh' = some o' →
          o'.engine.stats.thresholdExceeded = false →
            ∀ t, (t ∈ o'.engine.deductions.triples ↔ t ∈ o.engine.deductions.triples) ∧
              ((o'.engine.sources ⟨raw, d.schema⟩).contains t ↔
                (o.engine.sources d).contains t) := by
  obtain ⟨hfault, hcomplete⟩ := run_complete hb hguard hraw hbuilt hschema ho hlimit
  have hsources : (o.engine.sources d).Built := ⟨hraw, hbuilt, hcomplete.built⟩
  refine ⟨hfault, ⟨⟨fun t ht => hsources.isGround ht, ?_⟩, ?_⟩, hcomplete.apart,
    hcomplete.built.consistent.nodup, ?_⟩
  · have heq : (fun t => ((o.engine.sources d).contains t : Prop)) =
        Entailed (fun t => t ∈ d.raw.triples ∨ t ∈ d.schema.triples) (· ∈ b.forward) :=
      funext fun t => propext (hcomplete.contains_iff t)
    rw [heq]
    exact Entailed.isModel
  · rintro M ⟨-, hM⟩ t ht
    exact Entailed.mem_of_isModel hM ((hcomplete.contains_iff t).mp ht)
  · intro raw hraw' hsame fuel' fresh' o' ho' hlimit' t
    have hcomplete' :=
      (run_complete (d := ⟨raw, d.schema⟩) hb hguard hraw' hbuilt hschema ho' hlimit').2
    have hcontains : (o'.engine.sources ⟨raw, d.schema⟩).contains t ↔
        (o.engine.sources d).contains t := by
      rw [hcomplete.contains_iff, hcomplete'.contains_iff]
      exact Entailed.congr (fun u => or_congr_left (hsame u)) (fun _ => Iff.rfl) t
    refine ⟨?_, hcontains⟩
    have hapart := hcomplete.apart t
    have hapart' := hcomplete'.apart t
    rw [Sources.contains_iff, Sources.contains_iff] at hcontains
    simp only [Engine.sources, hsame] at hcontains hapart'
    tauto

end Run

/-! ## An instance -/

def beforeBase : RuleBase := (RuleBase.empty .standard).add .before

theorem built_beforeBase : beforeBase.Built :=
  .add (.empty .standard) CheckedRule.isMade_beforeRule CheckedRule.check_beforeRule

def circleData : Data where
  raw := .ofList [⟨.iri "a", .iri "before", .iri "b"⟩, ⟨.iri "b", .iri "before", .iri "c"⟩]
  schema := .ofList [⟨.iri "c", .iri "before", .iri "a"⟩]

theorem schemaClosed_circleData : SchemaClosed beforeBase circleData.schema := by
  intro r hr _ σ _ happ
  obtain rfl : r = .before := List.mem_singleton.mp hr
  have hfirst := happ.patterns _ List.mem_cons_self
  have hsecond := happ.patterns _ (List.mem_cons_of_mem _ List.mem_cons_self)
  have hobject := congrArg Triple.object (List.mem_singleton.mp hfirst)
  have hsubject := congrArg Triple.subject (List.mem_singleton.mp hsecond)
  simp only [Triple.mapVars, Term.mapVars] at hobject hsubject
  rw [hobject] at hsubject
  exact absurd hsubject (by decide)

theorem circleData_isLeast : ∃ o, (Engine.new beforeBase {} .empty).run 100 circleData 0 = some o ∧
    o.engine.deductions.size = 3 ∧
      IsLeast {M : Triple → Prop | (∀ t, M t → t.isGround) ∧
          IsModel (fun t => t ∈ circleData.raw.triples ∨ t ∈ circleData.schema.triples)
            (· ∈ beforeBase.forward) M}
        (fun t => (o.engine.sources circleData).contains t) := by
  have hrun : ((Engine.new beforeBase {} .empty).run 100 circleData 0).any fun o =>
      !o.engine.stats.thresholdExceeded && o.engine.deductions.size == 3 := by
    decide +kernel
  rw [Option.any_eq_true] at hrun
  obtain ⟨o, ho, hrun⟩ := hrun
  rw [Bool.and_eq_true, Bool.not_eq_true', beq_iff_eq] at hrun
  have hguard : ∀ r ∈ beforeBase.forward, r.Guarded := by
    intro r hr
    obtain rfl : r = .before := List.mem_singleton.mp hr
    exact CheckedRule.guarded_before
  exact ⟨o, ho, hrun.2, (run_isLeast built_beforeBase hguard (Store.built_ofList (by decide))
    (Store.built_ofList (by decide)) schemaClosed_circleData ho hrun.1).2.1⟩

end Engine

end TripleRules.Forward
