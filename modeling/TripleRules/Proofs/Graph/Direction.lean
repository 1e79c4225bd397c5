import TripleRules.Proofs.Graph.Schema
import TripleRules.Proofs.Rule.Direction

/-!
# Directions and modes

Chaining forward from the data and proving goals backward come to the same answers.  If some engine
runs the rules at all, the answers are the instances of the pattern in the least model of rules and
facts, whether the engine has derived them beforehand, proves them on demand, or both engines share
the work.
-/

namespace TripleRules

open Forward Forward.Engine

variable {known : Registry} {rules : List Rule}

def CheckedFrom (known : Registry) (rules : List Rule) (c : CheckedRule) : Prop :=
  ∃ q ∈ rules, q.check known = .ok c

theorem Rule.IsPlain.guarded_check {q : Rule} (h : q.IsPlain known) {c : CheckedRule}
    (hc : q.check known = .ok c) : c.Guarded :=
  h.guarded.guarded hc h.tests

namespace RuleBase

variable {b : RuleBase}

theorem Gathers.guarded (h : b.Gathers known rules) (hplain : ∀ q ∈ rules, q.IsPlain known) :
    b.Guarded := by
  refine ⟨fun c hc => ?_, fun c hc nested hnested => ?_, fun c hc => ?_⟩
  · obtain ⟨q, hq, hcheck⟩ := ((h.mem_forward c).mp hc).2
    exact (hplain q hq).guarded_check hcheck
  · obtain ⟨q, hq, hcheck⟩ := ((h.mem_forward c).mp hc).2
    rw [(Rule.check_ok hcheck).2.2] at hnested
    exact absurd hnested ((hplain q hq).not_nested nested)
  · obtain ⟨q, hq, hcheck⟩ := ((h.mem_backward c).mp hc).2
    exact (hplain q hq).guarded_check hcheck

theorem Gathers.not_installs (h : b.Gathers known rules) (hplain : ∀ q ∈ rules, q.IsPlain known)
    {M : Triple → Prop} {c : CheckedRule} : ¬ Installs b M c := by
  rintro ⟨r, hr, -, -, -, nested, hnested, -⟩
  obtain ⟨q, hq, hcheck⟩ := ((h.mem_forward r).mp hr).2
  rw [(Rule.check_ok hcheck).2.2] at hnested
  exact (hplain q hq).not_nested nested hnested

end RuleBase

namespace InferenceGraph

open RuleBase

variable {g : InferenceGraph} {r : Reasoner} {facts : Triple → Prop}

/-- Goals are proved from nothing that does not follow from the facts by the rules. -/
theorem StandsFor.entailed_of_entails (h : g.StandsFor r facts) (hbase : r.base.Gathers known rules)
    (hplain : ∀ q ∈ rules, q.IsPlain known) {t : Triple} (ht : g.context.Entails t) :
    Entailed facts (CheckedFrom known rules) t := by
  refine Entailed.mem_of_isModel ⟨fun u hu => ?_, fun c hc => Entailed.isModel.rules c ?_⟩ ht
  · exact Entailed.mono (fun _ hx => hx) (fun c hc => ((hbase.mem_forward c).mp hc.2).2)
      ((h.contains_iff u).mp hu)
  · rcases hc with ⟨s, hs, hc⟩ | hc
    · simp only [InferenceGraph.context, InferenceGraph.rules, h.base] at hs
      split at hs
      · cases hs
        exact ((hbase.mem_backward c).mp hc).2
      · cases hs
    · have hinstalls := (h.mem_installed_iff c).mp hc
      exact absurd hinstalls.2 (hbase.not_installs hplain)

/-- Whichever engine runs the rules, nothing that follows from the facts is missed. -/
theorem StandsFor.entails_of_entailed (h : g.StandsFor r facts) (hbase : r.base.Gathers known rules)
    {d : Direction} (hdir : ∀ q ∈ rules, q.direction = d) (hruns : d.RunsIn r.settings.mode)
    {t : Triple} (ht : Entailed facts (CheckedFrom known rules) t) : g.context.Entails t := by
  have hdirection : ∀ c, CheckedFrom known rules c → c.rule.direction = d := by
    rintro c ⟨q, hq, hcheck⟩
    rw [(Rule.check_ok hcheck).2.2]
    exact hdir q hq
  rcases hruns with ⟨hforward, hmode⟩ | ⟨hback, hmode⟩
  · -- The forward engine has derived all of it.
    refine .fact ((h.contains_iff t).mpr (Entailed.mono (fun _ hx => hx) (fun c hc => ?_) ht))
    refine ⟨hmode, (hbase.mem_forward c).mpr ⟨?_, hc⟩⟩
    rw [hdirection c hc]
    exact hforward
  · -- Every rule is there when goals are proved.
    refine Entailed.mono (fun u hu => (h.contains_iff u).mpr (.fact hu)) (fun c hc => ?_) ht
    refine .inl ⟨r.base.backward, ?_, (hbase.mem_backward c).mpr ⟨?_, hc⟩⟩
    · simp [InferenceGraph.context, InferenceGraph.rules, h.base, h.settings, hmode]
    · rw [hdirection c hc]
      exact hback

end InferenceGraph

namespace Reasoner

theorem fair_build (hplain : ∀ q ∈ rules, q.IsPlain known) {settings : ReasoningSettings}
    (hunlimited : settings.ruleThreshold = 0) {r : Reasoner}
    (h : build known rules settings = .ok r) :
    r.Fair ∧ r.settings = settings ∧ r.base.Gathers known rules := by
  have hbuilt : r.Built := .build (fun q hq => (hplain q hq).made) h
  obtain ⟨b, hb, rfl⟩ := build_ok h
  have hgathers := RuleBase.gathers_ofRules hb
  exact ⟨⟨hbuilt, hgathers.guarded hplain, hunlimited⟩, rfl, hgathers⟩

theorem exists_build {settings : ReasoningSettings} (hflaw : settings.flaw? = none)
    (hchecks : ∀ q ∈ rules, ∃ c, q.check known = .ok c) :
    ∃ r, build known rules settings = .ok r := by
  obtain ⟨b, hb⟩ := RuleBase.exists_ofRules hchecks
  exact ⟨⟨b, settings, .empty⟩, by rw [build, hflaw, hb]; rfl⟩

end Reasoner

namespace InferenceGraph

open RuleBase

/-- What follows from rules follows from them in any other direction. -/
theorem entailed_withDirection (hplain : ∀ q ∈ rules, q.IsPlain known) {facts : Triple → Prop}
    {d : Direction} (d' : Direction) {t : Triple}
    (ht : Entailed facts (CheckedFrom known (rules.map (·.withDirection d))) t) :
    Entailed facts (CheckedFrom known (rules.map (·.withDirection d'))) t := by
  refine Entailed.of_sameRules (fun _ hu => hu) (fun c hc => ?_) ht
  obtain ⟨q', hq', hcheck⟩ := hc
  obtain ⟨q, hq, rfl⟩ := List.mem_map.mp hq'
  have hcheck' := Rule.check_withDirection ((hplain q hq).withDirection d).head hcheck d'
  rw [Rule.withDirection_withDirection] at hcheck'
  refine ⟨_, ⟨_, List.mem_map_of_mem hq, hcheck'⟩, rfl, ?_⟩
  rw [(Rule.check_ok hcheck).2.2, Rule.head_withDirection, Rule.head_withDirection]

/-- Both engines come to the same answers.  Rules that can be built in one direction can be built in
any other.  Whichever direction they are given, and in every mode that runs them in it, binding a
schema, if there is one, and data succeeds if it ends, and every query brings the same answers. -/
theorem same_answers_in_every_direction (hplain : ∀ q ∈ rules, q.IsPlain known) {d d' : Direction}
    {s s' : ReasoningSettings} (hunlimited : s.ruleThreshold = 0) (hruns : d.RunsIn s.mode)
    (hunlimited' : s'.ruleThreshold = 0) (hruns' : d'.RunsIn s'.mode) (hflaw : s'.flaw? = none)
    {r : Reasoner} (hbuild : Reasoner.build known (rules.map (·.withDirection d)) s = .ok r) :
    ∃ r', Reasoner.build known (rules.map (·.withDirection d')) s' = .ok r' ∧
      ∀ (schema? : Option Store) (data : Store), (∀ s ∈ schema?, s.Built) → data.Built →
        ∀ (fuel fresh n fuel' fresh' n' : Nat) (bound bound' : Except Fault InferenceGraph),
          r.bindOver fuel schema? data fresh = some (bound, n) →
          r'.bindOver fuel' schema? data fresh' = some (bound', n') →
            ∃ g g', bound = .ok g ∧ bound' = .ok g' ∧ g.SameAnswers g' := by
  have hturned : ∀ d, ∀ q ∈ rules.map (·.withDirection d), q.IsPlain known ∧ q.direction = d := by
    intro d q' hq'
    obtain ⟨q, hq, rfl⟩ := List.mem_map.mp hq'
    exact ⟨(hplain q hq).withDirection d, Rule.direction_withDirection q d⟩
  obtain ⟨hr, rfl, hgathers⟩ :=
    Reasoner.fair_build (fun q hq => (hturned d q hq).1) hunlimited hbuild
  have hchecks : ∀ q ∈ rules.map (·.withDirection d'), ∃ c, q.check known = .ok c := by
    intro q' hq'
    obtain ⟨q, hq, rfl⟩ := List.mem_map.mp hq'
    obtain ⟨c, hc⟩ := hgathers.checks _ (List.mem_map_of_mem hq)
    have hcheck := Rule.check_withDirection ((hplain q hq).withDirection d).head hc d'
    rw [Rule.withDirection_withDirection] at hcheck
    exact ⟨_, hcheck⟩
  obtain ⟨r', hbuild'⟩ := Reasoner.exists_build hflaw hchecks
  obtain ⟨hr', rfl, hgathers'⟩ :=
    Reasoner.fair_build (fun q hq => (hturned d' q hq).1) hunlimited' hbuild'
  refine ⟨r', hbuild', ?_⟩
  intro schema? data hschema hdata fuel fresh n fuel' fresh' n' bound bound' hbind hbind'
  obtain ⟨g, rfl, hg⟩ := standsFor_bindOver hr hschema hdata hbind
  obtain ⟨g', rfl, hg'⟩ := standsFor_bindOver hr' hschema hdata hbind'
  refine ⟨g, g', rfl, rfl, hg.sameAnswers hg' fun t => ⟨fun ht => ?_, fun ht => ?_⟩⟩
  · have hfollows := hg.entailed_of_entails hgathers (fun q hq => (hturned d q hq).1) ht
    exact hg'.entails_of_entailed hgathers' (fun q hq => (hturned d' q hq).2) hruns'
      (entailed_withDirection hplain d' hfollows)
  · have hfollows := hg'.entailed_of_entails hgathers' (fun q hq => (hturned d' q hq).1) ht
    exact hg.entails_of_entailed hgathers (fun q hq => (hturned d q hq).2) hruns
      (entailed_withDirection hplain d hfollows)

/-! ## An instance -/

theorem body_beforeRule : CheckedRule.beforeRule.body =
    [.pattern ⟨.var ⟨"x", 0⟩, .iri "before", .var ⟨"y", 1⟩⟩,
      .pattern ⟨.var ⟨"y", 1⟩, .iri "before", .var ⟨"z", 2⟩⟩,
      .call "notEqual" [.var ⟨"x", 0⟩, .var ⟨"z", 2⟩]] := by rfl

theorem isPlain_beforeRule : CheckedRule.beforeRule.IsPlain .standard where
  made := CheckedRule.isMade_beforeRule
  head := by decide
  tests := by
    intro name args hcall b hb
    rw [body_beforeRule] at hcall
    obtain rfl : name = "notEqual" := by
      simp at hcall
      exact hcall.1
    have hfind : Registry.standard.find? "notEqual" = some CheckedRule.notEqual := by rfl
    rw [hfind, Option.some.injEq] at hb
    rw [← hb]
    exact CheckedRule.isTest_notEqual
  guarded := by
    intro front name args after hbody
    rw [body_beforeRule] at hbody
    have hsplit : front = CheckedRule.beforeRule.body.take 2 ∧
        args = [.var ⟨"x", 0⟩, .var ⟨"z", 2⟩] := by
      match front, hbody with
      | [_, _], hbody =>
          simp only [List.cons_append, List.nil_append, List.cons.injEq, Clause.call.injEq] at hbody
          obtain ⟨rfl, rfl, ⟨-, rfl⟩, -⟩ := hbody
          exact ⟨rfl, rfl⟩
      | [], hbody | [_], hbody | _ :: _ :: _ :: _, hbody => simp at hbody
    obtain ⟨rfl, rfl⟩ := hsplit
    simp [body_beforeRule, Term.occurrences, Triple.occurrences, Triple.terms]

def eager : Reasoner :=
  ⟨(RuleBase.empty .standard).add
    ⟨CheckedRule.beforeRule.withDirection .forward, CheckedRule.before.body⟩,
    { mode := .forward, ruleThreshold := 0 }, .empty⟩

def onDemand : Reasoner :=
  ⟨(RuleBase.empty .standard).add
    ⟨CheckedRule.beforeRule.withDirection .backward, CheckedRule.before.body⟩,
    { mode := .backward, ruleThreshold := 0 }, .empty⟩

def roundSchema : Store := .ofList [⟨.iri "c", .iri "before", .iri "a"⟩]

theorem eager_same_answers : ∃ g g' n n',
    Reasoner.build .standard [CheckedRule.beforeRule.withDirection .forward] eager.settings =
      .ok eager ∧
    Reasoner.build .standard [CheckedRule.beforeRule.withDirection .backward] onDemand.settings =
      .ok onDemand ∧
    eager.bindOver 100 (some roundSchema) orderData 0 = some (.ok g, n) ∧
    onDemand.bindOver 100 (some roundSchema) orderData 0 = some (.ok g', n') ∧
    g.SameAnswers g' := by
  have hbuild : Reasoner.build .standard [CheckedRule.beforeRule.withDirection .forward]
      eager.settings = .ok eager := rfl
  have hbuild' : Reasoner.build .standard [CheckedRule.beforeRule.withDirection .backward]
      onDemand.settings = .ok onDemand := rfl
  have hplain : ∀ q ∈ [CheckedRule.beforeRule], q.IsPlain .standard := by
    intro q hq
    rw [List.mem_singleton.mp hq]
    exact isPlain_beforeRule
  have hruns : Direction.RunsIn .forward eager.settings.mode := by decide
  have hruns' : Direction.RunsIn .backward onDemand.settings.mode := by decide
  have hbind : (eager.bindOver 100 (some roundSchema) orderData 0).isSome := by decide +kernel
  have hbind' : (onDemand.bindOver 100 (some roundSchema) orderData 0).isSome := by decide +kernel
  obtain ⟨⟨bound, n⟩, hbound⟩ := Option.isSome_iff_exists.mp hbind
  obtain ⟨⟨bound', n'⟩, hbound'⟩ := Option.isSome_iff_exists.mp hbind'
  obtain ⟨r', hr', hagree⟩ :=
    same_answers_in_every_direction hplain rfl hruns rfl hruns' rfl hbuild
  obtain rfl : onDemand = r' := Except.ok.inj (hbuild'.symm.trans hr')
  have hschema : ∀ s ∈ some roundSchema, s.Built := by
    rintro s ⟨⟩
    exact Store.built_ofList (by decide)
  obtain ⟨g, g', rfl, rfl, hsame⟩ := hagree (some roundSchema) orderData hschema
    (Store.built_ofList (by decide)) 100 0 n 100 0 n' bound bound' hbound hbound'
  exact ⟨g, g', n, n', hbuild, hbuild', hbound, hbound', hsame⟩

end InferenceGraph

end TripleRules
