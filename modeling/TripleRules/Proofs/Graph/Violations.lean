import TripleRules.Proofs.Graph.Validation

/-!
# Violations

Which violations a report has.  When some rule is known to wait for validation, the report has those
that the rules conclude while the switch is asserted, and they are the ones that a graph answers
that is newly bound to the asserted triples and the switch.  When no rule is known to, the switch is
not asserted.  Nothing is missed by that unless a rule waits for it in a way that is not looked for:
in a rule nested in the head of another one, or in a pattern with a variable as its predicate.
-/

namespace TripleRules

open Forward Forward.Engine Validity

/-! ## Triples that no rule reads -/

def CheckedRule.Ignores (c : CheckedRule) (t : Triple) : Prop :=
  ∀ p, .pattern p ∈ c.body → p.matches? t = false

variable {t : Triple}

theorem CheckedRule.Ignores.ne {c : CheckedRule} (h : c.Ignores t) {p : Triple}
    (hp : .pattern p ∈ c.body) (σ : Variable → Term) : p.mapVars σ ≠ t := by
  intro heq
  have hmatch : p.matches? t := (Triple.matches?_iff p t).mpr ⟨σ, heq⟩
  rw [h p hp] at hmatch
  cases hmatch

theorem CheckedRule.Ignores.applies {c : CheckedRule} (h : c.Ignores t) {M : Triple → Prop}
    {σ : Variable → Term} (happ : Applies (fun u => M u ∨ u = t) c.body σ) :
    Applies M c.body σ :=
  ⟨fun p hp => (happ.patterns p hp).resolve_right (h.ne hp σ), happ.calls⟩

/-- A fact that no rule reads has no consequences. -/
theorem Entailed.ignored {facts : Triple → Prop} {rules : CheckedRule → Prop}
    (h : ∀ c, rules c → c.Ignores t) (u : Triple) :
    Entailed (fun u => facts u ∨ u = t) rules u ↔ Entailed facts rules u ∨ u = t := by
  constructor
  · intro hu
    refine mem_of_isModel (M := fun u => Entailed facts rules u ∨ u = t) ⟨fun v hv => ?_, ?_⟩ hu
    · exact hv.imp_left .fact
    · intro c hc σ hσ happ head hhead
      exact .inl (isModel.rules c hc σ hσ ((h c hc).applies happ) head hhead)
  · rintro (hu | rfl)
    · exact hu.mono (fun _ => .inl) fun _ hc => hc
    · exact .fact (.inr rfl)

namespace Reasoner

variable {r : Reasoner} {facts : Triple → Prop}

theorem derives_ignored (h : r.settings.mode.runsForward = true → ∀ c ∈ r.base.forward, c.Ignores t)
    (u : Triple) : r.Derives (fun u => facts u ∨ u = t) u ↔ r.Derives facts u ∨ u = t :=
  Entailed.ignored (fun c hc => h hc.1 c hc.2) u

theorem installsFrom_ignored
    (h : r.settings.mode.runsForward = true → ∀ c ∈ r.base.forward, c.Ignores t) (c : CheckedRule) :
    r.InstallsFrom (fun u => facts u ∨ u = t) c ↔ r.InstallsFrom facts c := by
  constructor
  · rintro ⟨hmode, q, hq, τ, hτ, happ, hinstalls⟩
    have happ' : Applies (fun u => r.Derives facts u ∨ u = t) q.body (bySlot τ) :=
      happ.mono fun u => (derives_ignored h u).mp
    exact ⟨hmode, q, hq, τ, hτ, (h hmode q hq).applies happ', hinstalls⟩
  · exact fun hc => hc.mono fun _ => .inl

end Reasoner

namespace InferenceGraph

variable {g g' : InferenceGraph} {r : Reasoner}

structure Ignores (g : InferenceGraph) (t : Triple) : Prop where
  forward : g.settings.mode.runsForward = true → ∀ c ∈ g.base.forward, c.Ignores t
  rules : ∀ c, g.rules.Has c → c.Ignores t

theorem Tracks.entails_ignored (h : g.Tracks r) (h' : g'.Tracks r) (hr : r.Fair)
    (hignores : g.Ignores t) (hsame : ∀ u, u ∈ g'.raw.triples ↔ u ∈ g.raw.triples ∨ u = t)
    (u : Triple) : g'.context.Entails u ↔ g.context.Entails u ∨ u = t := by
  have hforward : r.settings.mode.runsForward = true → ∀ c ∈ r.base.forward, c.Ignores t := by
    rw [← h.settings, ← h.base]
    exact hignores.forward
  have hfacts : ∀ u, (u ∈ g'.raw.triples ∨ u ∈ r.schema.graph.triples) ↔
      (u ∈ g.raw.triples ∨ u ∈ r.schema.graph.triples) ∨ u = t := by
    intro u
    rw [hsame, or_right_comm]
  have hcontains : ∀ u, g'.sources.contains u ↔ g.sources.contains u ∨ u = t := by
    intro u
    rw [h'.contains_iff_derives hr, h.contains_iff_derives hr, Reasoner.derives_congr hfacts,
      Reasoner.derives_ignored hforward]
  have hinstalled : ∀ c, c ∈ g'.forward.installed.rules ↔ c ∈ g.forward.installed.rules := by
    intro c
    rw [h'.mem_installed_iff_installsFrom hr, h.mem_installed_iff_installsFrom hr,
      Reasoner.installsFrom_congr (Reasoner.derives_congr hfacts),
      Reasoner.installsFrom_ignored hforward]
  have hrules : ∀ c, g'.rules.Has c ↔ g.rules.Has c := by
    intro c
    simp only [RuleView.Has, InferenceGraph.rules, h.base, h'.base, h.settings, h'.settings,
      hinstalled]
  have hcongr : g'.context.Entails u ↔
      Entailed (fun u => g.sources.contains u ∨ u = t) g.rules.Has u :=
    Entailed.congr hcontains hrules u
  rw [hcongr, Entailed.ignored hignores.rules]
  rfl

/-! ## The violations in a report -/

/-- A report is on some triples: its violations are the answers of a graph that the reasoner newly
binds to them. -/
def ReportsOn (r : Reasoner) (report : Report) (facts : Triple → Prop) : Prop :=
  ∀ {raw : Store}, raw.Built → (∀ t, t ∈ raw.triples ↔ facts t) →
    ∀ {fuel fresh fresh' : Nat} {bound : Except Fault InferenceGraph},
      r.bind fuel raw fresh = some (bound, fresh') → ∃ g, bound = .ok g ∧
        ∀ {fuel fresh : Nat} {found : Reply (Except Fault (List Triple))},
          g.query fuel violations fresh = some found → ∃ xs, found.value = .ok xs ∧
            ∀ e, e ∈ report.entries ∧ e.kind = Entry.violationKind ↔
              ∃ t ∈ xs, e = Entry.ofViolation t

theorem kind_ne_of_mem_conditions {e : Entry} (he : e ∈ g.conditions) :
    e.kind ≠ Entry.violationKind := by
  intro hkind
  rcases (mem_conditions g e).mp he with ⟨rfl, -⟩ | ⟨f, -, rfl⟩
  · exact not_foreign_thresholdEntry _ (.inl hkind)
  · exact not_foreign_rejectionEntry _ (.inl hkind)

theorem kind_ne_of_mem_updateEntries {v : Except Fault Bool} {e : Entry}
    (he : e ∈ updateEntries v) : e.kind ≠ Entry.violationKind := by
  cases v with
  | error f =>
      rw [List.mem_singleton.mp he]
      have hkinds : "reasoning" ≠ Entry.violationKind := by decide
      exact hkinds
  | ok => cases he

/-- The violations in a report are what a query has found: with the switch asserted if a rule is
known to wait for it, and on the graph as it is if not. -/
theorem violations_of_validate (hg : History r g) (hopen : g.closed = false) {fuel fresh : Nat}
    (hnew : validationSwitch fresh ∉ g.raw.triples) {reply : Reply Report}
    (h : g.validate fuel fresh = some reply) :
    ∃ g₁ fresh₁ found, History r g₁ ∧ g₁.query fuel violations fresh₁ = some found ∧
      (∀ t, t ∈ g₁.raw.triples ↔ t ∈ g.raw.triples ∨
        g.base.usesPredicate (.iri Vocabulary.validation) = true ∧ t = validationSwitch fresh) ∧
      ∀ e, e ∈ reply.value.entries ∧ e.kind = Entry.violationKind ↔
        e ∈ violationEntries found.value ∧ e.kind = Entry.violationKind := by
  obtain ⟨checked, -, hchecked, -, hmem⟩ := validate_eq hopen h
  split at hchecked
  · rename_i huses
    obtain ⟨on, found, off, hadd, hquery, -, rfl⟩ := checkWith_eq hchecked
    refine ⟨on.graph, on.fresh, found, hg.act (.add hadd), hquery, fun t => ?_, fun e => ?_⟩
    · rw [raw_add hopen rfl hnew hadd, Store.mem_insert, huses]
      simp
    · refine and_congr_left fun hkind => ?_
      rw [hmem, List.mem_append, List.mem_append]
      refine ⟨?_, fun he => .inl (.inl (.inr he))⟩
      rintro (((he | he) | he) | he)
      · exact absurd hkind (kind_ne_of_mem_updateEntries he)
      · exact he
      · exact absurd hkind (kind_ne_of_mem_updateEntries he)
      · exact absurd hkind (kind_ne_of_mem_conditions he)
  · rename_i huses
    unfold check at hchecked
    rw [Option.map_eq_some_iff] at hchecked
    obtain ⟨found, hquery, rfl⟩ := hchecked
    refine ⟨g, fresh, found, hg, hquery, fun t => ?_, fun e => ?_⟩
    · simp [huses]
    · refine and_congr_left fun hkind => ?_
      rw [hmem]
      refine ⟨fun he => he.resolve_right fun he => ?_, .inl⟩
      exact kind_ne_of_mem_conditions he hkind

theorem mem_violationEntries_ok {xs : List Triple} {e : Entry} :
    e ∈ violationEntries (.ok xs) ∧ e.kind = Entry.violationKind ↔
      ∃ t ∈ xs, e = Entry.ofViolation t := by
  simp only [violationEntries, List.mem_map]
  constructor
  · rintro ⟨⟨t, ht, rfl⟩, -⟩
    exact ⟨t, ht, rfl⟩
  · rintro ⟨t, ht, rfl⟩
    exact ⟨⟨t, ht, rfl⟩, kind_ofViolation t⟩

theorem violations_not_matches_switch (fresh : Nat) :
    violations.matches? (validationSwitch fresh) = false := by
  rw [Bool.eq_false_iff, ne_eq, Triple.matches?_iff]
  rintro ⟨σ, hσ⟩
  have hpredicate := congrArg Triple.predicate hσ
  simp only [violations, validationSwitch, Triple.mapVars, Term.mapVars, Term.iri.injEq]
    at hpredicate
  exact absurd hpredicate (by decide)

/-- The violations of a report are on the asserted triples, and on the switch too if a rule is known
to wait for validation.  When none is, they are on the switch all the same if no rule reads it. -/
theorem validate_reports_violations (hr : r.Fair) (hg : History r g) {fuel fresh : Nat}
    (hnew : validationSwitch fresh ∉ g.raw.triples) {reply : Reply Report}
    (h : g.validate fuel fresh = some reply) :
    (g.base.usesPredicate (.iri Vocabulary.validation) = true ∨ g.Ignores (validationSwitch fresh) →
      ReportsOn r reply.value fun t => t ∈ g.raw.triples ∨ t = validationSwitch fresh) ∧
    (g.base.usesPredicate (.iri Vocabulary.validation) = false →
      ReportsOn r reply.value (· ∈ g.raw.triples)) := by
  have hopened : g.Tracks r := hg.tracks hr
  obtain ⟨g₁, fresh₁, found, hg₁, hquery, hraw₁, hentries⟩ :=
    violations_of_validate hg hopened.opened hnew h
  have htracks : g₁.Tracks r := hg₁.tracks hr
  obtain ⟨ys, hvalue, hys⟩ := htracks.query_answered hr hquery
  rw [hvalue] at hentries
  -- It is enough that a graph newly bound to the triples entails the same violations.
  have henough : ∀ {facts : Triple → Prop}, (∀ g' : InferenceGraph, g'.Tracks r →
      (∀ t, t ∈ g'.raw.triples ↔ facts t) → ∀ t, violations.matches? t →
        (g'.context.Entails t ↔ g₁.context.Entails t)) → ReportsOn r reply.value facts := by
    intro facts hsame raw hraw hfacts fuel' fresh' fresh'' bound hbind
    obtain ⟨g', rfl, rfl, hg'⟩ := tracks_bind hr hraw hbind
    refine ⟨g', rfl, fun hquery' => ?_⟩
    obtain ⟨xs, hvalue', hxs⟩ := hg'.query_answered hr hquery'
    refine ⟨xs, hvalue', fun e => ?_⟩
    rw [hentries, mem_violationEntries_ok]
    refine exists_congr fun t => and_congr_left fun _ => ?_
    rw [hxs, hys]
    exact and_congr_right fun ht => (hsame g' hg' hfacts t ht).symm
  cases huses : g.base.usesPredicate (.iri Vocabulary.validation) with
  | true =>
      rw [huses] at hraw₁
      refine ⟨fun _ => henough fun g' hg' hsame t _ => ?_, fun hidle => by cases hidle⟩
      exact hg'.entails_congr htracks hr (fun u => by rw [hraw₁, hsame]; simp) t
  | false =>
      rw [huses] at hraw₁
      have hidle : ∀ t, t ∈ g₁.raw.triples ↔ t ∈ g.raw.triples := fun t => by rw [hraw₁]; simp
      refine ⟨fun hcase => henough fun g' hg' hsame t ht => ?_,
        fun _ => henough fun g' hg' hsame t _ => ?_⟩
      · have hignores : g.Ignores (validationSwitch fresh) :=
          hcase.resolve_left Bool.false_ne_true
        have hne : t ≠ validationSwitch fresh := by
          rintro rfl
          rw [violations_not_matches_switch] at ht
          cases ht
        rw [hopened.entails_ignored hg' hr hignores hsame, or_iff_left hne]
        exact hopened.entails_congr htracks hr hidle t
      · exact hg'.entails_congr htracks hr (fun u => by rw [hidle, hsame]) t

/-! ## Instances -/

def patient (c : CheckedRule) : Reasoner :=
  ⟨(RuleBase.empty .standard).add c, { ruleThreshold := 0 }, .empty⟩

theorem fair_patient {q : Rule} (hmade : q.IsMade) {c : CheckedRule}
    (hbuild : Reasoner.build .standard [q] { ruleThreshold := 0 } = .ok (patient c))
    (hforward : (patient c).base.forward = [c]) (hbackward : (patient c).base.backward.rules = [])
    (hbody : c.body.all fun
      | .call .. => false
      | .pattern _ => true)
    (hnested : c.rule.head.all fun
      | .rule q => q.body.all fun p => !p.isCall
      | .pattern _ => true) : (patient c).Fair where
  built := .build (fun q' hq' => List.mem_singleton.mp hq' ▸ hmade) hbuild
  guarded := by
    rw [List.all_eq_true] at hbody hnested
    refine ⟨fun c' hc' => ?_, fun c' hc' q hq => ?_, fun c' hc' => ?_⟩
    · rw [hforward, List.mem_singleton] at hc'
      subst hc'
      intro before b args after hsplit
      have hcall : Premise.call b args ∈ c'.body := by
        rw [hsplit]
        exact List.mem_append_right _ List.mem_cons_self
      cases hbody _ hcall
    · rw [hforward, List.mem_singleton] at hc'
      subst hc'
      have hcalls : ∀ name args, .call name args ∉ q.body := fun name args hcall => by
        simpa [Clause.isCall] using List.all_eq_true.mp (hnested _ hq) _ hcall
      refine ⟨fun name args hcall => absurd hcall (hcalls name args), ?_⟩
      intro before name args after hsplit
      refine absurd ?_ (hcalls name args)
      rw [hsplit]
      exact List.mem_append_right _ List.mem_cons_self
    · rw [hbackward] at hc'
      cases hc'
  unlimited := rfl

theorem fair_inspect : (patient inspect).Fair :=
  fair_patient ⟨_, _, _, none, (rfl : inspectRule = _)⟩ rfl rfl rfl (by decide) (by decide)

def secretRule : Rule :=
  .make [.pattern ⟨.named "x", .iri "scores", .named "y"⟩]
    [.rule (.make [.pattern ⟨.named "b", .iri Vocabulary.validation, .named "on"⟩]
      [.pattern ⟨.named "x", .iri Vocabulary.violation, .plain "suspect"⟩] .backward)] .forward

def secret : CheckedRule :=
  ⟨secretRule, [.pattern ⟨.var ⟨"x", 0⟩, .iri "scores", .var ⟨"y", 1⟩⟩]⟩

theorem fair_secret : (patient secret).Fair :=
  fair_patient ⟨_, _, _, none, (rfl : secretRule = _)⟩ rfl rfl rfl (by decide) (by decide)

def annBound (c : CheckedRule) : Option InferenceGraph :=
  match (patient c).bind 100 (.ofList [annScores]) 0 with
  | some (.ok g, _) => some g
  | _ => none

theorem history_annBound {c : CheckedRule} (h : annBound c = some g) : History (patient c) g := by
  unfold annBound at h
  split at h
  · rename_i hbind
    cases h
    exact .bind (Store.built_ofList (by decide)) hbind
  · cases h

/-- The rule that is known to wait for validation has its violation reported. -/
theorem inspect_reports_violations : ∃ g reply, History (patient inspect) g ∧
    g.validate 100 0 = some reply ∧ Entry.ofViolation annSuspect ∈ reply.value.entries ∧
    ReportsOn (patient inspect) reply.value
      fun t => t ∈ g.raw.triples ∨ t = validationSwitch 0 := by
  have hrun : (annBound inspect).any fun g => decide (validationSwitch 0 ∉ g.raw.triples) &&
      g.base.usesPredicate (.iri Vocabulary.validation) && (g.validate 100 0).any fun reply =>
        decide (Entry.ofViolation annSuspect ∈ reply.value.entries) := by
    decide +kernel
  simp only [Option.any_eq_true, Bool.and_eq_true, decide_eq_true_eq] at hrun
  obtain ⟨g, hg, ⟨hnew, huses⟩, reply, hreply, hin⟩ := hrun
  have hhistory := history_annBound hg
  exact ⟨g, reply, hhistory, hreply, hin,
    (validate_reports_violations fair_inspect hhistory hnew hreply).1 (.inl huses)⟩

/-- With the rule, the report on what Ann has scored is empty, although a graph that is newly bound
to that and the switch has a violation. -/
def Overlooks (c : CheckedRule) : Prop :=
  ∃ g reply, History (patient c) g ∧ validationSwitch 0 ∉ g.raw.triples ∧
    g.validate 100 0 = some reply ∧ reply.value.entries = [] ∧
    (∃ g' n found, (patient c).bind 100 (g.raw.insert (validationSwitch 0)) 1 = some (.ok g', n) ∧
      g'.query 100 violations n = some found ∧ found.value = .ok [annSuspect]) ∧
    ¬ ReportsOn (patient c) reply.value fun t => t ∈ g.raw.triples ∨ t = validationSwitch 0

theorem overlooks_of_run {c : CheckedRule} (hfair : (patient c).Fair)
    (hrun : (annBound c).any fun g => decide (validationSwitch 0 ∉ g.raw.triples) &&
      ((g.validate 100 0).any fun reply => decide (reply.value.entries = [])) &&
        ((patient c).bind 100 (g.raw.insert (validationSwitch 0)) 1).any fun bound =>
          match bound with
          | (.ok g', n) => (g'.query 100 violations n).any fun found =>
              found.value == .ok [annSuspect]
          | (.error _, _) => false) : Overlooks c := by
  simp only [Option.any_eq_true, Bool.and_eq_true, decide_eq_true_eq] at hrun
  obtain ⟨g, hg, ⟨hnew, reply, hreply, hentries⟩, ⟨bound, n⟩, hbind, hanswer⟩ := hrun
  have hhistory := history_annBound hg
  cases bound with
  | error f => cases hanswer
  | ok g' =>
      simp only [Option.any_eq_true, beq_iff_eq] at hanswer
      obtain ⟨found, hfound, hvalue⟩ := hanswer
      refine ⟨g, reply, hhistory, hnew, hreply, hentries, ⟨g', n, found, hbind, hfound, hvalue⟩,
        fun hreports => ?_⟩
      have hraw : (g.raw.insert (validationSwitch 0)).Built :=
        ((hhistory.tracks hfair).raw).insert rfl
      obtain ⟨g'', heq, hanswers⟩ := hreports hraw (Store.mem_insert _ _) hbind
      cases heq
      obtain ⟨xs, hxs, hall⟩ := hanswers hfound
      rw [hvalue] at hxs
      cases hxs
      have hin := ((hall _).mpr ⟨annSuspect, List.mem_singleton_self _, rfl⟩).1
      rw [hentries] at hin
      cases hin

/-- A rule that waits for validation in a nested rule is not known to wait. -/
theorem secret_violation_overlooked :
    Reasoner.build .standard [secretRule] { ruleThreshold := 0 } = .ok (patient secret) ∧
      (patient secret).Fair ∧ Overlooks secret :=
  ⟨rfl, fair_secret, overlooks_of_run fair_secret (by decide +kernel)⟩

def vagueRule : Rule :=
  .make [.pattern ⟨.named "b", .named "p", .compound "on" []⟩,
      .pattern ⟨.named "x", .iri "scores", .named "y"⟩]
    [.pattern ⟨.named "x", .iri Vocabulary.violation, .plain "suspect"⟩] .forward

def vague : CheckedRule :=
  ⟨vagueRule, [.pattern ⟨.var ⟨"b", 0⟩, .var ⟨"p", 1⟩, .compound "on" []⟩,
    .pattern ⟨.var ⟨"x", 2⟩, .iri "scores", .var ⟨"y", 3⟩⟩]⟩

theorem fair_vague : (patient vague).Fair :=
  fair_patient ⟨_, _, _, none, (rfl : vagueRule = _)⟩ rfl rfl rfl (by decide) (by decide)

theorem vague_violation_overlooked :
    Reasoner.build .standard [vagueRule] { ruleThreshold := 0 } = .ok (patient vague) ∧
      (patient vague).Fair ∧ Overlooks vague :=
  ⟨rfl, fair_vague, overlooks_of_run fair_vague (by decide +kernel)⟩

end InferenceGraph

end TripleRules
