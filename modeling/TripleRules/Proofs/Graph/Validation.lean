import TripleRules.Proofs.Forward.Passes
import TripleRules.Proofs.Graph.Failure

/-!
# Validation

What a validity report says about the engines' own work.  It speaks of the schema pass and of the
engine that validation leaves behind.  Without a rule that waits for validation this is the engine
that the violations come from, and every pass that it has made is accounted for.  With such a rule
the switch is taken back first, and the report speaks of the pass that deduces everything anew.
-/

namespace TripleRules

open Forward Forward.Engine Validity

namespace Validity.Report

theorem mem_add (r : Report) (e e' : Entry) :
    e' ∈ (r.add e).entries ↔ e' ∈ r.entries ∨ e' = e := by
  unfold add
  split
  · rename_i hin
    constructor
    · exact .inl
    · rintro (h | rfl)
      · exact h
      · exact hin
  · simp

theorem mem_addAll (r : Report) (es : List Entry) (e : Entry) :
    e ∈ (r.addAll es).entries ↔ e ∈ r.entries ∨ e ∈ es := by
  unfold addAll
  induction es generalizing r with
  | nil => simp
  | cons e' es ih => rw [List.foldl_cons, ih, mem_add, List.mem_cons, or_assoc]

end Validity.Report

namespace InferenceGraph

variable {g g' : InferenceGraph} {r : Reasoner}

/-! ## Entries -/

def thresholdEntry (settings : ReasoningSettings) : Entry where
  severity := .warning
  kind := "threshold"
  description := "forward chaining stopped after " ++ settings.ruleThreshold.repr
    ++ " rule firings; deductions may be incomplete"

def rejectionEntry (message : String) : Entry where
  severity := .warning
  kind := "rule"
  description := message

theorem mem_conditions (g : InferenceGraph) (e : Entry) : e ∈ g.conditions ↔
    (e = thresholdEntry g.settings ∧
      (g.schema.stats.thresholdExceeded ∨ g.forward.stats.thresholdExceeded)) ∨
    ∃ f ∈ g.forward.rejected, e = rejectionEntry f.message := by
  have hrejected : e ∈ g.forward.rejected.map (fun f => rejectionEntry f.message) ↔
      ∃ f ∈ g.forward.rejected, e = rejectionEntry f.message := by
    simp only [List.mem_map, eq_comm]
  unfold conditions
  rw [List.mem_append]
  refine or_congr ?_ hrejected
  rw [← Bool.or_eq_true]
  split
  · rename_i h
    simp [thresholdEntry, h]
  · rename_i h
    simp [h]

theorem kind_ofViolation (t : Triple) : (Entry.ofViolation t).kind = Entry.violationKind := by
  unfold Entry.ofViolation
  dsimp only
  split <;> rfl

def Foreign (e : Entry) : Prop := e.kind = Entry.violationKind ∨ e.kind = "reasoning"

theorem foreign_of_mem_updateEntries {v : Except Fault Bool} {e : Entry}
    (h : e ∈ updateEntries v) : Foreign e := by
  cases v with
  | error f =>
      rw [List.mem_singleton.mp h]
      exact .inr rfl
  | ok => exact absurd h List.not_mem_nil

theorem foreign_of_mem_violationEntries {v : Except Fault (List Triple)} {e : Entry}
    (h : e ∈ violationEntries v) : Foreign e := by
  cases v with
  | error f =>
      rw [List.mem_singleton.mp h]
      exact .inr rfl
  | ok found =>
      obtain ⟨t, -, rfl⟩ := List.mem_map.mp h
      exact .inl (kind_ofViolation t)

theorem not_foreign_thresholdEntry (settings : ReasoningSettings) :
    ¬ Foreign (thresholdEntry settings) := by
  have hkinds : ¬ ("threshold" = Entry.violationKind ∨ "threshold" = "reasoning") := by decide
  exact hkinds

theorem not_foreign_rejectionEntry (message : String) : ¬ Foreign (rejectionEntry message) := by
  have hkinds : ¬ ("rule" = Entry.violationKind ∨ "rule" = "reasoning") := by decide
  exact hkinds

theorem thresholdEntry_ne_rejectionEntry (settings : ReasoningSettings) (message : String) :
    thresholdEntry settings ≠ rejectionEntry message := by
  intro heq
  have hkinds : "threshold" ≠ "rule" := by decide
  exact hkinds (congrArg Entry.kind heq)

theorem rejectionEntry_inj {m m' : String} (h : rejectionEntry m = rejectionEntry m') : m = m' :=
  congrArg Entry.description h

/-! ## Validating -/

theorem checkWith_eq {fuel fresh : Nat} {switch : Triple} {reply : Reply (List Entry)}
    (h : g.checkWith fuel switch fresh = some reply) :
    ∃ on found off, g.add fuel switch fresh = some on ∧
      on.graph.query fuel violations on.fresh = some found ∧
      found.graph.delete fuel switch found.fresh = some off ∧
      reply = ⟨updateEntries on.value ++ violationEntries found.value ++ updateEntries off.value,
        off.graph, off.fresh⟩ := by
  unfold checkWith at h
  simp only [Option.bind_eq_bind, Option.bind_eq_some_iff, Option.pure_def,
    Option.some.injEq] at h
  obtain ⟨on, hadd, found, hquery, off, hdelete, rfl⟩ := h
  exact ⟨on, found, off, hadd, hquery, hdelete, rfl⟩

theorem foreign_of_mem_checkWith {fuel fresh : Nat} {switch : Triple} {reply : Reply (List Entry)}
    (h : g.checkWith fuel switch fresh = some reply) {e : Entry} (he : e ∈ reply.value) :
    Foreign e := by
  obtain ⟨on, found, off, -, -, -, rfl⟩ := checkWith_eq h
  simp only [List.mem_append] at he
  rcases he with (he | he) | he
  · exact foreign_of_mem_updateEntries he
  · exact foreign_of_mem_violationEntries he
  · exact foreign_of_mem_updateEntries he

/-- A report on an open graph has entries that are about the data, and beyond these what the graph
that is left says of its engines. -/
theorem validate_eq (hopen : g.closed = false) {fuel fresh : Nat} {reply : Reply Report}
    (h : g.validate fuel fresh = some reply) :
    ∃ checked : Reply (List Entry), reply.graph = checked.graph ∧
      (if g.base.usesPredicate (.iri Vocabulary.validation) then
        g.checkWith fuel (validationSwitch fresh) (fresh + 1) else g.check fuel fresh) =
          some checked ∧
      (∀ e ∈ checked.value, Foreign e) ∧
      ∀ e, e ∈ reply.value.entries ↔ e ∈ checked.value ∨ e ∈ reply.graph.conditions := by
  unfold validate at h
  rw [hopen, if_neg Bool.false_ne_true, Option.map_eq_some_iff] at h
  obtain ⟨checked, hchecked, rfl⟩ := h
  refine ⟨checked, rfl, hchecked, ?_, fun e => ?_⟩
  · split at hchecked
    · exact fun e he => foreign_of_mem_checkWith hchecked he
    · unfold check at hchecked
      rw [Option.map_eq_some_iff] at hchecked
      obtain ⟨found, -, rfl⟩ := hchecked
      exact fun e he => foreign_of_mem_violationEntries he
  · rw [Report.mem_addAll, List.mem_append]
    simp [Report.empty]

/-- A report warns of the limit on firings, and of nested rules that could not be installed, just
when the schema or the engine that is left behind has something to say about them. -/
theorem validate_reports (hopen : g.closed = false) {fuel fresh : Nat} {reply : Reply Report}
    (h : g.validate fuel fresh = some reply) :
    (thresholdEntry g.settings ∈ reply.value.entries ↔
      g.schema.stats.thresholdExceeded ∨ reply.graph.forward.stats.thresholdExceeded) ∧
    ∀ message, rejectionEntry message ∈ reply.value.entries ↔
      ∃ f ∈ reply.graph.forward.rejected, f.message = message := by
  have hreworked : Reworked g reply.graph := .validate h
  obtain ⟨checked, -, -, hforeign, hmem⟩ := validate_eq hopen h
  refine ⟨?_, fun message => ?_⟩
  · rw [hmem, mem_conditions, hreworked.settings, hreworked.schema]
    constructor
    · rintro (hin | ⟨-, hmet⟩ | ⟨f, -, heq⟩)
      · exact absurd (hforeign _ hin) (not_foreign_thresholdEntry _)
      · exact hmet
      · exact absurd heq (thresholdEntry_ne_rejectionEntry _ _)
    · exact fun hmet => .inr (.inl ⟨rfl, hmet⟩)
  · rw [hmem, mem_conditions]
    constructor
    · rintro (hin | ⟨heq, -⟩ | ⟨f, hf, heq⟩)
      · exact absurd (hforeign _ hin) (not_foreign_rejectionEntry _)
      · exact absurd heq.symm (thresholdEntry_ne_rejectionEntry _ _)
      · exact ⟨f, hf, (rejectionEntry_inj heq).symm⟩
    · rintro ⟨f, hf, rfl⟩
      exact .inr (.inr ⟨f, hf, rfl⟩)

theorem forward_check {fuel fresh : Nat} {checked : Reply (List Entry)}
    (h : g.check fuel fresh = some checked) : checked.graph.forward = g.forward := by
  unfold check at h
  rw [Option.map_eq_some_iff] at h
  obtain ⟨found, hquery, rfl⟩ := h
  obtain ⟨t, ht⟩ := onlyTables_query hquery
  rw [ht]

theorem raw_add (hopen : g.closed = false) {fuel fresh : Nat} {t : Triple} (ht : t.isGround)
    (hnew : t ∉ g.raw.triples) {reply : Reply (Except Fault Bool)}
    (h : g.add fuel t fresh = some reply) : reply.graph.raw = g.raw.insert t := by
  have hout : g.raw.contains t = false := by
    rw [Bool.eq_false_iff, ne_eq, Store.contains_iff]
    exact hnew
  cases adds h with
  | idle | pass | broken => rfl
  | closed hclosed =>
      rw [hopen] at hclosed
      cases hclosed
  | refused hground =>
      rw [ht] at hground
      cases hground
  | known _ hin =>
      rw [hout] at hin
      cases hin

/-- The forward engine of a graph is the one that a first pass over its data has come to. -/
def FirstPass (g : InferenceGraph) (fuel : Nat) : Prop :=
  g.settings.mode.runsForward → ∃ fresh o,
    (Engine.new g.base g.settings g.schema.installed).run fuel g.data fresh = some o ∧
      g.forward = o.engine

theorem firstPass_deduce {fuel fresh : Nat} {reply : Reply (Option Fault)}
    (h : g.deduce fuel fresh = some reply) : reply.graph.FirstPass fuel := by
  cases deduces h with
  | pass _ hrun => exact fun _ => ⟨fresh, _, hrun, rfl⟩
  | idle hmode =>
      intro hforward
      rw [hmode] at hforward
      cases hforward

theorem raw_deduce {fuel fresh : Nat} {reply : Reply (Option Fault)}
    (h : g.deduce fuel fresh = some reply) : reply.graph.raw = g.raw := by
  cases deduces h with
  | idle | pass => rfl

theorem firstPass_delete (hopen : g.closed = false) {fuel fresh : Nat} {t : Triple}
    (ht : t ∈ g.raw.triples) {reply : Reply (Except Fault Bool)}
    (h : g.delete fuel t fresh = some reply) :
    reply.graph.raw = g.raw.erase t ∧ reply.graph.FirstPass fuel := by
  have hin : g.raw.contains t = true := (Store.contains_iff _ _).mpr ht
  cases deletes h with
  | anew _ hdeduce | broken _ hdeduce =>
      have hraw := raw_deduce hdeduce
      have hfirst := firstPass_deduce hdeduce
      exact ⟨hraw, hfirst⟩
  | closed hclosed =>
      rw [hopen] at hclosed
      cases hclosed
  | unknown hout =>
      rw [hin] at hout
      cases hout

theorem firstPass_checkWith (hopen : g.closed = false) {fuel fresh : Nat} {switch : Triple}
    (hground : switch.isGround) (hnew : switch ∉ g.raw.triples) {reply : Reply (List Entry)}
    (h : g.checkWith fuel switch fresh = some reply) :
    reply.graph.raw.triples = g.raw.triples ∧ reply.graph.FirstPass fuel := by
  obtain ⟨on, found, off, hadd, hquery, hdelete, rfl⟩ := checkWith_eq h
  have hfound : found.graph.raw = g.raw.insert switch := by
    obtain ⟨t, ht⟩ := onlyTables_query hquery
    rw [ht, ← raw_add hopen hground hnew hadd]
  have hinsert : found.graph.raw.triples = g.raw.triples ++ [switch] := by
    rw [hfound, Store.insert, if_neg (by rw [Store.contains_iff]; exact hnew)]
  have hopen' : found.graph.closed = false :=
    (onlyTables_query hquery).closed_eq.trans ((Reworked.add hadd).closed.trans hopen)
  have hin : switch ∈ found.graph.raw.triples := by
    rw [hinsert]
    exact List.mem_append_right _ (List.mem_singleton_self _)
  obtain ⟨hraw, hfirst⟩ := firstPass_delete hopen' hin hdelete
  refine ⟨?_, hfirst⟩
  dsimp only
  rw [hraw, Store.erase, if_pos ((Store.contains_iff _ _).mpr hin)]
  change found.graph.raw.triples.erase switch = _
  rw [hinsert, List.erase_append_right _ hnew, List.erase_cons_head, List.append_nil]

/-! ## Passes -/

theorem passes_deduce {fuel fresh : Nat} {reply : Reply (Option Fault)}
    (h : g.deduce fuel fresh = some reply) : reply.graph.data = g.data ∧
      Reaches g.data (.new g.base g.settings g.schema.installed) reply.graph.forward ∧
      reply.graph.forward.Planned g.data := by
  cases deduces h with
  | idle => exact ⟨rfl, .refl, planned_new _ _ _ _⟩
  | pass _ hrun =>
      have hpasses := passes_run (planned_new _ _ _ _) hrun
      exact ⟨rfl, hpasses.reaches, hpasses.planned⟩

theorem passes_add (hplan : g.forward.Planned g.data) {fuel fresh : Nat} {t : Triple}
    {reply : Reply (Except Fault Bool)} (h : g.add fuel t fresh = some reply) :
    reply.graph = g ∨ (t.isGround ∧ reply.graph.data = ⟨g.raw.insert t, g.schema.graph⟩ ∧
      Reaches reply.graph.data g.forward reply.graph.forward ∧
      reply.graph.forward.Planned reply.graph.data) := by
  have hplan' : g.forward.Planned ⟨g.raw.insert t, g.schema.graph⟩ :=
    hplan.assert fun u hu => (Store.mem_insert _ _ _).mpr (.inl hu)
  have hin : t ∈ (g.raw.insert t).triples := (Store.mem_insert _ _ _).mpr (.inr rfl)
  cases adds h with
  | closed | refused | known => exact .inl rfl
  | idle hground => exact .inr ⟨hground, rfl, .refl, hplan'⟩
  | pass hground _ _ ho | broken hground _ _ ho =>
      have hpasses := passes_addTriple hplan' hin ho
      exact .inr ⟨hground, rfl, hpasses.reaches, hpasses.planned⟩

/-- The forward engines, as each pass left them, by which a graph has been worked out. -/
inductive WorkedOut (r : Reasoner) : InferenceGraph → List Engine → Prop where
  | bind {fuel fresh fresh' : Nat} {data : Store} {g : InferenceGraph}
      (h : r.bind fuel data fresh = some (.ok g, fresh')) : WorkedOut r g [g.forward]
  | add {g : InferenceGraph} {es : List Engine} (h : WorkedOut r g es) {fuel fresh : Nat}
      {t : Triple} {reply : Reply (Except Fault Bool)} (hadd : g.add fuel t fresh = some reply) :
      WorkedOut r reply.graph (es ++ [reply.graph.forward])
  | delete {g : InferenceGraph} {es : List Engine} (h : WorkedOut r g es) {fuel fresh : Nat}
      {t : Triple} {reply : Reply (Except Fault Bool)}
      (hdelete : g.delete fuel t fresh = some reply) :
      WorkedOut r reply.graph (if g.raw.contains t then [reply.graph.forward] else es)
  | read {g g' : InferenceGraph} {es : List Engine} (h : WorkedOut r g es)
      (hread : OnlyTables g g') : WorkedOut r g' es

/-- The engine of a graph keeps what all passes have noted. -/
structure Accounts (g : InferenceGraph) (es : List Engine) : Prop where
  opened : g.closed = false
  planned : g.forward.Planned g.data
  remembers : ∀ e ∈ es, Remembers e g.forward

theorem Accounts.of_deduce {fuel fresh : Nat} {reply : Reply (Option Fault)}
    (hopen : g.closed = false) (h : g.deduce fuel fresh = some reply) :
    reply.graph.Accounts [reply.graph.forward] := by
  have hself : ∀ e ∈ [reply.graph.forward], Remembers e reply.graph.forward := fun e he => by
    rw [List.mem_singleton.mp he]
    exact .refl _
  obtain ⟨hdata, -, hplanned⟩ := passes_deduce h
  exact ⟨(Reworked.deduce h).closed.trans hopen, hdata ▸ hplanned, hself⟩

theorem Accounts.onlyTables {es : List Engine} (h : g.Accounts es) (hg : OnlyTables g g') :
    g'.Accounts es := by
  obtain ⟨t, rfl⟩ := hg
  exact ⟨h.opened, h.planned, h.remembers⟩

theorem Accounts.add {es : List Engine} (h : g.Accounts es) {fuel fresh : Nat} {t : Triple}
    {reply : Reply (Except Fault Bool)} (hreply : g.add fuel t fresh = some reply) :
    reply.graph.Accounts (es ++ [reply.graph.forward]) := by
  have hopen := (Reworked.add hreply).closed.trans h.opened
  have hkept : reply.graph.forward.Planned reply.graph.data ∧
      Remembers g.forward reply.graph.forward := by
    rcases passes_add h.planned hreply with hsame | ⟨-, -, hreaches, hplanned⟩
    · rw [hsame]
      exact ⟨h.planned, .refl _⟩
    · exact ⟨hplanned, hreaches.remembers⟩
  refine ⟨hopen, hkept.1, fun e he => ?_⟩
  rcases List.mem_append.mp he with he | he
  · exact (h.remembers e he).trans hkept.2
  · rw [List.mem_singleton.mp he]
    exact .refl _

theorem Accounts.delete {es : List Engine} (h : g.Accounts es) {fuel fresh : Nat} {t : Triple}
    {reply : Reply (Except Fault Bool)} (hreply : g.delete fuel t fresh = some reply) :
    reply.graph.Accounts (if g.raw.contains t then [reply.graph.forward] else es) := by
  have hopen : { g with raw := g.raw.erase t }.closed = false := h.opened
  cases deletes hreply with
  | closed hclosed =>
      rw [h.opened] at hclosed
      cases hclosed
  | unknown hout =>
      rw [hout, if_neg Bool.false_ne_true]
      exact h
  | anew hin hdeduce =>
      rw [hin, if_pos rfl]
      exact (Accounts.of_deduce hopen hdeduce).onlyTables (onlyTables_reset _)
  | broken hin hdeduce =>
      rw [hin, if_pos rfl]
      exact .of_deduce hopen hdeduce

theorem WorkedOut.accounts {es : List Engine} (h : WorkedOut r g es) : g.Accounts es := by
  induction h with
  | bind h =>
      obtain ⟨reply, hdeduce, rfl⟩ := deduce_of_bind_ok h
      exact .of_deduce rfl hdeduce
  | add _ hadd ih => exact ih.add hadd
  | delete _ hdelete ih => exact ih.delete hdelete
  | read _ hread ih => exact ih.onlyTables hread

/-- What a report says about the engines' work.  There is a warning about the limit on firings just
when the schema pass or the engine that is left behind has met it, and a warning for each nested
rule that this engine could not install, and for no other.  If no rule waits for validation, the
engine has not been touched, and what any pass has noted by which the graph has been worked out is
reported.  If some rule does, the triple that switches validation on has been taken back: the engine
that is left has begun anew on the triples asserted before. -/
theorem validate_accounts {es : List Engine} (hg : WorkedOut r g es) {fuel fresh : Nat}
    {reply : Reply Report} (h : g.validate fuel fresh = some reply) :
    (thresholdEntry g.settings ∈ reply.value.entries ↔
      g.schema.stats.thresholdExceeded ∨ reply.graph.forward.stats.thresholdExceeded) ∧
    (∀ message, rejectionEntry message ∈ reply.value.entries ↔
      ∃ f ∈ reply.graph.forward.rejected, f.message = message) ∧
    (g.base.usesPredicate (.iri Vocabulary.validation) = false →
      reply.graph.forward = g.forward ∧
      (∀ e ∈ es, e.stats.thresholdExceeded → thresholdEntry g.settings ∈ reply.value.entries) ∧
      ∀ e ∈ es, ∀ f ∈ e.rejected, rejectionEntry f.message ∈ reply.value.entries) ∧
    (g.base.usesPredicate (.iri Vocabulary.validation) = true →
      validationSwitch fresh ∉ g.raw.triples →
        reply.graph.raw.triples = g.raw.triples ∧ reply.graph.FirstPass fuel) := by
  have haccounts := hg.accounts
  obtain ⟨hthreshold, hrejection⟩ := validate_reports haccounts.opened h
  obtain ⟨checked, hgraph, hchecked, -, -⟩ := validate_eq haccounts.opened h
  refine ⟨hthreshold, hrejection, fun hidle => ?_, fun hwaits hnew => ?_⟩
  · rw [hidle, if_neg Bool.false_ne_true] at hchecked
    have hsame : reply.graph.forward = g.forward := by
      rw [hgraph]
      exact forward_check hchecked
    rw [hsame] at hthreshold hrejection
    refine ⟨hsame, fun e he hmet => ?_, fun e he f hf => ?_⟩
    · exact hthreshold.mpr (.inr ((haccounts.remembers e he).exceeded hmet))
    · exact (hrejection _).mpr ⟨f, (haccounts.remembers e he).rejected.subset hf, rfl⟩
  · rw [hwaits, if_pos rfl] at hchecked
    rw [hgraph]
    exact firstPass_checkWith haccounts.opened rfl hnew hchecked

/-! ## Instances -/

def suspectRule : Rule :=
  .make [.pattern ⟨.named "x", .iri "scores", .named "y"⟩]
    [.pattern ⟨.named "x", .iri Vocabulary.violation, .plain "suspect"⟩] .forward

def suspect : CheckedRule :=
  ⟨suspectRule, [.pattern ⟨.var ⟨"x", 0⟩, .iri "scores", .var ⟨"y", 1⟩⟩]⟩

def inspectRule : Rule :=
  .make [.pattern ⟨.named "b", .iri Vocabulary.validation, .named "on"⟩,
      .pattern ⟨.named "x", .iri "scores", .named "y"⟩]
    [.pattern ⟨.named "x", .iri Vocabulary.violation, .plain "suspect"⟩] .forward

def inspect : CheckedRule :=
  ⟨inspectRule, [.pattern ⟨.var ⟨"b", 0⟩, .iri Vocabulary.validation, .var ⟨"on", 1⟩⟩,
    .pattern ⟨.var ⟨"x", 2⟩, .iri "scores", .var ⟨"y", 3⟩⟩]⟩

def hasty (c : CheckedRule) : Reasoner :=
  ⟨(RuleBase.empty .standard).add c, { ruleThreshold := 1 }, .empty⟩

theorem build_hasty :
    Reasoner.build .standard [suspectRule] { ruleThreshold := 1 } = .ok (hasty suspect) ∧
      Reasoner.build .standard [inspectRule] { ruleThreshold := 1 } = .ok (hasty inspect) :=
  ⟨rfl, rfl⟩

def annScores : Triple := ⟨.iri "ann", .iri "scores", .iri "low"⟩

def bobScores : Triple := ⟨.iri "bob", .iri "scores", .iri "high"⟩

def scoresBound (c : CheckedRule) : Option InferenceGraph :=
  match (hasty c).bind 100 (.ofList [annScores, bobScores]) 0 with
  | some (.ok g, _) => some g
  | _ => none

def annSuspect : Triple := ⟨.iri "ann", .iri Vocabulary.violation, .plain "suspect"⟩

theorem workedOut_scoresBound {c : CheckedRule} (h : scoresBound c = some g) :
    WorkedOut (hasty c) g [g.forward] := by
  unfold scoresBound at h
  split at h
  · rename_i hbind
    cases h
    exact .bind hbind
  · cases h

/-- The rule that does not wait for validation met the limit when the graph was bound, and the
report says so. -/
theorem scores_accounted : ∃ g reply, scoresBound suspect = some g ∧
    g.forward.stats.thresholdExceeded ∧ g.validate 100 0 = some reply ∧
    thresholdEntry g.settings ∈ reply.value.entries := by
  have hrun : (scoresBound suspect).any fun g => g.forward.stats.thresholdExceeded &&
      !g.base.usesPredicate (.iri Vocabulary.validation) && (g.validate 100 0).isSome := by
    decide +kernel
  simp only [Option.any_eq_true, Bool.and_eq_true, Bool.not_eq_true'] at hrun
  obtain ⟨g, hg, ⟨hmet, hidle⟩, hvalidate⟩ := hrun
  obtain ⟨reply, hreply⟩ := Option.isSome_iff_exists.mp hvalidate
  obtain ⟨-, -, hreports, -⟩ := validate_accounts (workedOut_scoresBound hg) hreply
  exact ⟨g, reply, hg, hmet, hreply,
    (hreports hidle).2.1 g.forward (List.mem_singleton_self _) hmet⟩

/-- The rule that waits for validation meets the limit while validation is on: Bob goes unnoticed.
The report has the one violation, which is drawn from that pass, and no warning. -/
theorem scores_overlooked :
    Reasoner.build .standard [inspectRule] { ruleThreshold := 1 } = .ok (hasty inspect) ∧
    ∃ g on found reply, WorkedOut (hasty inspect) g [g.forward] ∧
    g.add 100 (validationSwitch 0) 1 = some on ∧
    on.graph.forward.stats.thresholdExceeded = true ∧
    on.graph.query 100 violations on.fresh = some found ∧ found.value = .ok [annSuspect] ∧
    g.validate 100 0 = some reply ∧ reply.value.entries = [Entry.ofViolation annSuspect] ∧
    ∀ e ∈ reply.value.entries, e.kind ≠ "threshold" := by
  have hrun : (scoresBound inspect).any fun g => (g.add 100 (validationSwitch 0) 1).any fun on =>
      on.graph.forward.stats.thresholdExceeded &&
        ((on.graph.query 100 violations on.fresh).any fun found =>
          (found.value == .ok [annSuspect] && (g.validate 100 0).any fun reply =>
            decide (reply.value.entries = [Entry.ofViolation annSuspect]))) := by
    decide +kernel
  simp only [Option.any_eq_true, Bool.and_eq_true, beq_iff_eq, decide_eq_true_eq] at hrun
  obtain ⟨g, hg, on, hon, hmet, found, hfound, hvalue, reply, hreply, hentries⟩ := hrun
  refine ⟨build_hasty.2, g, on, found, reply, workedOut_scoresBound hg, hon, hmet, hfound, hvalue,
    hreply, hentries, fun e he => ?_⟩
  rw [hentries, List.mem_singleton] at he
  rw [he]
  decide

def unsoundRule : Rule :=
  .make [.pattern ⟨.named "x", .iri "sends", .named "y"⟩]
    [.rule (.make [] [.pattern ⟨.named "x", .iri "hears", .named "z"⟩] .backward)] .forward

def unsound : CheckedRule :=
  ⟨unsoundRule, [.pattern ⟨.var ⟨"x", 0⟩, .iri "sends", .var ⟨"y", 1⟩⟩]⟩

def unsoundReasoner : Reasoner := ⟨(RuleBase.empty .standard).add unsound, {}, .empty⟩

def unsoundBound : Option InferenceGraph :=
  match unsoundReasoner.bindSchema 100 (.ofList [letter]) 0 with
  | some (.ok r, fresh) =>
    match r.bind 100 .empty fresh with
    | some (.ok g, _) => some g
    | _ => none
  | _ => none

theorem schema_rejection_overlooked :
    Reasoner.build .standard [unsoundRule] {} = .ok unsoundReasoner ∧
    (((Engine.new unsoundReasoner.base unsoundReasoner.settings .empty).run 100
      ⟨.ofList [letter], .empty⟩ 0).any fun o => o.engine.rejected.length = 1) ∧
    ∃ g reply, unsoundBound = some g ∧ g.validate 100 0 = some reply ∧
      reply.value.entries = [] := by
  have hrun : unsoundBound.any fun g => (g.validate 100 0).any fun reply =>
      decide (reply.value.entries = []) := by
    decide +kernel
  simp only [Option.any_eq_true, decide_eq_true_eq] at hrun
  obtain ⟨g, hg, reply, hreply, hentries⟩ := hrun
  exact ⟨rfl, by decide +kernel, g, reply, hg, hreply, hentries⟩

end InferenceGraph

end TripleRules
