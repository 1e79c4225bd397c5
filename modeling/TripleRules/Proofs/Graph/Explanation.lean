import Mathlib.Logic.Relation
import TripleRules.Proofs.Forward.Explanation
import TripleRules.Proofs.Graph.Calls
import TripleRules.Proofs.Graph.Delivery
import TripleRules.Proofs.Tabling.Explanation

/-!
# Explanations

When derivations are recorded, whatever rules have added to a graph has an explanation that holds
up.  The first derivation of a triple is an instance of its rule, and first derivations lead from
premise to premise back to what was asserted, without going in a circle.  Three logs take part: that
of the schema, that of the forward engine, and that of the goals.  Each is founded on what the ones
before it hold.
-/

namespace TripleRules

open Forward Forward.Engine
open DerivationLog (IsPremise)

structure Reasoner.Explains (r : Reasoner) : Prop where
  built : r.Built
  grounds : ∀ b ∈ r.base.known.builtins, b.Grounds
  records : r.settings.derivationLogging = true

namespace Reasoner

variable {r r' : Reasoner} {d : Data} {e : Engine}

theorem Explains.isReliable (h : r.Explains) {c : CheckedRule}
    (hc : c.rule.check r.base.known = .ok c) : c.IsReliable :=
  ⟨⟨_, hc⟩, fun b args hcall => h.grounds b (CheckedRule.takesAll hc b args hcall).1⟩

theorem Explains.chains (h : r.Explains) (he : r.Chains d e) : Engine.Explains d e := by
  have hrules : ∀ c ∈ r.base.forward, c.IsReliable := fun c hc =>
    h.isReliable (h.built.base.checksOut.1 c hc)
  induction he with
  | schema hschema => exact .new h.built.base hrules h.records .empty hschema .empty
  | start hraw => exact .new h.built.base hrules h.records _ hraw h.built.schema_built.1
  | assert _ ht ih => exact ih.assert ht
  | pass _ hpass ih => exact ih.reaches hpass

/-! ## The log of a schema -/

/-- A reasoner with the schema that it was bound to last, as it was given. -/
inductive BoundTo : Reasoner → Store → Prop where
  | build {known : Registry} {rules : List Rule} {settings : ReasoningSettings} {r : Reasoner}
      (hrules : ∀ q ∈ rules, q.IsMade) (h : build known rules settings = .ok r) : BoundTo r .empty
  | bindSchema {r r' : Reasoner} (h : r.Built) {fuel fresh fresh' : Nat} {schema : Store}
      (hschema : schema.Built) (hbind : r.bindSchema fuel schema fresh = some (.ok r', fresh')) :
      BoundTo r' schema

theorem BoundTo.built {schema : Store} (h : r.BoundTo schema) : r.Built := by
  cases h with
  | build hrules h => exact .build hrules h
  | bindSchema h hschema hbind => exact .bindSchema h hschema hbind

end Reasoner

structure SchemaClosure.Explains (s : SchemaClosure) (schema : Store) : Prop where
  founded : s.log.Founded (· ∈ schema.triples)
  mem_graph : ∀ t, t ∈ s.graph.triples ↔ t ∈ schema.triples ∨ t ∈ s.log.conclusions

theorem SchemaClosure.explains_plain (schema : Store) : (plain schema).Explains schema :=
  ⟨.empty _, fun _ => (or_iff_left List.not_mem_nil).symm⟩

theorem Reasoner.BoundTo.explains {r : Reasoner} {schema : Store} (h : r.BoundTo schema)
    (hgrounds : ∀ b ∈ r.base.known.builtins, b.Grounds)
    (hrecords : r.settings.derivationLogging = true) : r.schema.Explains schema := by
  cases h with
  | build hrules h =>
      obtain ⟨b, -, rfl⟩ := build_ok h
      exact SchemaClosure.explains_plain .empty
  | bindSchema h hschema hbind =>
      obtain ⟨hbase, hsettings⟩ := bindSchema_keeps hbind
      rw [hbase] at hgrounds
      rw [hsettings] at hrecords
      cases bindsSchema hbind with
      | plain => exact SchemaClosure.explains_plain schema
      | worked _ hrun _ =>
          have hpasses := passes_run (planned_new _ _ _ _) hrun
          have hexplains := Explains.chains ⟨h, hgrounds, hrecords⟩
            ((Chains.schema hschema).pass hpasses.reaches)
          refine ⟨hexplains.founded.mono fun t ht => ht.resolve_right List.not_mem_nil, fun t => ?_⟩
          rw [SchemaClosure.ofEngine, Store.mem_insertAll, ← hexplains.conclusions]

/-! ## The log of the goals -/

namespace InferenceGraph

variable {r : Reasoner} {g : InferenceGraph}

theorem supplies_explaining (hr : r.Explains) (hg : History r g) :
    (Policy.explaining g.context.Gives).Supplies g.context :=
  ⟨(hg.stocked hr.built).context_built hr.built,
    fun _ hc => hr.isReliable (hg.check_of_has hr.built hc), fun _ _ ht => .inl ht⟩

theorem explains_next (hr : r.Explains) (hg : History r g) (hpoised : g.Poised)
    (h : g.tables.Explains g.context) {fuel fresh : Nat} {answers : Answers}
    {reply : Reply (Item × Answers)} (hreply : g.next fuel answers fresh = some reply) :
    reply.graph.tables.Explains reply.graph.context := by
  have hsupplies := supplies_explaining hr hg
  have hnexts := nexts hreply
  generalize reply.graph = g' at hnexts ⊢
  cases hnexts with
  | off => exact h
  | @broken _ o hpump =>
      exact .blank o.tables.blank_reset (h.governs.pump hsupplies hpump).1 rfl
  | @pumped _ o hpump hfault =>
      obtain ⟨hctx, horder⟩ := hpoised
      obtain ⟨m, hm, hdone⟩ := Tabling.exists_passes_of_pump hpump
      have hexplains : m.tables.Explains g.context := h.passes hsupplies (fun m hm =>
        have hm := Tabling.InOrder.persistent.toSustained.passes horder hm
        ⟨hm.factsFirst, hm.kept.recorded⟩) hm
      rcases Tabling.step_done hdone with
        ⟨-, htables, -⟩ | ⟨_, _, _, _, _, _, _, f, _, _, _, _, hf⟩
      · dsimp only
        rw [htables]
        exact hexplains
      · rw [hfault] at hf
        cases hf

theorem explains_update (h : g.tables.Explains g.context) {fuel fresh : Nat} {t : Triple}
    {reply : Reply (Except Fault Bool)}
    (hupdate : g.add fuel t fresh = some reply ∨ g.delete fuel t fresh = some reply)
    (hsame : reply.graph = g ∨ reply.graph.reset = reply.graph) :
    reply.graph.tables.Explains reply.graph.context := by
  rcases hsame with hsame | hreset
  · rw [hsame]
    exact h
  · have hrecord : reply.graph.tables.record = true := by
      rcases tables_update hupdate with htables | htables
      · rw [htables]
        exact h.governs.record
      · rw [htables]
        exact h.governs.record
    have htables : reply.graph.tables.reset = reply.graph.tables :=
      congrArg InferenceGraph.tables hreset
    rw [← htables]
    exact .blank reply.graph.tables.blank_reset hrecord rfl

/-- Whatever is done to a graph, as long as no builtin gives up in an update, the tables explain
their answers. -/
theorem Unbroken.explains (hg : Unbroken r g) (hr : r.Explains) :
    g.tables.Explains g.context := by
  induction hg with
  | @bind fuel fresh fresh' data g _ hbind =>
      rw [tables_bind hbind]
      exact .blank (Tabling.Tables.blank_new r.settings) hr.records rfl
  | @add g h fuel fresh t reply hadd hvalue ih =>
      have horderly := h.history.orderly
      refine explains_update ih (.inl hadd) ?_
      rcases tables_add hadd with hsame | ⟨-, hreset⟩ | ⟨⟨f, hf⟩, -⟩
      · exact .inl hsame
      · exact .inr hreset
      · rcases horderly.add_error hadd hf with ⟨-, hsame, -⟩ | ⟨hfatal, -⟩
        · exact .inl hsame
        · exact absurd hfatal (hvalue f hf)
  | @delete g h fuel fresh t reply hdelete hvalue ih =>
      have horderly := h.history.orderly
      refine explains_update ih (.inr hdelete) ?_
      rcases tables_delete hdelete with hsame | ⟨-, hreset⟩ | ⟨⟨f, hf⟩, -⟩
      · exact .inl hsame
      · exact .inr hreset
      · exact absurd (horderly.delete_error hdelete hf).1 (hvalue f hf)
  | @find g h pattern ih =>
      have hsupplies := supplies_explaining hr h.history
      rcases graph_find g pattern with heq | heq
      · rw [heq]
        exact ih
      · rw [heq]
        exact ih.ask hsupplies pattern
  | next h hnext ih => exact explains_next hr h.history (h.poised hr.built) ih hnext
  | @reset g h ih => exact .blank g.tables.blank_reset ih.governs.record rfl

/-! ## All logs as one -/

def log (g : InferenceGraph) : DerivationLog :=
  (g.schema.log.append g.forward.log).append g.tables.log

/-- What rules have added to a graph: what has been deduced from the data or from the schema, and
answers that are not at hand. -/
def Derives (g : InferenceGraph) (schema : Store) (t : Triple) : Prop :=
  t ∈ g.forward.deductions.triples ∨ (t ∈ g.schema.graph.triples ∧ t ∉ schema.triples) ∨
    ∃ id, t ∈ (g.tables.generator id).results ∧ g.sources.contains t = false

/-- The logs of a graph are one founded log, which has all that rules have added. -/
structure Founded (g : InferenceGraph) (schema : Store) : Prop where
  derivations : ∀ t, g.derivations t = g.log.get t
  founded : g.log.Founded fun t => t ∈ g.raw.triples ∨ t ∈ schema.triples
  mem_conclusions : ∀ t, g.Derives schema t → t ∈ g.log.conclusions
  apart : ∀ t, g.sources.contains t → g.tables.log.get t = []

section Stores

variable {schema : Store} (hschema : g.schema.Explains schema)
  (hforward : Engine.Explains g.data g.forward)

include hschema hforward

/-- What the forward engine has concluded is neither in the schema nor concluded from it. -/
theorem schema_apart_forward : ∀ t ∈ g.forward.log.conclusions,
    t ∉ schema.triples ∧ t ∉ g.schema.log.conclusions := by
  intro t ht
  rw [hforward.conclusions] at ht
  have hout : t ∉ g.schema.graph.triples := hforward.apart t ht
  rw [hschema.mem_graph, not_or] at hout
  exact hout

/-- What is at hand has been asserted, is in the schema as it was given, or has been concluded. -/
theorem gives_iff (t : Triple) : g.context.Gives t ↔
    (t ∈ g.raw.triples ∨ t ∈ schema.triples) ∨
      t ∈ (g.schema.log.append g.forward.log).conclusions := by
  have hcontains : g.context.Gives t ↔ t ∈ g.raw.triples ∨ t ∈ g.schema.graph.triples ∨
      t ∈ g.forward.deductions.triples := Sources.contains_iff _ _
  rw [hcontains, hschema.mem_graph, DerivationLog.conclusions_append, List.mem_append,
    hforward.conclusions, or_assoc, or_assoc]

theorem founded_stores : (g.schema.log.append g.forward.log).Founded fun t =>
    t ∈ g.raw.triples ∨ t ∈ schema.triples := by
  refine hschema.founded.append hforward.founded (fun t ht => .inr ht) (fun t ht => ?_)
    (schema_apart_forward hschema hforward)
  rcases ht with ht | ht
  · exact .inl (.inl ht)
  · exact ((hschema.mem_graph t).mp ht).imp_left .inr

end Stores

theorem Unbroken.founded {schema : Store} (hr : r.BoundTo schema)
    (hgrounds : ∀ b ∈ r.base.known.builtins, b.Grounds)
    (hrecords : r.settings.derivationLogging = true) (hg : Unbroken r g) : g.Founded schema := by
  have hexplains : r.Explains := ⟨hr.built, hgrounds, hrecords⟩
  have hschema : g.schema.Explains schema := by
    rw [hg.history.serves.schema]
    exact hr.explains hgrounds hrecords
  have hforward := hexplains.chains hg.history.engaged.chains
  have htables := hg.explains hexplains
  have hgives := gives_iff hschema hforward
  have hbeyond : ∀ t ∈ g.tables.log.conclusions, ¬ (t ∈ g.raw.triples ∨ t ∈ schema.triples) ∧
      t ∉ (g.schema.log.append g.forward.log).conclusions := fun t ht =>
    not_or.mp fun hin => htables.apart t ht ((hgives t).mpr hin)
  refine ⟨fun t => ?_, ?_, fun t ht => ?_, fun t ht => ?_⟩
  · rw [InferenceGraph.log, DerivationLog.get_append fun t ht => (hbeyond t ht).2,
      DerivationLog.get_append fun t ht => (schema_apart_forward hschema hforward t ht).2]
    rfl
  · exact (founded_stores hschema hforward).append htables.founded (fun _ ht => ht)
      (fun t ht => (hgives t).mp ht) hbeyond
  · rw [InferenceGraph.log, DerivationLog.conclusions_append, DerivationLog.conclusions_append,
      List.mem_append, List.mem_append]
    rcases ht with ht | ⟨ht, hout⟩ | ⟨id, ht, hout⟩
    · exact .inl (.inr (hforward.conclusions ▸ ht))
    · exact .inl (.inl (((hschema.mem_graph t).mp ht).resolve_left hout))
    · exact .inr (htables.mem_conclusions ht fun hin => by
        rw [Tabling.Context.Gives, InferenceGraph.context, hout] at hin
        exact Bool.false_ne_true hin)
  · exact DerivationLog.get_eq_nil fun hin => htables.apart t hin ht

def Explained (g : InferenceGraph) (p t : Triple) : Prop := IsPremise p (g.derivations t)

/-- Explanations are proofs, and they come to an end.  When derivations are recorded, for any rules
and any builtins that give ground values, in every graph that no update has been broken off on: what
has been deduced from the data or from the schema, and every answer that is not at hand, has a
derivation, the first of which concludes it and is an instance of its rule.  Premises cannot be
followed through first derivations without end, so never back to where they were met.  Where they
end, a triple was asserted, or is in the schema as it was given, or is concluded by a rule without
patterns.  Nothing at hand is recorded as an answer. -/
theorem explanations_founded {schema : Store} (hr : r.BoundTo schema)
    (hgrounds : ∀ b ∈ r.base.known.builtins, b.Grounds)
    (hrecords : r.settings.derivationLogging = true) (hg : Unbroken r g) :
    (∀ t, g.Derives schema t →
      ∃ d ds, g.derivations t = d :: ds ∧ d.conclusion = t ∧ d.IsInstance) ∧
    WellFounded g.Explained ∧
    (∀ t u, g.Derives schema t → Relation.ReflTransGen (fun t p => g.Explained p t) t u →
      (∀ p, ¬ g.Explained p u) → u ∈ g.raw.triples ∨ u ∈ schema.triples ∨
        ∃ d ds, g.derivations u = d :: ds ∧ d.conclusion = u ∧ d.rule.isAxiom) ∧
    ∀ t, g.sources.contains t → g.tables.log.get t = [] := by
  have hfounded := hg.founded hr hgrounds hrecords
  have hsame : ∀ p t, g.Explained p t ↔ IsPremise p (g.log.get t) := fun p t => by
    rw [Explained, hfounded.derivations]
  simp only [hfounded.derivations, hsame]
  refine ⟨fun t ht => ?_, ?_, fun t u ht hpath hend => ?_, hfounded.apart⟩
  · obtain ⟨d, ds, hget, hconclusion, hinstance, -⟩ :=
      hfounded.founded.exists_first (hfounded.mem_conclusions t ht)
    exact ⟨d, ds, hget, hconclusion, hinstance⟩
  · have hwf := hfounded.founded.wellFounded
    exact Subrelation.wf (fun h => (hsame _ _).mp h) hwf
  · rw [← or_assoc]
    exact hfounded.founded.ends (hfounded.mem_conclusions t ht) hpath hend

/-! ## An instance -/

def parentRule : Rule :=
  .make [.pattern ⟨.named "x", .iri "parent", .named "y"⟩]
    [.pattern ⟨.named "x", .iri "ancestor", .named "y"⟩] .forward

def ancestorRule : Rule :=
  .make [.pattern ⟨.named "x", .iri "ancestor", .named "y"⟩,
      .pattern ⟨.named "y", .iri "ancestor", .named "z"⟩]
    [.pattern ⟨.named "x", .iri "ancestor", .named "z"⟩] .backward

def parent : CheckedRule := ⟨parentRule, [.pattern ⟨.var ⟨"x", 0⟩, .iri "parent", .var ⟨"y", 1⟩⟩]⟩

def ancestor : CheckedRule :=
  ⟨ancestorRule, [.pattern ⟨.var ⟨"x", 0⟩, .iri "ancestor", .var ⟨"y", 1⟩⟩,
    .pattern ⟨.var ⟨"y", 1⟩, .iri "ancestor", .var ⟨"z", 2⟩⟩]⟩

def genealogist : Reasoner :=
  ⟨((RuleBase.empty .standard).add parent).add ancestor, { derivationLogging := true }, .empty⟩

theorem boundTo_genealogist : genealogist.BoundTo .empty := by
  have hmade : ∀ q ∈ [parentRule, ancestorRule], q.IsMade := by
    intro q hq
    rcases List.mem_cons.mp hq with rfl | hq
    · exact ⟨_, _, _, none, rfl⟩
    · rw [List.mem_singleton.mp hq]
      exact ⟨_, _, _, none, rfl⟩
  have hbuild : Reasoner.build .standard [parentRule, ancestorRule] { derivationLogging := true } =
      .ok genealogist := rfl
  exact .build hmade hbuild

def family : Store :=
  .ofList [⟨.iri "ann", .iri "parent", .iri "bob"⟩, ⟨.iri "bob", .iri "parent", .iri "cid"⟩]

def familyAsked : Option InferenceGraph :=
  match genealogist.bind 100 family 0 with
  | some (.ok g, fresh) =>
    (g.query 100 ⟨.named "x", .iri "ancestor", .named "y"⟩ fresh).map (·.graph)
  | _ => none

def annOfCid : Triple := ⟨.iri "ann", .iri "ancestor", .iri "cid"⟩

/-- That Ann is an ancestor is an answer, and it has an explanation: a first derivation that is an
instance of its rule, from which one gets back to what was asserted. -/
theorem family_explained : ∃ g, familyAsked = some g ∧ g.Derives .empty annOfCid ∧
    (∃ d ds, g.derivations annOfCid = d :: ds ∧ d.rule = ancestorRule ∧ d.conclusion = annOfCid ∧
      d.IsInstance) ∧ WellFounded g.Explained := by
  have hrun : familyAsked.any fun g =>
      decide (annOfCid ∈ (g.tables.generator 0).results) && !g.sources.contains annOfCid &&
        ((g.derivations annOfCid).head?.map (·.rule) == some ancestorRule) := by
    decide +kernel
  simp only [Option.any_eq_true, Bool.and_eq_true, Bool.not_eq_true', beq_iff_eq,
    decide_eq_true_eq] at hrun
  obtain ⟨g, hg, ⟨hanswer, hout⟩, hrule⟩ := hrun
  have hunbroken : Unbroken genealogist g := by
    unfold familyAsked at hg
    split at hg
    · rename_i hbind
      obtain ⟨reply, hquery, rfl⟩ := Option.map_eq_some_iff.mp hg
      exact (Unbroken.bind (Store.built_ofList (by decide)) hbind).query hquery
    · cases hg
  have hderives : g.Derives .empty annOfCid := .inr (.inr ⟨0, hanswer, hout⟩)
  obtain ⟨hderived, hwf, -⟩ := explanations_founded boundTo_genealogist
    (fun _ hb => Builtin.grounds_standard hb) rfl hunbroken
  obtain ⟨d, ds, hget, hconclusion, hinstance⟩ := hderived annOfCid hderives
  rw [hget] at hrule
  exact ⟨g, hg, hderives, ⟨d, ds, hget, Option.some.inj hrule, hconclusion, hinstance⟩, hwf⟩

end InferenceGraph

end TripleRules
