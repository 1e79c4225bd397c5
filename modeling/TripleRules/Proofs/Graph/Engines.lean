import TripleRules.Proofs.Forward.Policy
import TripleRules.Proofs.Graph.Forgetting
import TripleRules.Proofs.Graph.Validation
import TripleRules.Proofs.Tabling.Policy

/-!
# The engines of a reasoner

Every forward engine of a reasoner begins on a schema or on asserted triples and goes on in passes;
more triples may be asserted in between.  The tables of a graph are worked on in the context that
the graph has at the time.  A policy that suits the reasoner holds in all of them, whatever has been
done to a graph and whether or not it failed.
-/

namespace TripleRules

open Forward Forward.Engine

/-! ## Rules in force -/

theorem RuleBase.Built.checksOut {b : RuleBase} (h : b.Built) :
    (∀ c ∈ b.forward, c.rule.check b.known = .ok c) ∧ b.backward.ChecksOut b.known := by
  induction h with
  | empty known =>
      exact ⟨fun c hc => absurd hc List.not_mem_nil, fun c hc => absurd hc List.not_mem_nil⟩
  | @add b _ source _ r hr ih =>
      obtain rfl : r.rule = source := (Rule.check_ok hr).2.2
      rw [RuleBase.known_add]
      refine ⟨fun c hc => ?_, fun c hc => ?_⟩
      · rcases (RuleBase.mem_forward_add b r c).mp hc with hc | ⟨-, rfl⟩
        · exact ih.1 c hc
        · exact hr
      · rw [RuleBase.backward_add] at hc
        split at hc
        · rcases RuleSet.mem_of_mem_insert hc with hc | rfl
          · exact ih.2 c hc
          · exact hr
        · exact ih.2 c hc

theorem Forward.Engine.Chained.checksOut {d : Data} {e e' : Engine} (h : Chained d e e')
    (hinstalled : e.installed.ChecksOut e.base.known) : e'.installed.ChecksOut e'.base.known := by
  induction h with
  | noted hbase _ hsame =>
      rw [hbase, hsame]
      exact hinstalled
  | deduce e f t =>
      unfold Engine.deduce
      split <;> exact hinstalled
  | install e r env =>
      unfold Engine.install
      split
      · exact hinstalled
      · rename_i q hcheck
        split
        · exact hinstalled
        · intro c hc
          rcases RuleSet.mem_of_mem_insert hc with hc | rfl
          · exact hinstalled c hc
          · rwa [(Rule.check_ok hcheck).2.2]
  | trans _ _ ih ih' => exact ih' (ih hinstalled)

namespace Reasoner

variable {r : Reasoner} {d : Data} {e : Engine}

theorem Built.checksOut (h : r.Built) : r.schema.installed.ChecksOut r.base.known := by
  induction h with
  | build _ h =>
      obtain ⟨b, -, rfl⟩ := build_ok h
      exact SchemaClosure.checksOut_empty b
  | @bindSchema r r' _ fuel fresh fresh' schema _ hbind =>
      cases bindsSchema hbind with
      | plain => exact SchemaClosure.checksOut_empty r.base
      | worked _ hrun _ =>
          have hchained := (leadsTo_call (c := .run) hrun).grown
          have hchecks := hchained.checksOut (SchemaClosure.checksOut_empty r.base)
          rw [hchained.extends.base] at hchecks
          exact hchecks

/-! ## Forward engines -/

/-- The forward engines of a reasoner, with the triples that they read.  They begin on a schema or
on asserted triples, triples are asserted later on, and passes are made, which may be broken off. -/
inductive Chains (r : Reasoner) : Data → Engine → Prop where
  | schema {schema : Store} (h : schema.Built) :
      Chains r ⟨schema, .empty⟩ (.new r.base r.settings .empty)
  | start {raw : Store} (h : raw.Built) :
      Chains r ⟨raw, r.schema.graph⟩ (.new r.base r.settings r.schema.installed)
  | assert {raw schema : Store} {e : Engine} (h : Chains r ⟨raw, schema⟩ e) {t : Triple}
      (ht : t.isGround) : Chains r ⟨raw.insert t, schema⟩ e
  | pass {d : Data} {e e' : Engine} (h : Chains r d e) (hpass : Reaches d e e') : Chains r d e'

theorem Chains.base (h : r.Chains d e) : e.base = r.base := by
  induction h with
  | schema | start => rfl
  | assert _ _ ih => exact ih
  | pass _ hpass ih => exact hpass.chained.extends.base.trans ih

theorem Chains.checksOut (h : r.Chains d e) (hr : r.Built) :
    e.installed.ChecksOut r.base.known := by
  rw [← h.base]
  induction h with
  | schema => exact SchemaClosure.checksOut_empty r.base
  | start => exact hr.checksOut
  | assert _ _ ih => exact ih
  | pass _ hpass ih => exact hpass.chained.checksOut ih

end Reasoner

namespace InferenceGraph

variable {g g' : InferenceGraph} {r : Reasoner}

/-- A graph belongs to a reasoner, its forward engine is one of the reasoner's, and what the engine
has planned is at hand. -/
structure Engaged (g : InferenceGraph) (r : Reasoner) : Prop extends Serves g r where
  chains : r.Chains g.data g.forward
  planned : g.forward.Planned g.data

theorem Engaged.onlyTables (h : g.Engaged r) (hg : OnlyTables g g') : g'.Engaged r := by
  obtain ⟨t, rfl⟩ := hg
  exact ⟨h.toServes.reworked (OnlyTables.reworked ⟨t, rfl⟩), h.chains, h.planned⟩

theorem Serves.engaged_deduce (h : g.Serves r) {fuel fresh : Nat} {reply : Reply (Option Fault)}
    (hreply : g.deduce fuel fresh = some reply) : reply.graph.Engaged r := by
  have hserves := h.reworked (.deduce hreply)
  have hstart : r.Chains g.data (.new g.base g.settings g.schema.installed) := by
    rw [InferenceGraph.data, h.base, h.settings, h.schema]
    exact .start h.raw
  obtain ⟨hdata, hreaches, hplanned⟩ := passes_deduce hreply
  exact ⟨hserves, hdata ▸ hstart.pass hreaches, hdata ▸ hplanned⟩

theorem engaged_bind {fuel fresh fresh' : Nat} {data : Store} (hdata : data.Built)
    (h : r.bind fuel data fresh = some (.ok g, fresh')) : g.Engaged r := by
  obtain ⟨reply, hdeduce, rfl⟩ := deduce_of_bind_ok h
  exact (serves_unworked hdata).engaged_deduce hdeduce

theorem Engaged.add (h : g.Engaged r) {fuel fresh : Nat} {t : Triple}
    {reply : Reply (Except Fault Bool)} (hreply : g.add fuel t fresh = some reply) :
    reply.graph.Engaged r := by
  rcases passes_add h.planned hreply with hsame | ⟨hground, hdata, hreaches, hplanned⟩
  · rw [hsame]
    exact h
  · have hasserted : r.Chains reply.graph.data g.forward := by
      rw [hdata]
      exact h.chains.assert hground
    exact ⟨h.toServes.reworked (.add hreply), hasserted.pass hreaches, hplanned⟩

theorem Engaged.delete (h : g.Engaged r) {fuel fresh : Nat} {t : Triple}
    {reply : Reply (Except Fault Bool)} (hreply : g.delete fuel t fresh = some reply) :
    reply.graph.Engaged r := by
  have herased : Serves { g with raw := g.raw.erase t } r :=
    ⟨h.base, h.settings, h.schema, h.opened, h.raw.erase t⟩
  cases deletes hreply with
  | closed | unknown => exact h
  | anew _ hdeduce => exact (herased.engaged_deduce hdeduce).onlyTables (onlyTables_reset _)
  | broken _ hdeduce => exact herased.engaged_deduce hdeduce

/-! ## Histories -/

/-- Updates, readings and resets are all that is ever done to a graph. -/
theorem History.keeps {P : InferenceGraph → Prop}
    (hbind : ∀ {fuel fresh fresh' data g}, data.Built →
      r.bind fuel data fresh = some (.ok g, fresh') → P g)
    (hadd : ∀ {g fuel fresh t reply}, History r g → P g → g.add fuel t fresh = some reply →
      P reply.graph)
    (hdelete : ∀ {g fuel fresh t reply}, History r g → P g → g.delete fuel t fresh = some reply →
      P reply.graph)
    (hfind : ∀ {g} pattern, History r g → P g → P (g.find pattern).2)
    (hnext : ∀ {g fuel fresh answers reply}, History r g → P g →
      g.next fuel answers fresh = some reply → P reply.graph)
    (hreset : ∀ {g}, P g → P g.reset) (h : History r g) : P g := by
  have hquery : ∀ {g fuel fresh pattern reply}, History r g → P g →
      g.query fuel pattern fresh = some reply → P reply.graph := by
    intro g fuel fresh pattern reply hg hP hreply
    refine (query_keeps (P := fun g => History r g ∧ P g)
        ⟨hg.act (.find pattern), hfind pattern hg hP⟩
      (fun g answers fuel fresh reply hg hreply => ?_) hreply).2
    exact ⟨hg.1.act (.next hreply), hnext hg.1 hg.2 hreply⟩
  induction h with
  | bind hdata h => exact hbind hdata h
  | @act g g' h ha ih =>
      cases ha with
      | add hreply => exact hadd h ih hreply
      | delete hreply => exact hdelete h ih hreply
      | find pattern => exact hfind pattern h ih
      | next hreply => exact hnext h ih hreply
      | query hreply => exact hquery h ih hreply
      | contains hreply =>
          obtain ⟨item, hread, heq⟩ := next_of_contains hreply
          rw [heq]
          exact hnext (h.act (.find _)) (hfind _ h ih) hread
      | @validate _ _ reply hreply =>
          have hvalidates := validates hreply
          generalize reply.graph = g' at hvalidates ⊢
          cases hvalidates with
          | closed => exact ih
          | checked hfound => exact hquery h ih hfound
          | switched hon hfound hoff =>
              have hgon := h.act (.add hon)
              have hgfound := hgon.act (.query hfound)
              exact hdelete hgfound (hquery hgon (hadd h ih hon) hfound) hoff
      | reset => exact hreset ih

theorem History.engaged (h : History r g) : g.Engaged r :=
  h.keeps engaged_bind (fun _ h hreply => h.add hreply) (fun _ h hreply => h.delete hreply)
    (fun pattern _ hg => hg.onlyTables (onlyTables_find _ pattern))
    (fun _ hg hnext => hg.onlyTables (onlyTables_next hnext))
    (fun hg => hg.onlyTables (onlyTables_reset _))

theorem History.check_of_has (h : History r g) (hr : r.Built) {c : CheckedRule}
    (hc : g.context.rules.Has c) : c.rule.check r.base.known = .ok c := by
  rcases hc with ⟨s, hs, hc⟩ | hc
  · simp only [InferenceGraph.context, InferenceGraph.rules, h.serves.base] at hs
    split at hs
    · cases hs
      exact hr.base.checksOut.2 c hc
    · cases hs
  · exact h.engaged.chains.checksOut hr c hc

end InferenceGraph

def InferenceGraph.TakesUp (g : InferenceGraph) (c : Tabling.Cursor) : Prop :=
  ∃ target limit fresh m, Tabling.Passes g.context g.tables target limit fresh m ∧ m.TakesUp c

/-! ## Policies -/

namespace Policy

variable {P : Policy} {r : Reasoner} {d : Data} {e : Engine} {g : InferenceGraph}

/-- A policy asks no more than that rules have passed the checks and that triples are ground. -/
structure Suits (P : Policy) (r : Reasoner) : Prop where
  record : P.record = r.settings.derivationLogging
  rule : ∀ c : CheckedRule, c.rule.check r.base.known = .ok c → P.rule c
  triple : ∀ log t, t.isGround → P.triple log t

theorem Suits.covers (hP : P.Suits r) (hr : r.Built) (h : r.Chains d e) : P.Covers d e := by
  have hnew : ∀ {d : Data} (installed : RuleSet), d.raw.Built → d.schema.Built →
      P.Covers d (.new r.base r.settings installed) := by
    intro d installed hraw hschema
    have hsources : ((Engine.new r.base r.settings installed).sources d).Built :=
      ⟨hraw, hschema, .empty⟩
    exact ⟨hr.base, hsources, hP.record.symm, fun c hc => hP.rule c (hr.base.checksOut.1 c hc),
      fun t ht => hP.triple _ t (hsources.isGround ht), DerivationLog.all_empty _⟩
  induction h with
  | schema h => exact hnew .empty h .empty
  | start h => exact hnew _ h hr.schema_built.1
  | @assert raw schema e _ t ht ih =>
      have hsources : (e.sources ⟨raw.insert t, schema⟩).Built :=
        ⟨ih.sources.raw.insert ht, ih.sources.schema, ih.sources.deductions⟩
      exact ⟨ih.base, hsources, ih.record, ih.rule,
        fun u hu => hP.triple _ u (hsources.isGround hu), ih.log⟩
  | pass _ hpass ih => exact ih.reaches hpass

theorem Suits.supplies (hP : P.Suits r) (hr : r.Built) (hg : InferenceGraph.History r g) :
    P.Supplies g.context := by
  have hbuilt := (hg.stocked hr).context_built hr
  exact ⟨hbuilt, fun c hc => hP.rule c (hg.check_of_has hr hc),
    fun log t ht => hP.triple log t (hbuilt.sources.isGround ht)⟩

theorem Governs.reset {t : Tabling.Tables} (h : P.Governs t) : P.Governs t.reset :=
  .blank t.blank_reset h.record rfl

theorem Governs.next (h : P.Governs g.tables) (hctx : P.Supplies g.context) {fuel fresh : Nat}
    {answers : Answers} {reply : Reply (Item × Answers)}
    (hreply : g.next fuel answers fresh = some reply) : P.Governs reply.graph.tables := by
  have hnexts := InferenceGraph.nexts hreply
  generalize reply.graph = g' at hnexts ⊢
  cases hnexts with
  | off => exact h
  | pumped hpump hdone => exact (h.pump hctx hpump).2 hdone
  | @broken _ o hpump => exact .blank o.tables.blank_reset (h.pump hctx hpump).1 rfl

/-- What suits a reasoner holds in the tables of its graphs, whatever has been done to them. -/
theorem Suits.governs (hP : P.Suits r) (hr : r.Built) (hg : InferenceGraph.History r g) :
    P.Governs g.tables := by
  have hupdate : ∀ {g : InferenceGraph} {fuel fresh t reply}, P.Governs g.tables →
      (g.add fuel t fresh = some reply ∨ g.delete fuel t fresh = some reply) →
        P.Governs reply.graph.tables := by
    intro g fuel fresh t reply h hreply
    rcases InferenceGraph.tables_update hreply with htables | htables
    · rw [htables]
      exact h
    · rw [htables]
      exact h.reset
  refine hg.keeps (P := fun g => P.Governs g.tables) (fun {_ _ _ _ g} _ hbind => ?_)
    (fun _ h hreply => hupdate h (.inl hreply)) (fun _ h hreply => hupdate h (.inr hreply))
    (fun {g} pattern hg h => ?_) (fun hg h hreply => h.next (hP.supplies hr hg) hreply) .reset
  · rw [InferenceGraph.tables_bind hbind]
    exact .blank (Tabling.Tables.blank_new r.settings) hP.record.symm rfl
  · rcases InferenceGraph.graph_find g pattern with heq | heq
    · rw [heq]
      exact h
    · rw [heq]
      exact h.ask (hP.supplies hr hg) pattern

theorem Suits.takesUp (hP : P.Suits r) (hr : r.Built) (hg : InferenceGraph.History r g)
    {c : Tabling.Cursor} (hc : g.TakesUp c) : ∃ log, P.cursor log c := by
  obtain ⟨target, limit, fresh, m, hm, hup⟩ := hc
  have hgoverns := (hP.governs hr hg).passes (hP.supplies hr hg) hm
  exact ⟨m.tables.log, hgoverns.toHolds.takesUp hgoverns.linked hup⟩

end Policy

end TripleRules
