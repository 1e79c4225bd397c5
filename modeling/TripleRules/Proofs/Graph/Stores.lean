import TripleRules.Proofs.Forward.Trace
import TripleRules.Proofs.Graph.History

/-!
# What a graph holds

Reading answers leaves everything but the tables of a graph as it is.  Updates write the stores and
the installed rules, but only through insertions, removals and what the forward engine concludes, so
these stay filed whatever is done to the graph, and whether or not an update fails.
-/

namespace TripleRules

open Forward Forward.Engine

namespace InferenceGraph

variable {g g' g'' : InferenceGraph} {r : Reasoner}

/-! ## Reading -/

/-- Two graphs differ in their tables at most. -/
def OnlyTables (g g' : InferenceGraph) : Prop := ∃ t, g' = { g with tables := t }

namespace OnlyTables

theorem refl (g : InferenceGraph) : OnlyTables g g := ⟨g.tables, rfl⟩

theorem trans (h : OnlyTables g g') (h' : OnlyTables g' g'') : OnlyTables g g'' := by
  obtain ⟨t, rfl⟩ := h
  obtain ⟨t', rfl⟩ := h'
  exact ⟨t', rfl⟩

theorem closed_eq (h : OnlyTables g g') : g'.closed = g.closed := by
  obtain ⟨t, rfl⟩ := h
  rfl

end OnlyTables

theorem onlyTables_reset (g : InferenceGraph) : OnlyTables g g.reset := ⟨_, rfl⟩

theorem onlyTables_find (g : InferenceGraph) (pattern : Triple) :
    OnlyTables g (g.find pattern).2 := by
  rcases graph_find g pattern with heq | heq
  · rw [heq]
    exact .refl g
  · rw [heq]
    exact ⟨_, rfl⟩

theorem onlyTables_next {fuel fresh : Nat} {answers : Answers} {reply : Reply (Item × Answers)}
    (h : g.next fuel answers fresh = some reply) : OnlyTables g reply.graph := by
  have hnexts := nexts h
  generalize reply.graph = g' at hnexts ⊢
  cases hnexts with
  | off => exact .refl g
  | pumped | broken => exact ⟨_, rfl⟩

theorem onlyTables_query {fuel fresh : Nat} {pattern : Triple}
    {reply : Reply (Except Fault (List Triple))} (h : g.query fuel pattern fresh = some reply) :
    OnlyTables g reply.graph :=
  query_keeps (onlyTables_find g pattern)
    (fun _ _ _ _ _ hread hnext => hread.trans (onlyTables_next hnext)) h

theorem onlyTables_contains {fuel fresh : Nat} {t : Triple} {reply : Reply (Except Fault Bool)}
    (h : g.contains fuel t fresh = some reply) : OnlyTables g reply.graph := by
  obtain ⟨item, hnext, heq⟩ := next_of_contains h
  rw [heq]
  exact (onlyTables_find g t).trans (onlyTables_next hnext)

/-! ## Updates -/

/-- What can become of a graph: its rules, its settings and its schema stay as they are, and what is
filed in it stays filed. -/
structure Reworked (g g' : InferenceGraph) : Prop where
  base : g'.base = g.base
  settings : g'.settings = g.settings
  schema : g'.schema = g.schema
  closed : g'.closed = g.closed
  raw : g.raw.Built → g'.raw.Built
  forward : g.schema.installed.Built → g.forward.deductions.Built ∧ g.forward.installed.Built →
    g'.forward.deductions.Built ∧ g'.forward.installed.Built

theorem OnlyTables.reworked (h : OnlyTables g g') : Reworked g g' := by
  obtain ⟨t, rfl⟩ := h
  exact ⟨rfl, rfl, rfl, rfl, fun h => h, fun _ h => h⟩

namespace Reworked

theorem trans (h : Reworked g g') (h' : Reworked g' g'') : Reworked g g'' where
  base := h'.base.trans h.base
  settings := h'.settings.trans h.settings
  schema := h'.schema.trans h.schema
  closed := h'.closed.trans h.closed
  raw := h'.raw ∘ h.raw
  forward hschema hforward := h'.forward (h.schema ▸ hschema) (h.forward hschema hforward)

theorem reset (h : Reworked g g') : Reworked g g'.reset := h.trans (onlyTables_reset g').reworked

theorem withRaw (g : InferenceGraph) {raw : Store} (h : g.raw.Built → raw.Built) :
    Reworked g { g with raw := raw } :=
  ⟨rfl, rfl, rfl, rfl, h, fun _ h => h⟩

theorem chain {d : Data} {e : Engine} (h : Chained d g.forward e) :
    Reworked g { g with forward := e } :=
  ⟨rfl, rfl, rfl, rfl, fun h => h, fun _ hforward => h.built hforward.1 hforward.2⟩

theorem restart {d : Data} {e : Engine}
    (h : Chained d (.new g.base g.settings g.schema.installed) e) :
    Reworked g { g with forward := e } :=
  ⟨rfl, rfl, rfl, rfl, fun h => h, fun hschema _ => h.built .empty hschema⟩

theorem deduce {fuel fresh : Nat} {reply : Reply (Option Fault)}
    (h : g.deduce fuel fresh = some reply) : Reworked g reply.graph := by
  cases deduces h with
  | idle => exact restart (.refl (d := g.data) _)
  | pass _ hrun => exact restart (leadsTo_call (c := .run) hrun).grown

theorem add {fuel fresh : Nat} {t : Triple} {reply : Reply (Except Fault Bool)}
    (h : g.add fuel t fresh = some reply) : Reworked g reply.graph := by
  have hasserted : t.isGround → Reworked g { g with raw := g.raw.insert t } := fun hground =>
    withRaw g fun h => h.insert hground
  cases adds h with
  | closed | refused | known => exact (OnlyTables.refl g).reworked
  | idle hground => exact (hasserted hground).reset
  | pass hground _ _ ho =>
      exact ((hasserted hground).trans (chain (leadsTo_call (c := .addTriple t) ho).grown)).reset
  | broken hground _ _ ho =>
      exact (hasserted hground).trans (chain (leadsTo_call (c := .addTriple t) ho).grown)

theorem delete {fuel fresh : Nat} {t : Triple} {reply : Reply (Except Fault Bool)}
    (h : g.delete fuel t fresh = some reply) : Reworked g reply.graph := by
  have herased : Reworked g { g with raw := g.raw.erase t } := withRaw g fun h => h.erase t
  cases deletes h with
  | closed | unknown => exact (OnlyTables.refl g).reworked
  | anew _ hdeduce => exact (herased.trans (deduce hdeduce)).reset
  | broken _ hdeduce => exact herased.trans (deduce hdeduce)

theorem validate {fuel fresh : Nat} {reply : Reply Validity.Report}
    (h : g.validate fuel fresh = some reply) : Reworked g reply.graph := by
  have hvalidates := validates h
  generalize reply.graph = g' at hvalidates ⊢
  cases hvalidates with
  | closed => exact (OnlyTables.refl g).reworked
  | checked hquery => exact (onlyTables_query hquery).reworked
  | switched hon hquery hoff =>
      exact ((add hon).trans (onlyTables_query hquery).reworked).trans (delete hoff)

end Reworked

/-- Whatever is done to a graph, whether or not it fails, leaves it in order. -/
theorem Acts.reworked (h : Acts g g') : Reworked g g' := by
  cases h with
  | add hadd => exact .add hadd
  | delete hdelete => exact .delete hdelete
  | find pattern => exact (onlyTables_find g pattern).reworked
  | next hnext => exact (onlyTables_next hnext).reworked
  | query hquery => exact (onlyTables_query hquery).reworked
  | contains hcontains => exact (onlyTables_contains hcontains).reworked
  | validate hvalidate => exact .validate hvalidate
  | reset => exact (onlyTables_reset g).reworked

/-! ## Histories -/

structure Stocked (g : InferenceGraph) (r : Reasoner) : Prop extends Serves g r where
  deductions : g.forward.deductions.Built
  installed : g.forward.installed.Built

theorem Serves.reworked (h : g.Serves r) (hg : Reworked g g') : g'.Serves r where
  base := hg.base.trans h.base
  settings := hg.settings.trans h.settings
  schema := hg.schema.trans h.schema
  opened := hg.closed.trans h.opened
  raw := hg.raw h.raw

theorem Stocked.reworked (h : g.Stocked r) (hr : r.Built) (hg : Reworked g g') : g'.Stocked r := by
  have hinstalled : g.schema.installed.Built := by
    rw [h.schema]
    exact hr.schema_built.2
  obtain ⟨hdeductions, hinstalled'⟩ := hg.forward hinstalled ⟨h.deductions, h.installed⟩
  exact ⟨h.toServes.reworked hg, hdeductions, hinstalled'⟩

theorem reworked_bind {fuel fresh fresh' : Nat} {data : Store}
    (h : r.bind fuel data fresh = some (.ok g, fresh')) :
    Reworked (r.unworked data) g := by
  obtain ⟨reply, hdeduce, rfl⟩ := deduce_of_bind_ok h
  exact .deduce hdeduce

theorem History.serves (h : History r g) : g.Serves r := by
  induction h with
  | bind hdata hbind => exact (serves_unworked hdata).reworked (reworked_bind hbind)
  | act _ ha ih => exact ih.reworked ha.reworked

theorem History.stocked (h : History r g) (hr : r.Built) : g.Stocked r := by
  induction h with
  | bind hdata hbind =>
      have hstart : (r.unworked _).Stocked r :=
        ⟨serves_unworked hdata, .empty, hr.schema_built.2⟩
      exact hstart.reworked hr (reworked_bind hbind)
  | act _ ha ih => exact ih.reworked hr ha.reworked

theorem Stocked.context_built (h : g.Stocked r) (hr : r.Built) : g.context.Built := by
  have hschema : g.schema.graph.Built := by
    rw [h.schema]
    exact hr.schema_built.1
  refine ⟨⟨h.raw, hschema, h.deductions⟩, fun s hs => ?_, h.installed⟩
  simp only [InferenceGraph.context, InferenceGraph.rules, h.base] at hs
  split at hs
  · cases hs
    exact hr.base.consistent.backward
  · cases hs

end InferenceGraph

end TripleRules
