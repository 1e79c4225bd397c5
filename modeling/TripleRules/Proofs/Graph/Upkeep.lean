import TripleRules.Proofs.Graph.Operations
import TripleRules.Proofs.Reasoner
import TripleRules.Proofs.Tabling.Runs

/-!
# Upkeep of graphs

A graph keeps track of its asserted triples.  The forward engine is up to date with them after every
update, whichever way it got there, and the tables were reached in the context that the graph has
now: every update that changes the context forgets all goals.
-/

namespace TripleRules

open Forward Forward.Engine

def Reasoner.Worked (r : Reasoner) (d : Data) (e : Engine) : Prop :=
  (r.settings.mode.runsForward = true ∧ Current r.base r.schema.installed d e) ∨
    (r.settings.mode.runsForward = false ∧ e = .new r.base r.settings r.schema.installed)

/-- A reasoner as it is built, without a limit on firings, the rules of which are guarded. -/
structure Reasoner.Fair (r : Reasoner) : Prop where
  built : r.Built
  guarded : r.base.Guarded
  unlimited : r.settings.ruleThreshold = 0

theorem Reasoner.Fair.fits {r : Reasoner} (h : r.Fair) :
    r.schema.Fits r.base r.settings.mode.runsForward :=
  h.built.fits h.guarded h.unlimited

namespace InferenceGraph

structure Serves (g : InferenceGraph) (r : Reasoner) : Prop where
  base : g.base = r.base
  settings : g.settings = r.settings
  schema : g.schema = r.schema
  opened : g.closed = false
  raw : g.raw.Built

theorem serves_unworked {r : Reasoner} {data : Store} (hdata : data.Built) :
    (r.unworked data).Serves r := ⟨rfl, rfl, rfl, rfl, hdata⟩

/-- A graph of a reasoner is up to date with its asserted triples. -/
structure Tracks (g : InferenceGraph) (r : Reasoner) : Prop extends Serves g r where
  worked : r.Worked g.data g.forward
  tables : Tabling.Reached g.context g.tables

variable {g : InferenceGraph} {r : Reasoner}

theorem reached_reset (g : InferenceGraph) : Tabling.Reached g.reset.context g.reset.tables :=
  ⟨g.tables.reset, Tabling.Tables.blank_reset g.tables, .refl⟩

theorem Tracks.withTables (h : g.Tracks r) {t : Tabling.Tables}
    (ht : Tabling.Reached g.context t) : Tracks { g with tables := t } r :=
  ⟨⟨h.base, h.settings, h.schema, h.opened, h.raw⟩, h.worked, ht⟩

theorem Tracks.reset (h : g.Tracks r) : g.reset.Tracks r := h.withTables (reached_reset g)

theorem Tracks.current (h : g.Tracks r) (hforward : r.settings.mode.runsForward = true) :
    Current r.base r.schema.installed g.data g.forward := by
  rcases h.worked with ⟨-, hcur⟩ | ⟨hidle, -⟩
  · exact hcur
  · rw [hforward] at hidle
    cases hidle

theorem Tracks.forward_eq (h : g.Tracks r) (hidle : r.settings.mode.runsForward = false) :
    g.forward = .new r.base r.settings r.schema.installed := by
  rcases h.worked with ⟨hforward, -⟩ | ⟨-, heq⟩
  · rw [hidle] at hforward
    cases hforward
  · exact heq

/-! ## Updates -/

theorem Serves.starts (h : g.Serves r) (hr : r.Fair) :
    Starts r.base g.data (Entails r.base g.data) := by
  refine ⟨hr.built.base, hr.guarded.forward, h.raw, ?_, Entailed.isModel⟩
  rw [InferenceGraph.data, h.schema]
  exact hr.fits.graph

theorem Serves.deduce (h : g.Serves r) (hr : r.Fair) {fuel fresh : Nat}
    {reply : Reply (Option Fault)} (hreply : g.deduce fuel fresh = some reply) :
    reply.value = none ∧ ∃ e, reply.graph = { g with forward := e } ∧ r.Worked g.data e := by
  have hengine : Engine.new g.base g.settings g.schema.installed =
      .new r.base r.settings r.schema.installed := by rw [h.base, h.settings, h.schema]
  cases deduces hreply with
  | @pass hmode o hrun =>
      rw [hengine] at hrun
      rw [h.settings] at hmode
      obtain ⟨hfault, hcur⟩ := current_of_run (h.starts hr) hr.unlimited hr.fits.built hrun
      exact ⟨hfault, o.engine, rfl, .inl ⟨hmode, hcur⟩⟩
  | idle hmode =>
      rw [h.settings] at hmode
      exact ⟨rfl, _, rfl, .inr ⟨hmode, hengine⟩⟩

theorem tracks_bind (hr : r.Fair) {data : Store} (hdata : data.Built) {fuel fresh fresh' : Nat}
    {bound : Except Fault InferenceGraph} (h : r.bind fuel data fresh = some (bound, fresh')) :
    ∃ g, bound = .ok g ∧ g.raw = data ∧ g.Tracks r := by
  obtain ⟨reply, hreply, rfl⟩ := deduce_of_bind h
  have hserves : (r.unworked data).Serves r := serves_unworked hdata
  obtain ⟨hvalue, e, hgraph, hworked⟩ := hserves.deduce hr hreply
  rw [hvalue, hgraph]
  exact ⟨_, rfl, rfl, ⟨rfl, rfl, rfl, rfl, hdata⟩, hworked,
    ⟨Tabling.Tables.new r.settings, Tabling.Tables.blank_new r.settings, .refl⟩⟩

theorem Tracks.enlarges {t : Triple} (h : g.Tracks r) (ht : t.isGround) :
    Enlarges g.data { g with raw := g.raw.insert t }.data t :=
  ⟨fun u => Store.mem_insert g.raw t u, rfl, h.raw.insert ht⟩

theorem Tracks.add (h : g.Tracks r) {fuel fresh : Nat} {t : Triple}
    {reply : Reply (Except Fault Bool)} (hreply : g.add fuel t fresh = some reply) :
    reply.graph.Tracks r := by
  cases adds hreply with
  | closed | refused | known => exact h
  | idle hground _ hmode =>
      rw [h.settings] at hmode
      exact ⟨⟨h.base, h.settings, h.schema, h.opened, h.raw.insert hground⟩,
        .inr ⟨hmode, h.forward_eq hmode⟩, reached_reset _⟩
  | pass hground _ hmode hadd _ =>
      rw [h.settings] at hmode
      obtain ⟨-, hcur⟩ := (h.current hmode).addTriple (h.enlarges hground) hadd
      exact ⟨⟨h.base, h.settings, h.schema, h.opened, h.raw.insert hground⟩, .inl ⟨hmode, hcur⟩,
        reached_reset _⟩
  | broken hground _ hmode hadd hfault =>
      rw [h.settings] at hmode
      obtain ⟨hnone, -⟩ := (h.current hmode).addTriple (h.enlarges hground) hadd
      rw [hnone] at hfault
      cases hfault

theorem Tracks.delete (h : g.Tracks r) (hr : r.Fair) {fuel fresh : Nat} {t : Triple}
    {reply : Reply (Except Fault Bool)} (hreply : g.delete fuel t fresh = some reply) :
    reply.graph.Tracks r := by
  have hserves : Serves { g with raw := g.raw.erase t } r :=
    ⟨h.base, h.settings, h.schema, h.opened, h.raw.erase t⟩
  cases deletes hreply with
  | closed | unknown => exact h
  | anew _ hdeduce _ =>
      obtain ⟨-, e, hgraph, hworked⟩ := hserves.deduce hr hdeduce
      rw [hgraph]
      exact ⟨⟨h.base, h.settings, h.schema, h.opened, h.raw.erase t⟩, hworked, reached_reset _⟩
  | broken _ hdeduce hfault =>
      rw [(hserves.deduce hr hdeduce).1] at hfault
      cases hfault

/-! ## What a graph holds -/

theorem Tracks.contains_iff (h : g.Tracks r) (hr : r.Fair)
    (hforward : r.settings.mode.runsForward = true) (t : Triple) :
    g.sources.contains t ↔ Entails r.base g.data t := by
  apply (h.current hforward).contains_iff
  rw [InferenceGraph.data, h.schema]
  exact hr.fits.closed hforward

theorem Tracks.mem_installed_iff (h : g.Tracks r) (hr : r.Fair)
    (hforward : r.settings.mode.runsForward = true) (c : CheckedRule) :
    c ∈ g.forward.installed.rules ↔
      c ∈ r.schema.installed.rules ∨ Installs r.base (Entails r.base g.data) c := by
  apply (h.current hforward).mem_installed_iff
  · rw [InferenceGraph.data, h.schema]
    exact hr.fits.closed hforward
  · rw [InferenceGraph.data, h.schema]
    exact hr.fits.installs hforward
  · exact hr.fits.checks

/-- A graph holds what follows from its asserted triples and the schema by the forward rules. -/
theorem Tracks.contains_iff_derives (h : g.Tracks r) (hr : r.Fair) (t : Triple) :
    g.sources.contains t ↔
      r.Derives (fun u => u ∈ g.raw.triples ∨ u ∈ r.schema.graph.triples) t := by
  by_cases hforward : r.settings.mode.runsForward
  · rw [h.contains_iff hr hforward, Reasoner.derives_iff hforward, Entails, InferenceGraph.data,
      h.schema]
  · rw [Bool.not_eq_true] at hforward
    rw [Sources.contains_iff, Reasoner.derives_idle hforward]
    simp [InferenceGraph.sources, h.forward_eq hforward, h.schema, Engine.new, Store.empty]

/-- The rules installed in a graph come from the schema or from what the graph holds. -/
theorem Tracks.mem_installed_iff_installsFrom (h : g.Tracks r) (hr : r.Fair) (c : CheckedRule) :
    c ∈ g.forward.installed.rules ↔ c ∈ r.schema.installed.rules ∨
      r.InstallsFrom (fun u => u ∈ g.raw.triples ∨ u ∈ r.schema.graph.triples) c := by
  by_cases hforward : r.settings.mode.runsForward
  · have hentails : Entails r.base g.data =
        r.Derives fun u => u ∈ g.raw.triples ∨ u ∈ r.schema.graph.triples := by
      funext t
      rw [← h.contains_iff_derives hr, ← h.contains_iff hr hforward]
    rw [h.mem_installed_iff hr hforward, Reasoner.InstallsFrom, and_iff_right hforward, hentails]
  · rw [Bool.not_eq_true] at hforward
    rw [h.forward_eq hforward, Reasoner.InstallsFrom, hforward]
    simp [Engine.new]

section Same

variable {g' : InferenceGraph}

/-- What a graph holds depends on its asserted triples alone. -/
theorem Tracks.contains_congr (h : g.Tracks r) (h' : g'.Tracks r) (hr : r.Fair)
    (hsame : ∀ t, t ∈ g'.raw.triples ↔ t ∈ g.raw.triples) (t : Triple) :
    g.sources.contains t ↔ g'.sources.contains t := by
  rw [h.contains_iff_derives hr, h'.contains_iff_derives hr]
  exact Reasoner.derives_congr (fun u => or_congr_left (hsame u).symm) t

theorem Tracks.installed_congr (h : g.Tracks r) (h' : g'.Tracks r) (hr : r.Fair)
    (hsame : ∀ t, t ∈ g'.raw.triples ↔ t ∈ g.raw.triples) (c : CheckedRule) :
    c ∈ g.forward.installed.rules ↔ c ∈ g'.forward.installed.rules := by
  rw [h.mem_installed_iff_installsFrom hr, h'.mem_installed_iff_installsFrom hr]
  apply or_congr_right
  apply Reasoner.installsFrom_congr
  exact Reasoner.derives_congr fun u => or_congr_left (hsame u).symm

theorem Tracks.entails_congr (h : g.Tracks r) (h' : g'.Tracks r) (hr : r.Fair)
    (hsame : ∀ t, t ∈ g'.raw.triples ↔ t ∈ g.raw.triples) (t : Triple) :
    g.context.Entails t ↔ g'.context.Entails t := by
  refine Entailed.congr (h.contains_congr h' hr hsame) (fun c => ?_) t
  simp only [InferenceGraph.context, RuleView.Has, InferenceGraph.rules, h.base, h'.base,
    h.settings, h'.settings, h.installed_congr h' hr hsame]

end Same

/-! ## What goals are proved from -/

theorem Tracks.built_context (h : g.Tracks r) (hr : r.Fair) : g.context.Built := by
  have hschema : g.schema.graph.Built := by
    rw [h.schema]
    exact hr.fits.graph
  have hforward : g.forward.deductions.Built ∧ g.forward.installed.Built := by
    rcases h.worked with ⟨-, hcur⟩ | ⟨-, heq⟩
    · exact ⟨hcur.steady.stores.deductions, hcur.built⟩
    · rw [heq]
      exact ⟨.empty, hr.fits.built⟩
  refine ⟨⟨h.raw, hschema, hforward.1⟩, fun s hs => ?_, hforward.2⟩
  simp only [InferenceGraph.context, InferenceGraph.rules, h.base] at hs
  split at hs
  · cases hs
    exact hr.built.base.consistent.backward
  · cases hs

theorem Tracks.guarded_context (h : g.Tracks r) (hr : r.Fair) : g.context.Guarded := by
  rintro c (⟨s, hs, hc⟩ | hc)
  · simp only [InferenceGraph.context, InferenceGraph.rules, h.base] at hs
    split at hs
    · cases hs
      exact hr.guarded.backward c hc
    · cases hs
  · rcases h.worked with ⟨-, hcur⟩ | ⟨-, heq⟩
    · rcases hcur.added c hc with hc | hc
      · exact hr.fits.guarded c hc
      · exact hr.guarded.installs hr.built.base hc
    · simp only [InferenceGraph.context, InferenceGraph.rules, heq] at hc
      exact hr.fits.guarded c hc

end InferenceGraph

end TripleRules
