import TripleRules.Graph.Validation

/-!
# Operations on graphs

What comes out when something is done to a graph and comes to an end, case by case: it is refused,
or there is nothing to do, or an engine goes to work, and then all goes well or a builtin gives up
on the way.  Whatever is said of graphs is proved from these cases.
-/

namespace TripleRules

open Forward

/-- The graph that a reasoner begins with, before any rule has been at work on the data. -/
def Reasoner.unworked (r : Reasoner) (data : Store) : InferenceGraph where
  base := r.base
  settings := r.settings
  schema := r.schema
  raw := data
  forward := .new r.base r.settings r.schema.installed
  tables := .new r.settings
  closed := false

namespace InferenceGraph

variable {g : InferenceGraph} {fuel fresh : Nat} {t : Triple}

/-! ## Updates -/

inductive Deduces (g : InferenceGraph) (fuel fresh : Nat) : Reply (Option Fault) → Prop where
  | idle (hmode : g.settings.mode.runsForward = false) :
      Deduces g fuel fresh
        ⟨none, { g with forward := .new g.base g.settings g.schema.installed }, fresh⟩
  | pass (hmode : g.settings.mode.runsForward = true) {o : Outcome}
      (hrun : (Engine.new g.base g.settings g.schema.installed).run fuel g.data fresh = some o) :
      Deduces g fuel fresh ⟨o.fault, { g with forward := o.engine }, o.fresh⟩

theorem deduces {reply : Reply (Option Fault)} (h : g.deduce fuel fresh = some reply) :
    g.Deduces fuel fresh reply := by
  unfold deduce at h
  dsimp only at h
  split at h
  · rename_i hmode
    rw [Option.map_eq_some_iff] at h
    obtain ⟨o, hrun, rfl⟩ := h
    exact .pass hmode hrun
  · rename_i hmode
    cases h
    exact .idle (Bool.eq_false_iff.mpr hmode)

inductive Adds (g : InferenceGraph) (fuel : Nat) (t : Triple) (fresh : Nat) :
    Reply (Except Fault Bool) → Prop where
  | closed (hclosed : g.closed = true) : Adds g fuel t fresh ⟨.error .graphClosed, g, fresh⟩
  | refused (hground : t.isGround = false) : Adds g fuel t fresh ⟨.error (.notGround t), g, fresh⟩
  | known (hground : t.isGround) (hin : g.raw.contains t = true) :
      Adds g fuel t fresh ⟨.ok false, g, fresh⟩
  | idle (hground : t.isGround) (hnew : g.raw.contains t = false)
      (hmode : g.settings.mode.runsForward = false) :
      Adds g fuel t fresh ⟨.ok true, { g with raw := g.raw.insert t }.reset, fresh⟩
  | pass (hground : t.isGround) (hnew : g.raw.contains t = false)
      (hmode : g.settings.mode.runsForward = true) {o : Outcome}
      (ho : g.forward.addTriple fuel ⟨g.raw.insert t, g.schema.graph⟩ t fresh = some o)
      (hdone : o.fault = none) :
      Adds g fuel t fresh
        ⟨.ok true, { g with raw := g.raw.insert t, forward := o.engine }.reset, o.fresh⟩
  | broken (hground : t.isGround) (hnew : g.raw.contains t = false)
      (hmode : g.settings.mode.runsForward = true) {o : Outcome}
      (ho : g.forward.addTriple fuel ⟨g.raw.insert t, g.schema.graph⟩ t fresh = some o)
      {f : Fault} (hfault : o.fault = some f) :
      Adds g fuel t fresh
        ⟨.error f, { g with raw := g.raw.insert t, forward := o.engine }, o.fresh⟩

theorem adds {reply : Reply (Except Fault Bool)} (h : g.add fuel t fresh = some reply) :
    g.Adds fuel t fresh reply := by
  unfold add at h
  split at h
  · rename_i hclosed
    cases h
    exact .closed hclosed
  · split at h
    · rename_i hground
      cases h
      exact .refused (Bool.not_eq_true' _ ▸ hground)
    · rename_i hground
      rw [Bool.not_eq_true', Bool.not_eq_false] at hground
      split at h
      · rename_i hin
        cases h
        exact .known hground hin
      · rename_i hnew
        have hnew := Bool.eq_false_iff.mpr hnew
        dsimp only at h
        split at h
        · rename_i hmode
          rw [Option.map_eq_some_iff] at h
          obtain ⟨o, ho, rfl⟩ := h
          split
          · rename_i f hfault
            exact .broken hground hnew hmode ho hfault
          · rename_i hdone
            exact .pass hground hnew hmode ho hdone
        · rename_i hmode
          cases h
          exact .idle hground hnew (Bool.eq_false_iff.mpr hmode)

inductive Deletes (g : InferenceGraph) (fuel : Nat) (t : Triple) (fresh : Nat) :
    Reply (Except Fault Bool) → Prop where
  | closed (hclosed : g.closed = true) : Deletes g fuel t fresh ⟨.error .graphClosed, g, fresh⟩
  | unknown (hout : g.raw.contains t = false) : Deletes g fuel t fresh ⟨.ok false, g, fresh⟩
  | anew (hin : g.raw.contains t = true) {renewed : Reply (Option Fault)}
      (hdeduce : { g with raw := g.raw.erase t }.deduce fuel fresh = some renewed)
      (hdone : renewed.value = none) :
      Deletes g fuel t fresh ⟨.ok true, renewed.graph.reset, renewed.fresh⟩
  | broken (hin : g.raw.contains t = true) {renewed : Reply (Option Fault)}
      (hdeduce : { g with raw := g.raw.erase t }.deduce fuel fresh = some renewed)
      {f : Fault} (hfault : renewed.value = some f) :
      Deletes g fuel t fresh ⟨.error f, renewed.graph, renewed.fresh⟩

theorem deletes {reply : Reply (Except Fault Bool)} (h : g.delete fuel t fresh = some reply) :
    g.Deletes fuel t fresh reply := by
  unfold delete at h
  split at h
  · rename_i hclosed
    cases h
    exact .closed hclosed
  · split at h
    · rename_i hout
      cases h
      exact .unknown (Bool.not_eq_true' _ ▸ hout)
    · rename_i hin
      rw [Bool.not_eq_true', Bool.not_eq_false] at hin
      rw [Option.map_eq_some_iff] at h
      obtain ⟨renewed, hdeduce, rfl⟩ := h
      split
      · rename_i f hfault
        exact .broken hin hdeduce hfault
      · rename_i hdone
        exact .anew hin hdeduce hdone

theorem deduce_of_bind {r : Reasoner} {fresh' : Nat} {data : Store}
    {bound : Except Fault InferenceGraph} (h : r.bind fuel data fresh = some (bound, fresh')) :
    ∃ reply, (r.unworked data).deduce fuel fresh = some reply ∧
      bound = reply.value.elim (.ok reply.graph) .error := by
  unfold Reasoner.bind at h
  rw [Option.map_eq_some_iff] at h
  obtain ⟨reply, hdeduce, heq⟩ := h
  refine ⟨reply, hdeduce, ?_⟩
  split at heq
  · rename_i f hfault
    rw [hfault]
    exact (congrArg Prod.fst heq).symm
  · rename_i hdone
    rw [hdone]
    exact (congrArg Prod.fst heq).symm

theorem deduce_of_bind_ok {r : Reasoner} {fresh' : Nat} {data : Store}
    (h : r.bind fuel data fresh = some (.ok g, fresh')) :
    ∃ reply, (r.unworked data).deduce fuel fresh = some reply ∧ reply.graph = g := by
  obtain ⟨reply, hdeduce, heq⟩ := deduce_of_bind h
  refine ⟨reply, hdeduce, ?_⟩
  cases hvalue : reply.value with
  | none =>
      rw [hvalue] at heq
      exact (Except.ok.inj heq).symm
  | some f =>
      rw [hvalue] at heq
      cases heq

/-! ## Readings -/

theorem graph_find (g : InferenceGraph) (pattern : Triple) :
    (g.find pattern).2 = g ∨
      (g.find pattern).2 = { g with tables := (g.tables.generatorFor g.context pattern).2 } := by
  unfold find
  split
  · exact .inl rfl
  · split
    · exact .inr rfl
    · exact .inl rfl

inductive Nexts (g : InferenceGraph) (fuel fresh : Nat) : InferenceGraph → Prop where
  | off : Nexts g fuel fresh g
  | pumped {id : Tabling.GeneratorId} {o : Tabling.Outcome}
      (ho : g.tables.pump fuel g.context id g.settings.pumpBatch fresh = some o)
      (hdone : o.fault = none) : Nexts g fuel fresh { g with tables := o.tables }
  | broken {id : Tabling.GeneratorId} {o : Tabling.Outcome}
      (ho : g.tables.pump fuel g.context id g.settings.pumpBatch fresh = some o)
      {f : Fault} (hfault : o.fault = some f) :
      Nexts g fuel fresh { g with tables := o.tables.reset }

theorem nexts {answers : Answers} {reply : Reply (Item × Answers)}
    (h : g.next fuel answers fresh = some reply) : g.Nexts fuel fresh reply.graph := by
  cases answers with
  | direct left =>
      cases left with
      | nil | cons x xs =>
          cases h
          exact .off
  | failed f | ended =>
      cases h
      exact .off
  | tabled id next =>
      unfold InferenceGraph.next at h
      dsimp only at h
      split at h
      · cases h
        exact .off
      · rw [Option.map_eq_some_iff] at h
        obtain ⟨o, ho, rfl⟩ := h
        split
        · rename_i f hfault
          exact .broken ho hfault
        · rename_i hdone
          exact .pumped ho hdone

theorem next_of_contains {reply : Reply (Except Fault Bool)}
    (h : g.contains fuel t fresh = some reply) :
    ∃ item, (g.find t).2.next fuel (g.find t).1 fresh = some item ∧ reply.graph = item.graph := by
  unfold contains at h
  rw [Option.map_eq_some_iff] at h
  obtain ⟨item, hnext, rfl⟩ := h
  exact ⟨item, hnext, rfl⟩

/-! ## Validation -/

inductive Validates (g : InferenceGraph) (fuel : Nat) : InferenceGraph → Prop where
  | closed (hclosed : g.closed = true) : Validates g fuel g
  | checked {fresh : Nat} {found : Reply (Except Fault (List Triple))}
      (hquery : g.query fuel violations fresh = some found) : Validates g fuel found.graph
  | switched {fresh : Nat} {switch : Triple} {on off : Reply (Except Fault Bool)}
      {found : Reply (Except Fault (List Triple))} (hon : g.add fuel switch fresh = some on)
      (hquery : on.graph.query fuel violations on.fresh = some found)
      (hoff : found.graph.delete fuel switch found.fresh = some off) : Validates g fuel off.graph

theorem validates {reply : Reply Validity.Report} (h : g.validate fuel fresh = some reply) :
    g.Validates fuel reply.graph := by
  unfold validate at h
  split at h
  · rename_i hclosed
    cases h
    exact .closed hclosed
  · rw [Option.map_eq_some_iff] at h
    obtain ⟨checked, hchecked, rfl⟩ := h
    split at hchecked
    · unfold checkWith at hchecked
      simp only [Option.bind_eq_bind, Option.bind_eq_some_iff, Option.pure_def,
        Option.some.injEq] at hchecked
      obtain ⟨on, hon, found, hquery, off, hoff, rfl⟩ := hchecked
      exact .switched hon hquery hoff
    · unfold check at hchecked
      rw [Option.map_eq_some_iff] at hchecked
      obtain ⟨found, hquery, rfl⟩ := hchecked
      exact .checked hquery

end InferenceGraph

end TripleRules
