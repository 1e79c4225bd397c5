import TripleRules.Proofs.Graph.Reading
import TripleRules.Proofs.Graph.Upkeep
import TripleRules.Proofs.Tabling.LeastModel

/-!
# Answers

Reading answers changes the tables and nothing else, however far it goes.  Reading to the end brings
the instances of the pattern in the least model.
-/

namespace TripleRules

open Tabling

namespace InferenceGraph

variable {g : InferenceGraph} {r : Reasoner}

/-! ## Reading keeps a graph up to date -/

theorem Tracks.find (h : g.Tracks r) (pattern : Triple) : (g.find pattern).2.Tracks r := by
  rcases graph_find g pattern with heq | heq
  · rw [heq]
    exact h
  · rw [heq]
    exact h.withTables (h.tables.ask pattern)

theorem Tracks.next (h : g.Tracks r) {fuel fresh : Nat} {answers : Answers}
    {reply : Reply (Item × Answers)} (hreply : g.next fuel answers fresh = some reply) :
    reply.graph.Tracks r := by
  have hnexts := nexts hreply
  generalize reply.graph = g' at hnexts ⊢
  cases hnexts with
  | off => exact h
  | pumped hpump _ => exact h.withTables (h.tables.pump hpump)
  | broken hpump _ => exact (h.withTables (h.tables.pump hpump)).reset

theorem Tracks.contains (h : g.Tracks r) {fuel fresh : Nat} {t : Triple}
    {reply : Reply (Except Fault Bool)} (hreply : g.contains fuel t fresh = some reply) :
    reply.graph.Tracks r := by
  obtain ⟨item, hnext, heq⟩ := next_of_contains hreply
  rw [heq]
  exact (h.find t).next hnext

theorem Tracks.query (h : g.Tracks r) {fuel fresh : Nat} {pattern : Triple}
    {reply : Reply (Except Fault (List Triple))}
    (hreply : g.query fuel pattern fresh = some reply) : reply.graph.Tracks r :=
  query_keeps (P := (·.Tracks r)) (h.find pattern) (fun _ _ _ _ _ h hnext => h.next hnext) hreply

/-! ## Reading to the end -/

/-- The answers to a pattern by the rules and triples of a graph. -/
def Answered (g : InferenceGraph) (pattern : Triple) (xs : List Triple) : Prop :=
  ∀ t, t ∈ xs ↔ pattern.matches? t ∧ g.context.Entails t

/-- A query that ends brings the instances of the pattern in the least model. -/
theorem Tracks.query_answered (h : g.Tracks r) (hr : r.Fair) {fuel fresh : Nat} {pattern : Triple}
    {reply : Reply (Except Fault (List Triple))}
    (hreply : g.query fuel pattern fresh = some reply) :
    ∃ xs, reply.value = .ok xs ∧ g.Answered pattern xs := by
  have hctx := h.built_context hr
  have hguard := h.guarded_context hr
  cases htabled : g.rules.isTabled pattern with
  | true =>
      have hinvariant : Invariant g.context fun t _ => Faithful hctx hguard t :=
        Faithful.invariant
      have hfaithful := Faithful.reached hctx hguard h.tables
      have hanswers := query_tabled hinvariant.persistent.toSustained (fun _ _ h => h.linked)
        hfaithful.linked h.opened (hfaithful.generatorFor pattern) htabled hreply
      obtain ⟨t, found, hall, -, hvalue⟩ := hanswers.resolve_right fun ⟨_, _, hJ, _⟩ => hJ
      refine ⟨found, hvalue, fun x => ?_⟩
      rw [← hall.all, Array.mem_toList_iff, hall.holds.mem_results_iff hall.isComplete hall.size,
        hall.goal, Triple.normalize_matches?]
  | false =>
      obtain ⟨hvalue, -⟩ := query_direct h.opened htabled hreply
      refine ⟨_, hvalue, fun x => ?_⟩
      constructor
      · intro hx
        obtain ⟨hin, hmatch⟩ := (hctx.sources.mem_find pattern x).mp hx
        exact ⟨hmatch, .fact hin⟩
      · rintro ⟨hmatch, hx⟩
        exact mem_find_of_entails hctx htabled hx hmatch

end InferenceGraph

end TripleRules
