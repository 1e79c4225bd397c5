import TripleRules.Graph.Validation
import TripleRules.Proofs.Graph.Answers

/-!
# Histories

A graph that has been bound may be changed and asked in any order.  Whatever has been done to it, it
holds what a graph that is newly bound to the same asserted triples holds, and answers as that one
does.
-/

namespace TripleRules

namespace InferenceGraph

/-- What can be done to a graph, if it comes to an end. -/
inductive Acts (g : InferenceGraph) : InferenceGraph → Prop where
  | add {fuel fresh : Nat} {t : Triple} {reply : Reply (Except Fault Bool)}
      (h : g.add fuel t fresh = some reply) : Acts g reply.graph
  | delete {fuel fresh : Nat} {t : Triple} {reply : Reply (Except Fault Bool)}
      (h : g.delete fuel t fresh = some reply) : Acts g reply.graph
  | find (pattern : Triple) : Acts g (g.find pattern).2
  | next {fuel fresh : Nat} {answers : Answers} {reply : Reply (Item × Answers)}
      (h : g.next fuel answers fresh = some reply) : Acts g reply.graph
  | query {fuel fresh : Nat} {pattern : Triple} {reply : Reply (Except Fault (List Triple))}
      (h : g.query fuel pattern fresh = some reply) : Acts g reply.graph
  | contains {fuel fresh : Nat} {t : Triple} {reply : Reply (Except Fault Bool)}
      (h : g.contains fuel t fresh = some reply) : Acts g reply.graph
  | validate {fuel fresh : Nat} {reply : Reply Validity.Report}
      (h : g.validate fuel fresh = some reply) : Acts g reply.graph
  | reset : Acts g g.reset

/-- The graphs that a reasoner has bound and that have been worked with since. -/
inductive History (r : Reasoner) : InferenceGraph → Prop where
  | bind {fuel fresh fresh' : Nat} {data : Store} {g : InferenceGraph} (hdata : data.Built)
      (h : r.bind fuel data fresh = some (.ok g, fresh')) : History r g
  | act {g g' : InferenceGraph} (h : History r g) (ha : Acts g g') : History r g'

variable {g : InferenceGraph} {r : Reasoner}

theorem Tracks.validate (h : g.Tracks r) (hr : r.Fair) {fuel fresh : Nat}
    {reply : Reply Validity.Report} (hreply : g.validate fuel fresh = some reply) :
    reply.graph.Tracks r := by
  have hvalidates := validates hreply
  generalize reply.graph = g' at hvalidates ⊢
  cases hvalidates with
  | closed => exact h
  | checked hquery => exact h.query hquery
  | @switched _ _ on _ found hon hquery hoff =>
      have hon : on.graph.Tracks r := h.add hon
      have hfound : found.graph.Tracks r := hon.query hquery
      exact hfound.delete hr hoff

/-- Nothing that can be done to a graph makes it fall behind its asserted triples. -/
theorem Tracks.acts {g' : InferenceGraph} (h : g.Tracks r) (hr : r.Fair) (ha : Acts g g') :
    g'.Tracks r := by
  cases ha with
  | add hadd => exact h.add hadd
  | delete hdelete => exact h.delete hr hdelete
  | find pattern => exact h.find pattern
  | next hnext => exact h.next hnext
  | query hquery => exact h.query hquery
  | contains hcontains => exact h.contains hcontains
  | validate hvalidate => exact h.validate hr hvalidate
  | reset => exact h.reset

theorem History.tracks (h : History r g) (hr : r.Fair) : g.Tracks r := by
  induction h with
  | bind hdata hbind =>
      obtain ⟨g', heq, -, htracks⟩ := tracks_bind hr hdata hbind
      cases heq
      exact htracks
  | act _ ha ih => exact ih.acts hr ha

theorem contains_eq_of_mem_iff {s s' : RuleSet} (h : ∀ c, c ∈ s.rules ↔ c ∈ s'.rules) (q : Rule) :
    s.contains q = s'.contains q := by
  rw [Bool.eq_iff_iff, RuleSet.contains, RuleSet.contains, List.any_eq_true, List.any_eq_true]
  simp only [h]

/-- A graph does not depend on its history.  Whatever has been done since it was bound, it holds the
same triples and the same installed rules, and has the same answers to every pattern, as a graph
that the same reasoner newly binds to the same asserted triples. -/
theorem history_independent (hr : r.Fair) (hg : History r g) {raw : Store} (hraw : raw.Built)
    (hsame : ∀ t, t ∈ raw.triples ↔ t ∈ g.raw.triples) {fuel fresh fresh' : Nat}
    {bound : Except Fault InferenceGraph} (hbind : r.bind fuel raw fresh = some (bound, fresh')) :
    ∃ g', bound = .ok g' ∧
      (∀ t, g.sources.contains t = g'.sources.contains t) ∧
      (∀ q, g.forward.installed.contains q = g'.forward.installed.contains q) ∧
      ∀ (pattern : Triple) (fuel₁ fresh₁ fuel₂ fresh₂ : Nat)
        (reply₁ reply₂ : Reply (Except Fault (List Triple))),
        g.query fuel₁ pattern fresh₁ = some reply₁ → g'.query fuel₂ pattern fresh₂ = some reply₂ →
          ∃ xs ys, reply₁.value = .ok xs ∧ reply₂.value = .ok ys ∧ ∀ t, t ∈ xs ↔ t ∈ ys := by
  have htracks : g.Tracks r := hg.tracks hr
  obtain ⟨g', rfl, hraw', htracks'⟩ := tracks_bind hr hraw hbind
  rw [← hraw'] at hsame
  refine ⟨g', rfl, fun t => ?_, ?_, ?_⟩
  · rw [Bool.eq_iff_iff]
    exact htracks.contains_congr htracks' hr hsame t
  · exact contains_eq_of_mem_iff (htracks.installed_congr htracks' hr hsame)
  · intro pattern fuel₁ fresh₁ fuel₂ fresh₂ reply₁ reply₂ hquery hquery'
    obtain ⟨xs, hvalue, hxs⟩ := htracks.query_answered hr hquery
    obtain ⟨ys, hvalue', hys⟩ := htracks'.query_answered hr hquery'
    refine ⟨xs, ys, hvalue, hvalue', fun t => ?_⟩
    rw [hxs, hys, htracks.entails_congr htracks' hr hsame]

/-! ## An instance -/

def transitiveRule : Rule :=
  .make [.pattern ⟨.named "p", .iri "is", .iri "transitive"⟩]
    [.rule (.make
      [.pattern ⟨.named "x", .named "p", .named "y"⟩, .pattern ⟨.named "y", .named "p", .named "z"⟩]
      [.pattern ⟨.named "x", .named "p", .named "z"⟩] .backward)] .forward

def transitive : CheckedRule :=
  ⟨transitiveRule, [.pattern ⟨.var ⟨"p", 0⟩, .iri "is", .iri "transitive"⟩]⟩

def transitiveReasoner : Reasoner :=
  ⟨(RuleBase.empty .standard).add transitive, { ruleThreshold := 0 }, .empty⟩

theorem fair_transitiveReasoner : transitiveReasoner.Fair where
  built := by
    have hmade : ∀ q ∈ [transitiveRule], q.IsMade := by
      intro q hq
      rw [List.mem_singleton.mp hq]
      exact ⟨_, _, _, none, rfl⟩
    have hbuild : Reasoner.build .standard [transitiveRule] { ruleThreshold := 0 } =
        .ok transitiveReasoner := rfl
    exact .build hmade hbuild
  guarded := by
    have hforward : ∀ c ∈ transitiveReasoner.base.forward, c = transitive :=
      fun c hc => List.mem_singleton.mp hc
    refine ⟨fun c hc => ?_, fun c hc q hq => ?_, fun c hc => ?_⟩
    · rw [hforward c hc]
      intro before b args after hbody
      have hcall : Premise.call b args ∈ transitive.body := by
        rw [hbody]
        exact List.mem_append_right _ List.mem_cons_self
      simp [transitive] at hcall
    · have hpure : transitive.rule.head.all fun
          | .rule q => q.body.all fun p => !p.isCall
          | .pattern _ => true := by decide
      rw [hforward c hc] at hq
      have hcalls : ∀ name args, .call name args ∉ q.body := fun name args hcall => by
        simpa [Clause.isCall] using List.all_eq_true.mp (List.all_eq_true.mp hpure _ hq) _ hcall
      refine ⟨fun name args hcall => absurd hcall (hcalls name args), ?_⟩
      intro before name args after hbody
      refine absurd ?_ (hcalls name args)
      rw [hbody]
      exact List.mem_append_right _ List.mem_cons_self
    · cases hc
  unlimited := rfl

def chain : Option InferenceGraph :=
  match transitiveReasoner.bind 100 (.ofList [⟨.iri "before", .iri "is", .iri "transitive"⟩,
      ⟨.iri "a", .iri "before", .iri "b"⟩]) 0 with
  | some (.ok g, fresh) =>
    (g.add 100 ⟨.iri "b", .iri "before", .iri "c"⟩ fresh).map (·.graph)
  | _ => none

def chainData : Store :=
  .ofList [⟨.iri "b", .iri "before", .iri "c"⟩, ⟨.iri "a", .iri "before", .iri "b"⟩,
    ⟨.iri "before", .iri "is", .iri "transitive"⟩]

theorem chain_independent : ∃ g g' n, chain = some g ∧
    transitiveReasoner.bind 100 chainData 0 = some (.ok g', n) ∧
    (∀ t, g.sources.contains t = g'.sources.contains t) ∧
    ∀ q, g.forward.installed.contains q = g'.forward.installed.contains q := by
  have hchain : chain.any fun g => decide (∀ t ∈ g.raw.triples, t ∈ chainData.triples) &&
      decide (∀ t ∈ chainData.triples, t ∈ g.raw.triples) := by decide +kernel
  have hbind : (transitiveReasoner.bind 100 chainData 0).isSome := by decide +kernel
  rw [Option.any_eq_true] at hchain
  obtain ⟨g, hg, hraw⟩ := hchain
  rw [Bool.and_eq_true, decide_eq_true_eq, decide_eq_true_eq] at hraw
  obtain ⟨⟨bound, n⟩, hbound⟩ := Option.isSome_iff_exists.mp hbind
  have hhistory : History transitiveReasoner g := by
    unfold chain at hg
    split at hg
    · rename_i hstart
      obtain ⟨reply, hadd, rfl⟩ := Option.map_eq_some_iff.mp hg
      exact .act (.bind (Store.built_ofList (by decide)) hstart) (.add hadd)
    · cases hg
  obtain ⟨g', rfl, hsources, hinstalled, -⟩ := history_independent fair_transitiveReasoner hhistory
    (Store.built_ofList (by decide)) (fun t => ⟨hraw.2 t, hraw.1 t⟩) hbound
  exact ⟨g, g', n, hg, hbound, hsources, hinstalled⟩

end InferenceGraph

end TripleRules
