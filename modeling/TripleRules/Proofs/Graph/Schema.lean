import TripleRules.Proofs.Graph.History

/-!
# Schemas

A schema that is bound before the data has been closed under the forward rules, and its rules have
been installed.  The data are then chained without the schema on the agenda.  All the same a graph
over a schema holds, installs and answers what a graph over the union of schema and data does.
-/

namespace TripleRules

open Forward Forward.Engine

namespace Reasoner

variable {r : Reasoner}

/-- Binds data, after a schema if there is one and without any schema if there is none. -/
def bindOver (r : Reasoner) (fuel : Nat) (schema? : Option Store) (data : Store) (fresh : Nat) :
    Option (Except Fault InferenceGraph × Nat) :=
  match schema? with
  | none => r.withoutSchema.bind fuel data fresh
  | some schema =>
    (r.bindSchema fuel schema fresh).bind fun
      | (.ok r', fresh) => r'.bind fuel data fresh
      | (.error f, fresh) => some (.error f, fresh)

structure Knows (r : Reasoner) (facts : Triple → Prop) : Prop where
  holds : ∀ t, facts t → t ∈ r.schema.graph.triples
  graph : ∀ t ∈ r.schema.graph.triples, r.Derives facts t
  installed : ∀ c ∈ r.schema.installed.rules, r.InstallsFrom facts c

theorem knows_withoutSchema (r : Reasoner) : r.withoutSchema.Knows fun _ => False where
  holds _ h := h.elim
  graph _ h := absurd h List.not_mem_nil
  installed _ h := absurd h List.not_mem_nil

theorem Closes.knows {schema : Store} {s : SchemaClosure} (h : r.Closes schema s) :
    Knows { r with schema := s } (· ∈ schema.triples) where
  holds t ht := (h.mem_graph t).mpr (.fact ht)
  graph t := (h.mem_graph t).mp
  installed c := (h.mem_installed c).mp

theorem Fair.withoutSchema (h : r.Fair) : r.withoutSchema.Fair :=
  ⟨h.built.withoutSchema, h.guarded, h.unlimited⟩

/-- Facts of the schema may be replaced by all that follows from them. -/
theorem Knows.derives_iff {facts : Triple → Prop} (h : r.Knows facts) (data : Triple → Prop)
    (t : Triple) : r.Derives (fun u => data u ∨ u ∈ r.schema.graph.triples) t ↔
      r.Derives (fun u => data u ∨ facts u) t := by
  refine Iff.trans ⟨?_, ?_⟩ (Entailed.absorb t)
  · exact Entailed.mono (fun u hu => hu.imp_right (h.graph u)) fun _ hc => hc
  · intro ht
    rw [Entailed.absorb] at ht
    exact Entailed.mono (fun u hu => hu.imp_right (h.holds u)) (fun _ hc => hc) ht

end Reasoner

namespace InferenceGraph

variable {g g' : InferenceGraph} {r : Reasoner} {facts facts' : Triple → Prop}

/-- A graph holds and has installed just what follows from some facts by the rules of a reasoner. -/
structure StandsFor (g : InferenceGraph) (r : Reasoner) (facts : Triple → Prop) : Prop where
  tracks : ∃ r' : Reasoner, r'.Fair ∧ g.Tracks r'
  base : g.base = r.base
  settings : g.settings = r.settings
  contains_iff : ∀ t, g.sources.contains t ↔ r.Derives facts t
  mem_installed_iff : ∀ c, c ∈ g.forward.installed.rules ↔ r.InstallsFrom facts c

theorem Tracks.standsFor (h : g.Tracks r) (hr : r.Fair) (hknows : r.Knows facts) :
    g.StandsFor r fun t => t ∈ g.raw.triples ∨ facts t where
  tracks := ⟨r, hr, h⟩
  base := h.base
  settings := h.settings
  contains_iff t := (h.contains_iff_derives hr t).trans (hknows.derives_iff _ t)
  mem_installed_iff c := by
    have hsame := Reasoner.installsFrom_congr (hknows.derives_iff (· ∈ g.raw.triples)) c
    refine (h.mem_installed_iff_installsFrom hr c).trans ⟨fun hc => ?_, fun hc => ?_⟩
    · rcases hc with hc | hc
      · exact (hknows.installed c hc).mono fun _ => .inr
      · exact hsame.mp hc
    · exact .inr (hsame.mpr hc)

theorem StandsFor.withSchema {s : SchemaClosure} (h : g.StandsFor { r with schema := s } facts) :
    g.StandsFor r facts :=
  ⟨h.tracks, h.base, h.settings, h.contains_iff, h.mem_installed_iff⟩

/-- What a graph stands for that has been bound over a schema, or without one. -/
theorem standsFor_bindOver (hr : r.Fair) {schema? : Option Store}
    (hschema : ∀ s ∈ schema?, s.Built) {data : Store} (hdata : data.Built) {fuel fresh fresh' : Nat}
    {bound : Except Fault InferenceGraph}
    (h : r.bindOver fuel schema? data fresh = some (bound, fresh')) :
    ∃ g, bound = .ok g ∧
      g.StandsFor r fun t => t ∈ data.triples ∨ ∃ s ∈ schema?, t ∈ s.triples := by
  cases schema? with
  | none =>
      obtain ⟨g, rfl, rfl, htracks⟩ := tracks_bind hr.withoutSchema hdata h
      have hstands := htracks.standsFor hr.withoutSchema r.knows_withoutSchema
      exact ⟨g, rfl, by simpa using StandsFor.withSchema hstands⟩
  | some schema =>
      obtain ⟨⟨closed, n⟩, hclose, hbind⟩ := Option.bind_eq_some_iff.mp h
      have hbuilt := hschema schema rfl
      obtain ⟨s, rfl, hcloses⟩ := Reasoner.closes_bindSchema hr.built.base hr.guarded hr.unlimited
        hbuilt hclose
      have hr' : Reasoner.Fair { r with schema := s } :=
        ⟨.bindSchema hr.built hbuilt hclose, hr.guarded, hr.unlimited⟩
      obtain ⟨g, rfl, rfl, htracks⟩ := tracks_bind hr' hdata hbind
      have hstands := htracks.standsFor hr' hcloses.knows
      exact ⟨g, rfl, by simpa using hstands.withSchema⟩

/-- Queries of two graphs that end bring the same answers. -/
def SameAnswers (g g' : InferenceGraph) : Prop :=
  ∀ (pattern : Triple) (fuel fresh fuel' fresh' : Nat)
    (reply reply' : Reply (Except Fault (List Triple))),
    g.query fuel pattern fresh = some reply → g'.query fuel' pattern fresh' = some reply' →
      ∃ xs ys, reply.value = .ok xs ∧ reply'.value = .ok ys ∧ ∀ t, t ∈ xs ↔ t ∈ ys

theorem StandsFor.sameAnswers {r' : Reasoner} (h : g.StandsFor r facts)
    (h' : g'.StandsFor r' facts') (hsame : ∀ t, g.context.Entails t ↔ g'.context.Entails t) :
    g.SameAnswers g' := by
  intro pattern fuel fresh fuel' fresh' reply reply' hquery hquery'
  obtain ⟨r₁, hr₁, htracks⟩ := h.tracks
  obtain ⟨r₂, hr₂, htracks'⟩ := h'.tracks
  obtain ⟨xs, hvalue, hxs⟩ := htracks.query_answered hr₁ hquery
  obtain ⟨ys, hvalue', hys⟩ := htracks'.query_answered hr₂ hquery'
  refine ⟨xs, ys, hvalue, hvalue', fun t => ?_⟩
  rw [hxs, hys, hsame]

section Same

variable (h : g.StandsFor r facts) (h' : g'.StandsFor r facts')
  (hsame : ∀ t, facts t ↔ facts' t)

include h h' hsame

theorem StandsFor.contains_congr (t : Triple) :
    g.sources.contains t ↔ g'.sources.contains t := by
  rw [h.contains_iff, h'.contains_iff]
  exact Reasoner.derives_congr hsame t

theorem StandsFor.installed_congr (c : CheckedRule) :
    c ∈ g.forward.installed.rules ↔ c ∈ g'.forward.installed.rules := by
  rw [h.mem_installed_iff, h'.mem_installed_iff]
  exact Reasoner.installsFrom_congr (Reasoner.derives_congr hsame) c

theorem StandsFor.entails_congr (t : Triple) : g.context.Entails t ↔ g'.context.Entails t := by
  refine Entailed.congr (h.contains_congr h' hsame) (fun c => ?_) t
  simp only [InferenceGraph.context, RuleView.Has, InferenceGraph.rules, h.base, h'.base,
    h.settings, h'.settings, h.installed_congr h' hsame]

end Same

/-- A schema bound beforehand makes no difference.  Binding a schema and then data, and binding the
union of both without a schema, succeed if they end, and give graphs that hold the same triples,
have installed the same rules and give the same answers to every pattern. -/
theorem bind_schema_then_data (hr : r.Fair) {schema data union : Store} (hschema : schema.Built)
    (hdata : data.Built) (hbuilt : union.Built)
    (hunion : ∀ t, t ∈ union.triples ↔ t ∈ schema.triples ∨ t ∈ data.triples)
    {fuel₁ fresh₁ n₁ fuel₂ fresh₂ n₂ : Nat} {bound₁ bound₂ : Except Fault InferenceGraph}
    (hover : r.bindOver fuel₁ (some schema) data fresh₁ = some (bound₁, n₁))
    (hplain : r.bindOver fuel₂ none union fresh₂ = some (bound₂, n₂)) :
    ∃ g g', bound₁ = .ok g ∧ bound₂ = .ok g' ∧
      (∀ t, g.sources.contains t = g'.sources.contains t) ∧
      (∀ q, g.forward.installed.contains q = g'.forward.installed.contains q) ∧
      g.SameAnswers g' := by
  have hschemas : ∀ s ∈ some schema, s.Built := by
    intro s hs
    cases hs
    exact hschema
  have hnone : ∀ s ∈ (none : Option Store), s.Built := fun _ hs => nomatch hs
  obtain ⟨g, rfl, hg⟩ := standsFor_bindOver hr hschemas hdata hover
  obtain ⟨g', rfl, hg'⟩ := standsFor_bindOver hr hnone hbuilt hplain
  have hsame : ∀ t, (t ∈ data.triples ∨ ∃ s ∈ some schema, t ∈ s.triples) ↔
      (t ∈ union.triples ∨ ∃ s ∈ (none : Option Store), t ∈ s.triples) := by
    intro t
    simp only [hunion, Option.mem_def, Option.some.injEq, exists_eq_left', reduceCtorEq, false_and,
      exists_false, or_false]
    exact or_comm
  refine ⟨g, g', rfl, rfl, fun t => ?_, ?_, hg.sameAnswers hg' (hg.entails_congr hg' hsame)⟩
  · rw [Bool.eq_iff_iff]
    exact hg.contains_congr hg' hsame t
  · exact contains_eq_of_mem_iff (hg.installed_congr hg' hsame)

/-! ## An instance -/

def orderSchema : Store := .ofList [⟨.iri "before", .iri "is", .iri "transitive"⟩]

def orderData : Store :=
  .ofList [⟨.iri "a", .iri "before", .iri "b"⟩, ⟨.iri "b", .iri "before", .iri "c"⟩]

theorem orderSchema_then_data : ∃ g g' n n',
    transitiveReasoner.bindOver 100 (some orderSchema) orderData 0 = some (.ok g, n) ∧
    transitiveReasoner.bindOver 100 none chainData 0 = some (.ok g', n') ∧
    (∀ t, g.sources.contains t = g'.sources.contains t) ∧
    (∀ q, g.forward.installed.contains q = g'.forward.installed.contains q) ∧
    g.SameAnswers g' := by
  have hover : (transitiveReasoner.bindOver 100 (some orderSchema) orderData 0).isSome := by
    decide +kernel
  have hplain : (transitiveReasoner.bindOver 100 none chainData 0).isSome := by decide +kernel
  obtain ⟨⟨bound₁, n⟩, hbound₁⟩ := Option.isSome_iff_exists.mp hover
  obtain ⟨⟨bound₂, n'⟩, hbound₂⟩ := Option.isSome_iff_exists.mp hplain
  have hsplit : ∀ t ∈ chainData.triples, t ∈ orderSchema.triples ∨ t ∈ orderData.triples := by
    decide +kernel
  have hschema : ∀ t ∈ orderSchema.triples, t ∈ chainData.triples := by decide +kernel
  have hdata : ∀ t ∈ orderData.triples, t ∈ chainData.triples := by decide +kernel
  obtain ⟨g, g', rfl, rfl, hsame⟩ := bind_schema_then_data fair_transitiveReasoner
    (Store.built_ofList (by decide)) (Store.built_ofList (by decide))
    (Store.built_ofList (by decide)) (fun t => ⟨hsplit t, fun ht => ht.elim (hschema t) (hdata t)⟩)
    hbound₁ hbound₂
  exact ⟨g, g', n, n', hbound₁, hbound₂, hsame⟩

end InferenceGraph

end TripleRules
