import Mathlib.Data.Set.Basic
import TripleRules.Proofs.Rule.Numbering
import TripleRules.Proofs.Term.Bindings

/-!
# Specialized rules

A nested rule has the numbers of the rule that it is nested in.  When it is installed, what the
outer rule has bound is put in, and what is left is numbered afresh by name.  The result says just
what the nested rule says of the ground terms that agree with the bindings.
-/

namespace TripleRules.Rule

def instanceBy (r : Rule) (f : Variable → Term) : List Clause × List Conclusion :=
  (r.body.map (Clause.mapVars f), Conclusion.mapVarsAll f r.head)

theorem instanceBy_congr {r : Rule} {f g : Variable → Term}
    (h : ∀ v ∈ r.occurrences, f v = g v) : r.instanceBy f = r.instanceBy g := by
  rw [instanceBy, Clause.map_mapVars_congr fun v hv => h v (List.mem_append_left _ hv),
    Conclusion.mapVarsAll_congr r.head fun v hv => h v (List.mem_append_right _ hv), instanceBy]

/-- The names of the variables that are left when bindings are put into a rule. -/
def freeNames (r : Rule) (b : Bindings) : List String :=
  varNames (r.body.map (Clause.mapVars fun v => b.resolve (.var v)))
    (Conclusion.mapVarsAll (fun v => b.resolve (.var v)) r.head)

theorem specialize_eq (r : Rule) (b : Bindings) :
    r.specialize b = (make (r.body.map (Clause.mapVars fun v => b.resolve (.var v)))
      (Conclusion.mapVarsAll (fun v => b.resolve (.var v)) r.head) .backward).withName r.name := rfl

section Values

variable {b : Bindings} (hb : b.Values (·.isGround))

include hb

theorem flatMap_occurrences_resolve (vs : List Variable) :
    (vs.flatMap fun v => (b.resolve (.var v)).occurrences) =
      vs.filter fun v => (b.get? v).isNone := by
  induction vs with
  | nil => rfl
  | cons v vs ih =>
      rw [List.flatMap_cons, ih, Bindings.resolve_var]
      cases hget : b.get? v with
      | none =>
          rw [List.filter_cons_of_pos (by rw [hget]; rfl)]
          rfl
      | some x =>
          have hx : x.isGround := hb _ _ ((Bindings.get?_eq_some_iff b v x).mp hget)
          rw [List.filter_cons_of_neg (by rw [hget]; exact Bool.false_ne_true), Option.getD_some,
            (Term.isGround_iff x).mp hx, List.nil_append]

theorem occurrences_specialize (r : Rule) : (r.specialize b).occurrences =
    (r.occurrences.filter fun v => (b.get? v).isNone).map (renumber (r.freeNames b)) := by
  rw [specialize_eq, occurrences_withName, occurrences_make, Clause.flatMap_occurrences_map,
    Conclusion.occurrencesAll_mapVarsAll, ← List.flatMap_append, flatMap_occurrences_resolve hb]
  rfl

theorem name_mem_freeNames {r : Rule} {v : Variable} (hv : v ∈ r.occurrences)
    (hfree : b.get? v = none) : v.name ∈ r.freeNames b := by
  refine mem_varNames_iff.mpr ⟨v, ?_, rfl⟩
  rw [Clause.flatMap_occurrences_map, Conclusion.occurrencesAll_mapVarsAll, ← List.flatMap_append,
    flatMap_occurrences_resolve hb, List.mem_filter, hfree]
  exact ⟨hv, rfl⟩

/-- What a specialized rule says of ground terms, in terms of the rule that it comes from. -/
theorem instanceBy_specialize (r : Rule) (σ : Nat → Term) :
    (r.specialize b).instanceBy (bySlot σ) =
      r.instanceBy fun v => (b.get? v).getD (σ ((r.freeNames b).idxOf v.name)) := by
  have hvar : ∀ v : Variable, ((b.resolve (.var v)).mapVars fun w =>
      (slotted (r.freeNames b) w).mapVars (bySlot σ)) =
        (b.get? v).getD (σ ((r.freeNames b).idxOf v.name)) := by
    intro v
    rw [Bindings.resolve_var]
    cases hget : b.get? v with
    | none => rfl
    | some x =>
        have hx : x.isGround := hb _ _ ((Bindings.get?_eq_some_iff b v x).mp hget)
        simp only [Option.getD_some, Term.mapVars_of_isGround hx]
  simp only [← hvar]
  rw [specialize_eq, instanceBy, body_withName, head_withName, make, Rule.body, Rule.head,
    Clause.map_mapVars_map, Clause.map_mapVars_map, Conclusion.mapVarsAll_mapVarsAll,
    Conclusion.mapVarsAll_mapVarsAll]
  rfl

/-- Ground terms for the variables that are left are ground terms that agree with the bindings. -/
theorem instances_specialize {r : Rule} {names : List String}
    (hnumbered : ∀ v ∈ r.occurrences, Numbered names v) :
    {c | ∃ σ : Nat → Term, (∀ i, (σ i).isGround) ∧ c = (r.specialize b).instanceBy (bySlot σ)} =
      {c | ∃ τ : Nat → Term, (∀ i, (τ i).isGround) ∧ b.Agrees τ ∧
        c = r.instanceBy (bySlot τ)} := by
  ext c
  constructor
  · rintro ⟨σ, hσ, rfl⟩
    -- a slot of the outer rule stands for what the name with its number stands for
    let ρ (i : Nat) : Term := σ ((r.freeNames b).idxOf ((names[i]?).getD ""))
    refine ⟨b.fill ρ, Bindings.isGround_fill hb fun i => hσ _, b.agrees_fill ρ, ?_⟩
    rw [instanceBy_specialize hb]
    apply instanceBy_congr
    intro v hv
    have hslot : bySlot ρ v = σ ((r.freeNames b).idxOf v.name) := by
      simp only [bySlot, ρ, (hnumbered v hv).getElem?_slot, Option.getD_some]
    rw [Bindings.bySlot_fill, hslot]
  · rintro ⟨τ, hτ, hagr, rfl⟩
    let ρ (i : Nat) : Term := τ (names.idxOf (((r.freeNames b)[i]?).getD ""))
    refine ⟨ρ, fun i => hτ _, ?_⟩
    rw [instanceBy_specialize hb]
    apply instanceBy_congr
    intro v hv
    cases hget : b.get? v with
    | none =>
        have hname : (r.freeNames b)[(r.freeNames b).idxOf v.name]? = some v.name :=
          List.getElem?_idxOf (name_mem_freeNames hb hv hget)
        simp only [Option.getD_none, ρ, hname, Option.getD_some, bySlot, (hnumbered v hv).2]
    | some x => exact (hagr _ _ ((Bindings.get?_eq_some_iff b v x).mp hget)).symm

end Values

/-- A rule nested in a rule that was built is installed under ground bindings as a backward rule of
its own name.  Its slots are numbered without gaps, and tell its variables apart by name; its
variables are those of the nested rule that are not bound.  Its ground instances, bodies and heads,
are those of the nested rule under the ground terms that agree with the bindings. -/
theorem specialize_of_mem_head {r n : Rule} (hr : r.IsMade) (hn : .rule n ∈ r.head)
    {env : Bindings} (henv : env.Values (·.isGround)) :
    (n.specialize env).direction = .backward ∧ (n.specialize env).name = n.name ∧
    (∀ u ∈ (n.specialize env).occurrences, ∀ v ∈ (n.specialize env).occurrences,
      u.slot = v.slot ↔ u.name = v.name) ∧
    (∀ i, i < (n.specialize env).slots ↔ ∃ v ∈ (n.specialize env).occurrences, v.slot = i) ∧
    (n.specialize env).occurrences.map (·.name) =
      (n.occurrences.filter fun v => (env.get? v).isNone).map (·.name) ∧
    {c | ∃ σ : Nat → Term, (∀ i, (σ i).isGround) ∧ c = (n.specialize env).instanceBy (bySlot σ)} =
      {c | ∃ τ : Nat → Term, (∀ i, (τ i).isGround) ∧ env.Agrees τ ∧
        c = n.instanceBy (bySlot τ)} := by
  obtain ⟨names, -, hnumbered⟩ := hr.numbered
  have hnested : ∀ v ∈ n.occurrences, Numbered names v := fun v hv =>
    hnumbered v (occurrences_subset_of_mem_head hn hv)
  have hfree : ∀ v ∈ (n.specialize env).occurrences, Numbered (n.freeNames env) v := by
    rw [specialize_eq, occurrences_withName]
    exact make_numbered _ _ _
  have hslots : (n.specialize env).slots = (n.freeNames env).length := by
    rw [specialize_eq, slots_withName]
    rfl
  refine ⟨?_, ?_, fun u hu v hv => (hfree u hu).slot_eq_iff (hfree v hv),
    fun i => ⟨fun hi => ?_, ?_⟩, ?_, instances_specialize henv hnested⟩
  · rw [specialize_eq, direction_withName]
    rfl
  · rw [specialize_eq, name_withName]
  · rw [specialize_eq, slots_withName] at hi
    rw [specialize_eq, occurrences_withName]
    exact exists_slot_of_lt _ _ _ hi
  · rintro ⟨v, hv, rfl⟩
    rw [hslots]
    exact (hfree v hv).slot_lt
  · rw [occurrences_specialize henv, List.map_map]
    rfl

/-! ## An instance -/

def knownRule : Rule :=
  .mk (some "known")
    [.pattern ⟨.var ⟨"a", 2⟩, .var ⟨"way", 0⟩, .var ⟨"b", 3⟩⟩,
      .call "notEqual" [.var ⟨"b", 3⟩, .var ⟨"by", 1⟩]]
    [.pattern ⟨.var ⟨"b", 3⟩, .iri "known", .compound "to" [.var ⟨"a", 2⟩]⟩] .backward 4

def markRule : Rule :=
  .make [.pattern ⟨.named "way", .iri "is", .compound "marked" [.named "by"]⟩]
    [.rule ((Rule.make
      [.pattern ⟨.named "a", .named "way", .named "b"⟩, .call "notEqual" [.named "b", .named "by"]]
      [.pattern ⟨.named "b", .iri "known", .compound "to" [.named "a"]⟩]
      .backward).withName "known")]
    .forward

def marked : Bindings := ⟨[some (.iri "sees"), some (.iri "bob"), none, none]⟩

/-- The installed rule has two variables, and it says of two people what the nested one does. -/
theorem knownRule_specialize : (knownRule.specialize marked).name = some "known" ∧
    (knownRule.specialize marked).occurrences.map (·.name) = ["a", "b", "b", "b", "a"] ∧
    ∃ σ : Nat → Term, (∀ i, (σ i).isGround) ∧
      knownRule.instanceBy
          (bySlot (marked.fill fun i => if i = 2 then .iri "eve" else .iri "ann")) =
        (knownRule.specialize marked).instanceBy (bySlot σ) := by
  have hmade : markRule.IsMade := ⟨_, _, _, none, rfl⟩
  have hmem : .rule knownRule ∈ markRule.head := by decide +kernel
  have hvalues : marked.Values (·.isGround) := by
    intro i x hx
    match i, hx with
    | 0, hx | 1, hx =>
        simp only [Bindings.Has, marked, List.getElem?_cons_zero, List.getElem?_cons_succ,
          Option.some.injEq] at hx
        rw [← hx]
        rfl
    | 2, hx | 3, hx | _ + 4, hx => simp [Bindings.Has, marked] at hx
  obtain ⟨-, hname, -, -, hvars, hinstances⟩ := specialize_of_mem_head hmade hmem hvalues
  refine ⟨hname, hvars, ?_⟩
  have hground : ∀ i : Nat, (if i = 2 then Term.iri "eve" else .iri "ann").isGround := by
    intro i
    split <;> rfl
  exact hinstances.ge ⟨_, Bindings.isGround_fill hvalues hground, marked.agrees_fill _, rfl⟩

end TripleRules.Rule
