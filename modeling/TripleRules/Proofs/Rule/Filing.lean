import TripleRules.Proofs.Rule.Checked
import TripleRules.Proofs.Store.Lookup
import TripleRules.Proofs.Term.Canonical
import TripleRules.Proofs.Term.Goal
import TripleRules.Rule.Set

/-!
# Filing

A rule set files its rules by the predicate of their heads.  No rule is hidden by that: every rule
with an instance of its head that a goal matches is among the candidates for the goal and can start
on it.
-/

namespace TripleRules

namespace Index

variable {α : Type} {i : Index α} {rest all : List α} {key? : α → Option Term} {a : α}

/-- All entries are in the index or in the rest: under their key if they have one, and in the rest
if not. -/
structure Sorts (i : Index α) (rest : List α) (key? : α → Option Term) (all : List α) : Prop where
  filed : ∀ k, i.get k = all.filter (key? · = some k)
  unfiled : rest = all.filter (key? · = none)

theorem Sorts.empty (key? : α → Option Term) : (empty : Index α).Sorts [] key? [] :=
  ⟨fun _ => rfl, rfl⟩

theorem Sorts.add (h : i.Sorts rest key? all) {key : Term} (ha : key? a = some key) :
    (i.add key a).Sorts rest key? (all ++ [a]) := by
  refine ⟨fun k => ?_, ?_⟩
  · rw [get_add, h.filed, List.filter_append]
    by_cases hk : k = key
    · simp [hk, ha]
    · simp [hk, ha, Ne.symm hk]
  · simp [h.unfiled, List.filter_append, ha]

theorem Sorts.push (h : i.Sorts rest key? all) (ha : key? a = none) :
    i.Sorts (rest ++ [a]) key? (all ++ [a]) := by
  refine ⟨fun k => ?_, ?_⟩
  · simp [h.filed, List.filter_append, ha]
  · simp [h.unfiled, List.filter_append, ha]

end Index

namespace CheckedRule

theorem start?_agrees {r : CheckedRule} (hr : r.IsChecked) {head goal : Triple}
    (hhead : r.headPattern? = some head) {τ : Nat → Term}
    (hgoal : goal.matches? (head.mapVars (bySlot τ))) :
    ∃ env, r.start? goal = some env ∧ env.Agrees τ ∧ env.size = r.slots := by
  have hslots : ∀ v ∈ head.occurrences, v.slot < (Bindings.empty r.slots).size := by
    intro v hv
    rw [Bindings.size_empty]
    refine hr.slot_lt (hr.mem_vars_of_head ?_ hv)
    rw [headPattern?_eq_some.mp hhead]
    exact List.mem_singleton_self _
  obtain ⟨env, henv, hagr, hsize⟩ :=
    Bindings.withGoal_agrees (Bindings.agrees_empty r.slots τ) hslots hgoal
  refine ⟨env, ?_, hagr, hsize.trans (Bindings.size_empty _)⟩
  rw [start?, hhead, Option.bind_some, henv]
  rfl

theorem start?_some {r : CheckedRule} {goal : Triple} {env : Bindings}
    (h : r.start? goal = some env) :
    ∃ head, r.headPattern? = some head ∧
      (Bindings.empty r.slots).withGoal head goal = .ok env := by
  rw [start?, Option.bind_eq_some_iff] at h
  obtain ⟨head, hhead, h⟩ := h
  refine ⟨head, hhead, ?_⟩
  cases hgoal : (Bindings.empty r.slots).withGoal head goal with
  | error b => simp [hgoal, Except.toOption] at h
  | ok b => simpa [hgoal, Except.toOption] using h

theorem start?_extends {r : CheckedRule} {goal : Triple} {env : Bindings}
    (h : r.start? goal = some env) :
    env.size = r.slots ∧ env.Values (·.isGround) := by
  obtain ⟨head, -, h⟩ := start?_some h
  have hext := Bindings.withGoal_ok h
  exact ⟨hext.size_eq.trans (Bindings.size_empty _),
    hext.values (Bindings.values_empty _ _)⟩

end CheckedRule

namespace RuleSet

/-- A set of backward rules as it is built: checked rules are put in one after the other. -/
inductive Built : RuleSet → Prop where
  | empty : Built empty
  | insert {s : RuleSet} (h : Built s) {r : CheckedRule} (hr : r.IsChecked)
      (hback : r.rule.direction.isBackward) : Built (s.insert r)

theorem mem_of_mem_insert {s : RuleSet} {r q : CheckedRule} (h : q ∈ (s.insert r).rules) :
    q ∈ s.rules ∨ q = r := by
  unfold insert at h
  split at h
  · exact .inl h
  · split at h <;> simpa using h

theorem mem_insert_of_mem (s : RuleSet) (r : CheckedRule) {q : CheckedRule} (h : q ∈ s.rules) :
    q ∈ (s.insert r).rules := by
  unfold insert
  split
  · exact h
  · split <;> exact List.mem_append_left _ h

theorem contains_insert (s : RuleSet) (r : CheckedRule) : (s.insert r).contains r.rule := by
  unfold insert
  split
  · rename_i h
    exact h
  · split <;> simp [contains]

def ChecksOut (s : RuleSet) (known : Registry) : Prop := ∀ c ∈ s.rules, c.rule.check known = .ok c

theorem ChecksOut.mem_of_contains {s : RuleSet} {known : Registry} (h : s.ChecksOut known)
    {c : CheckedRule} (hc : c.rule.check known = .ok c) (hin : s.contains c.rule) :
    c ∈ s.rules := by
  rw [contains, List.any_eq_true] at hin
  obtain ⟨q, hq, heq⟩ := hin
  have hcheck := h q hq
  rw [of_decide_eq_true heq, hc, Except.ok.injEq] at hcheck
  rwa [hcheck]

structure Consistent (s : RuleSet) : Prop where
  checked : ∀ r ∈ s.rules, r.IsChecked
  backward : ∀ r ∈ s.rules, r.rule.direction.isBackward
  filed : ∀ k, s.byPredicate.get k = s.rules.filter (filingKey? · = some k)
  unfiled : s.unfiled = s.rules.filter (filingKey? · = none)

theorem Consistent.empty : Consistent empty :=
  ⟨by simp [RuleSet.empty], by simp [RuleSet.empty], fun _ => rfl, rfl⟩

theorem Consistent.sorts {s : RuleSet} (h : s.Consistent) :
    s.byPredicate.Sorts s.unfiled filingKey? s.rules := ⟨h.filed, h.unfiled⟩

theorem sorts_insert {s : RuleSet} (h : s.byPredicate.Sorts s.unfiled filingKey? s.rules)
    (r : CheckedRule) :
    (s.insert r).byPredicate.Sorts (s.insert r).unfiled filingKey? (s.insert r).rules := by
  unfold insert
  split
  · exact h
  · split
    · rename_i key hkey
      exact h.add hkey
    · rename_i hkey
      exact h.push hkey

theorem Consistent.insert {s : RuleSet} (h : s.Consistent) {r : CheckedRule} (hr : r.IsChecked)
    (hback : r.rule.direction.isBackward) : (s.insert r).Consistent := by
  have hsorts := sorts_insert h.sorts r
  refine ⟨fun q hq => ?_, fun q hq => ?_, hsorts.filed, hsorts.unfiled⟩
  · rcases mem_of_mem_insert hq with hq | rfl
    · exact h.checked q hq
    · exact hr
  · rcases mem_of_mem_insert hq with hq | rfl
    · exact h.backward q hq
    · exact hback

theorem Built.consistent {s : RuleSet} (h : s.Built) : s.Consistent := by
  induction h with
  | empty => exact .empty
  | insert _ hr hback ih => exact ih.insert hr hback

theorem Consistent.mem_rules_of_candidates {s : RuleSet} (h : s.Consistent) {goal : Triple}
    {r : CheckedRule} (hr : r ∈ s.candidates goal) : r ∈ s.rules := by
  unfold candidates at hr
  split at hr
  · rw [h.filed, h.unfiled] at hr
    rcases List.mem_append.mp hr with hr | hr <;> exact (List.mem_filter.mp hr).1
  · exact hr

theorem filingKey?_of_matches? {goal head : Triple} {r : CheckedRule}
    (hhead : r.headPattern? = some head) {σ : Variable → Term}
    (hgoal : goal.matches? (head.mapVars σ)) (hground : goal.predicate.isGround) :
    filingKey? r = some goal.predicate ∨ filingKey? r = none := by
  by_cases hkey : head.predicate.isGround
  · have hpred : head.predicate = goal.predicate := by
      rw [← (Store.term_eq_of_matches? hgoal).2.1 hground]
      exact (Term.mapVars_of_isGround hkey σ).symm
    exact .inl (by simp [filingKey?, hhead, hpred, hground])
  · exact .inr (by simp [filingKey?, hhead, hkey])

/-- No rule is hidden from a goal that matches an instance of its head. -/
theorem Consistent.mem_candidates {s : RuleSet} (h : s.Consistent) {goal head : Triple}
    {r : CheckedRule} (hr : r ∈ s.rules) (hhead : r.headPattern? = some head)
    {σ : Variable → Term} (hgoal : goal.matches? (head.mapVars σ)) : r ∈ s.candidates goal := by
  unfold candidates
  split
  · rename_i hground
    rw [h.filed, h.unfiled, List.mem_append, List.mem_filter, List.mem_filter]
    rcases filingKey?_of_matches? hhead hgoal hground with hkey | hkey
    · exact .inl ⟨hr, decide_eq_true hkey⟩
    · exact .inr ⟨hr, decide_eq_true hkey⟩
  · exact hr

end RuleSet

namespace RuleView

structure Built (v : RuleView) : Prop where
  base : ∀ s, v.base = some s → s.Built
  installed : v.installed.Built

def Has (v : RuleView) (r : CheckedRule) : Prop :=
  (∃ s, v.base = some s ∧ r ∈ s.rules) ∨ r ∈ v.installed.rules

theorem Built.isChecked {v : RuleView} (h : v.Built) {r : CheckedRule} (hr : v.Has r) :
    r.IsChecked := by
  rcases hr with ⟨s, hs, hr⟩ | hr
  · exact (h.base s hs).consistent.checked r hr
  · exact h.installed.consistent.checked r hr

theorem Built.exists_head {v : RuleView} (h : v.Built) {r : CheckedRule} (hr : v.Has r) :
    ∃ head, r.headPattern? = some head := by
  have hback : r.rule.direction.isBackward := by
    rcases hr with ⟨s, hs, hr⟩ | hr
    · exact (h.base s hs).consistent.backward r hr
    · exact h.installed.consistent.backward r hr
  exact Option.isSome_iff_exists.mp ((h.isChecked hr).headPattern?_isSome hback)

theorem Built.headPattern?_eq {v : RuleView} (h : v.Built) {r : CheckedRule} (hr : v.Has r)
    {head : Triple} (hhead : .pattern head ∈ r.rule.head) : r.headPattern? = some head := by
  obtain ⟨head', hhead'⟩ := h.exists_head hr
  rw [CheckedRule.headPattern?_eq_some.mp hhead', List.mem_singleton,
    Conclusion.pattern.injEq] at hhead
  rw [hhead', hhead]

theorem Built.has_of_mem_candidates {v : RuleView} (h : v.Built) {goal : Triple}
    {r : CheckedRule} (hr : r ∈ v.candidates goal) : v.Has r := by
  rw [candidates, List.mem_filter, List.mem_append] at hr
  rcases hr.1 with hr | hr
  · cases hbase : v.base with
    | none => simp [hbase] at hr
    | some s =>
        rw [hbase] at hr
        exact .inl ⟨s, hbase, (h.base s hbase).consistent.mem_rules_of_candidates hr⟩
  · exact .inr (h.installed.consistent.mem_rules_of_candidates hr)

/-- Every rule with a fitting instance is tried on a goal, and the goal is tabled. -/
theorem Built.mem_candidates {v : RuleView} (h : v.Built) {goal head : Triple} {r : CheckedRule}
    (hr : v.Has r) (hhead : r.headPattern? = some head) {τ : Nat → Term}
    (hgoal : goal.matches? (head.mapVars (bySlot τ))) :
    r ∈ v.candidates goal ∧ v.isTabled goal := by
  obtain ⟨env, henv, -, -⟩ := CheckedRule.start?_agrees (h.isChecked hr) hhead hgoal
  have hmatch : r.headMatches goal := by rw [CheckedRule.headMatches, henv, Option.isSome_some]
  rw [candidates, List.mem_filter, List.mem_append, isTabled, Bool.or_eq_true]
  rcases hr with ⟨s, hs, hr⟩ | hr
  · have hcand := (h.base s hs).consistent.mem_candidates hr hhead hgoal
    simp only [hs, Option.map_some, Option.getD_some, Option.any_some]
    exact ⟨⟨.inl hcand, hmatch⟩, .inl (List.any_eq_true.mpr ⟨r, hcand, hmatch⟩)⟩
  · have hcand := h.installed.consistent.mem_candidates hr hhead hgoal
    exact ⟨⟨.inr hcand, hmatch⟩, .inr (List.any_eq_true.mpr ⟨r, hcand, hmatch⟩)⟩

theorem isTabled_of_mem_candidates {v : RuleView} {goal : Triple} {r : CheckedRule}
    (hr : r ∈ v.candidates goal) : v.isTabled goal := by
  rw [candidates, List.mem_filter, List.mem_append] at hr
  rw [isTabled, Bool.or_eq_true]
  rcases hr.1 with hmem | hmem
  · cases hbase : v.base with
    | none => simp [hbase] at hmem
    | some s =>
        rw [hbase] at hmem
        exact .inl (List.any_eq_true.mpr ⟨r, hmem, hr.2⟩)
  · exact .inr (List.any_eq_true.mpr ⟨r, hmem, hr.2⟩)

/-- The rules that are tried on a goal are those that are tried on its canonical form. -/
theorem candidates_normalize (v : RuleView) (goal : Triple) :
    v.candidates goal.normalize = v.candidates goal := by
  have hhead : (fun r : CheckedRule => r.headMatches goal.normalize) =
      fun r => r.headMatches goal := by
    funext r
    unfold CheckedRule.headMatches CheckedRule.start?
    simp only [Bindings.withGoal_normalize]
  have hground : goal.normalize.predicate.isGround = goal.predicate.isGround :=
    Term.isGround_rename _ _
  have hset : ∀ s : RuleSet, s.candidates goal.normalize = s.candidates goal := by
    intro s
    rw [RuleSet.candidates, RuleSet.candidates, hground]
    split
    · rename_i hp
      have hsame : goal.normalize.predicate = goal.predicate := Term.mapVars_of_isGround hp _
      rw [hsame]
    · rfl
  rw [candidates, candidates, hhead, hset v.installed]
  simp only [hset]

end RuleView

end TripleRules
