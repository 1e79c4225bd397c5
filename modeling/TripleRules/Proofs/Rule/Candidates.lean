import TripleRules.Proofs.Model.Least
import TripleRules.Proofs.Rule.Base

/-!
# What the rule indexes offer

An index of rules answers a goal with a part of its rules, and an index of triggers answers a
predicate with a part of its triggers.  Nothing that can apply is left out and nothing is offered
twice, whichever positions hold variables on either side.  A goal for which no rule is offered has
no answers but the facts.
-/

namespace TripleRules

theorem filter_eq_singleton_of_nodup {α β : Type} [DecidableEq β] {key : α → β} {l : List α}
    (h : (l.map key).Nodup) {a : α} (ha : a ∈ l) : l.filter (key · = key a) = [a] := by
  obtain ⟨front, back, rfl⟩ := List.append_of_mem ha
  rw [List.map_append, List.map_cons, List.nodup_middle, List.nodup_cons, ← List.map_append] at h
  have hother : ∀ x ∈ front ++ back, ¬ key x = key a := fun x hx heq =>
    h.1 (List.mem_map.mpr ⟨x, hx, heq⟩)
  have hfront : front.filter (key · = key a) = [] := List.filter_eq_nil_iff.mpr fun x hx => by
    simpa using hother x (List.mem_append_left _ hx)
  have hback : back.filter (key · = key a) = [] := List.filter_eq_nil_iff.mpr fun x hx => by
    simpa using hother x (List.mem_append_right _ hx)
  simp [List.filter_append, hfront, hback]

theorem Index.Sorts.filter_get {α : Type} {i : Index α} {rest all : List α}
    {key? : α → Option Term} (h : i.Sorts rest key? all) {P : α → Bool} {a : α}
    (hP : all.filter P = [a]) {k : Term} (hkey : key? a = some k ∨ key? a = none) :
    (i.get k ++ rest).filter P = [a] := by
  have hpart : ∀ Q : α → Bool, (all.filter Q).filter P = [a].filter Q := fun Q => by
    rw [List.filter_comm, hP]
  rw [List.filter_append, h.filed, h.unfiled, hpart, hpart]
  rcases hkey with hkey | hkey <;> simp [hkey]

theorem Index.Sorts.nodup_get {α β : Type} {i : Index α} {rest all : List α}
    {key? : α → Option Term} (h : i.Sorts rest key? all) {key : α → β}
    (hall : (all.map key).Nodup) (k : Term) : ((i.get k ++ rest).map key).Nodup := by
  have hpart : ∀ Q : α → Bool, ((all.filter Q).map key).Nodup := fun Q =>
    hall.sublist (List.filter_sublist.map key)
  rw [h.filed, h.unfiled, List.map_append]
  refine (hpart _).append (hpart _) fun x hx hx' => ?_
  obtain ⟨a, ha, rfl⟩ := List.mem_map.mp hx
  obtain ⟨a', ha', heq⟩ := List.mem_map.mp hx'
  rw [List.mem_filter, decide_eq_true_eq] at ha ha'
  obtain rfl : a' = a := List.inj_on_of_nodup_map hall ha'.1 ha.1 heq
  rw [ha.2] at ha'
  cases ha'.2

/-! ## Rules for a goal -/

namespace RuleSet

/-- A set that checked rules were put into, of whatever direction. -/
inductive Filled : RuleSet → Prop where
  | empty : Filled empty
  | insert {s : RuleSet} (h : Filled s) {r : CheckedRule} (hr : r.IsChecked) : Filled (s.insert r)

theorem Built.filled {s : RuleSet} (h : s.Built) : s.Filled := by
  induction h with
  | empty => exact .empty
  | insert _ hr _ ih => exact .insert ih hr

namespace Filled

variable {s : RuleSet}

theorem isChecked (h : s.Filled) {r : CheckedRule} (hr : r ∈ s.rules) : r.IsChecked := by
  induction h with
  | empty => simp [RuleSet.empty] at hr
  | insert _ hq ih =>
      rcases mem_of_mem_insert hr with hr | rfl
      · exact ih hr
      · exact hq

theorem sorts (h : s.Filled) : s.byPredicate.Sorts s.unfiled filingKey? s.rules := by
  induction h with
  | empty => exact .empty _
  | insert _ _ ih => exact sorts_insert ih _

theorem nodup (h : s.Filled) : (s.rules.map (·.rule)).Nodup := by
  induction h with
  | empty => exact List.nodup_nil
  | @insert s _ r _ ih =>
      unfold RuleSet.insert
      split
      · exact ih
      · rename_i hnew
        have hnew' : r.rule ∉ s.rules.map (·.rule) := by simpa [contains] using hnew
        have hnodup : ((s.rules ++ [r]).map (·.rule)).Nodup := by
          rw [List.map_append, List.map_singleton]
          exact ih.append (List.nodup_singleton _) (List.disjoint_singleton.mpr hnew')
        split <;> exact hnodup

end Filled

/-- A rule is offered to a goal: it comes up once, it can start, and its start leaves one of its
instances open. -/
structure Offers (s : RuleSet) (goal head : Triple) (r : CheckedRule) (τ : Nat → Term) : Prop where
  once : (s.candidates goal).filter (·.rule = r.rule) = [r]
  headMatches : r.headMatches goal
  canProve : s.canProve goal
  /-- The goal binds no slot to anything but what the slot stands for in the instance. -/
  agrees : ∃ env, (Bindings.empty r.slots).withGoal head goal = .ok env ∧ env.Agrees τ

/-- A rule is offered to every goal that an instance of its head answers. -/
theorem Filled.offers {s : RuleSet} (h : s.Filled) {r : CheckedRule} (hr : r ∈ s.rules)
    {head goal : Triple} (hhead : r.headPattern? = some head) {τ : Nat → Term}
    (hgoal : goal.matches? (head.mapVars (bySlot τ))) : s.Offers goal head r τ := by
  have honly := filter_eq_singleton_of_nodup h.nodup hr
  have honce : (s.candidates goal).filter (·.rule = r.rule) = [r] := by
    unfold candidates
    split
    · rename_i hground
      exact h.sorts.filter_get honly (filingKey?_of_matches? hhead hgoal hground)
    · exact honly
  obtain ⟨env, hstart, hagrees, -⟩ := CheckedRule.start?_agrees (h.isChecked hr) hhead hgoal
  have hmatch : r.headMatches goal := by rw [CheckedRule.headMatches, hstart, Option.isSome_some]
  have hcandidate : r ∈ s.candidates goal :=
    List.mem_of_mem_filter (honce ▸ List.mem_singleton_self r)
  obtain ⟨head', hhead', henv⟩ := CheckedRule.start?_some hstart
  obtain rfl : head' = head := Option.some.inj (hhead'.symm.trans hhead)
  exact ⟨honce, hmatch, List.any_eq_true.mpr ⟨r, hcandidate, hmatch⟩, env, henv, hagrees⟩

end RuleSet

namespace RuleView

structure Filled (v : RuleView) : Prop where
  base : ∀ s, v.base = some s → s.Filled
  installed : v.installed.Filled

/-- The rules that a reasoner works with are such sets. -/
theorem Built.filled {v : RuleView} (h : v.Built) : v.Filled :=
  ⟨fun s hs => (h.base s hs).filled, h.installed.filled⟩

theorem Filled.not_matches?_of_plain {v : RuleView} (h : v.Filled) {goal head : Triple}
    (hplain : v.isTabled goal = false) {r : CheckedRule} (hr : v.Has r)
    (hhead : r.headPattern? = some head) (τ : Nat → Term) :
    ¬ goal.matches? (head.mapVars (bySlot τ)) := by
  intro hgoal
  rw [isTabled, Bool.or_eq_false_iff] at hplain
  rcases hr with ⟨s, hs, hr⟩ | hr
  · have hproves := ((h.base s hs).offers hr hhead hgoal).canProve
    rw [hs, Option.any_some, hproves] at hplain
    exact Bool.noConfusion hplain.1
  · have hproves := (h.installed.offers hr hhead hgoal).canProve
    rw [hproves] at hplain
    exact Bool.noConfusion hplain.2

theorem Filled.isChecked {v : RuleView} (h : v.Filled) {r : CheckedRule} (hr : v.Has r) :
    r.IsChecked := by
  rcases hr with ⟨s, hs, hr⟩ | hr
  · exact (h.base s hs).isChecked hr
  · exact h.installed.isChecked hr

def Proves (v : RuleView) (r : CheckedRule) : Prop := v.Has r ∧ r.headPattern?.isSome

/-- A goal that is answered by look-up alone has no answers but the facts. -/
theorem Filled.fact_of_plain {v : RuleView} (h : v.Filled) {goal : Triple}
    (hplain : v.isTabled goal = false) {facts : Triple → Prop} {t : Triple}
    (ht : Entailed facts v.Proves t) (hgoal : goal.matches? t) : facts t := by
  cases ht with
  | fact ht => exact ht
  | @rule r hr σ hσ _ _ head hhead =>
      obtain ⟨hhas, hsome⟩ := hr
      obtain ⟨head', hhead'⟩ := Option.isSome_iff_exists.mp hsome
      obtain rfl : head = head' := by
        rw [CheckedRule.headPattern?_eq_some.mp hhead'] at hhead
        simpa using hhead
      obtain ⟨τ, -, hsame⟩ := (h.isChecked hhas).exists_instance hσ
      rw [hsame.heads head hhead] at hgoal
      exact absurd hgoal (h.not_matches?_of_plain hplain hhas hhead' τ)

end RuleView

/-! ## Triggers for a triple -/

def Trigger.key? (tr : Trigger) : Option Term :=
  if tr.pattern.predicate.isGround then some tr.pattern.predicate else none

def Trigger.place (tr : Trigger) : Nat × Nat := (tr.ruleIndex, tr.clauseIndex)

theorem CheckedRule.ruleIndex_of_mem_triggers {r : CheckedRule} {n : Nat} {tr : Trigger}
    (h : tr ∈ r.triggers n) : tr.ruleIndex = n := by
  rw [triggers, List.mem_filterMap] at h
  obtain ⟨⟨c, i⟩, -, htr⟩ := h
  cases c with
  | pattern p => exact (Option.some.inj htr) ▸ rfl
  | call b args => cases htr

theorem pairwise_snd_zipIdx {α : Type} (l : List α) :
    l.zipIdx.Pairwise fun x y => x.2 ≠ y.2 := by
  have hnodup : (l.zipIdx.map (·.2)).Nodup := by
    rw [List.zipIdx_map_snd]
    exact List.nodup_range'
  exact List.pairwise_map.mp hnodup

theorem CheckedRule.pairwise_clauseIndex (r : CheckedRule) (n : Nat) :
    (r.triggers n).Pairwise fun x y => x.clauseIndex ≠ y.clauseIndex := by
  refine List.Pairwise.filterMap _ ?_ (pairwise_snd_zipIdx r.body)
  rintro ⟨c, i⟩ ⟨d, j⟩ hne x hx y hy
  cases c with
  | call b args => cases hx
  | pattern p =>
      cases d with
      | call b args => cases hy
      | pattern q =>
          cases hx
          cases hy
          exact hne

namespace RuleBase

def allTriggers (b : RuleBase) : List Trigger :=
  b.forward.zipIdx.flatMap fun (r, n) => r.triggers n

theorem mem_allTriggers {b : RuleBase} {tr : Trigger} :
    tr ∈ b.allTriggers ↔
      ∃ (n : Nat) (r : CheckedRule), b.forward[n]? = some r ∧ tr ∈ r.triggers n := by
  simp only [allTriggers, List.mem_flatMap, Prod.exists, List.mem_zipIdx_iff_getElem?]
  exact exists_comm

/-- No two triggers are the same clause of the same rule. -/
theorem nodup_allTriggers (b : RuleBase) : (b.allTriggers.map Trigger.place).Nodup := by
  refine List.pairwise_map.mpr (List.pairwise_flatMap.mpr ⟨?_, ?_⟩)
  · rintro ⟨r, n⟩ -
    exact (r.pairwise_clauseIndex n).imp fun hne heq => hne (Prod.mk.inj heq).2
  · refine (pairwise_snd_zipIdx b.forward).imp ?_
    rintro ⟨r, n⟩ ⟨q, m⟩ hne x hx y hy heq
    have hn := CheckedRule.ruleIndex_of_mem_triggers hx
    have hm := CheckedRule.ruleIndex_of_mem_triggers hy
    exact hne (hn.symm.trans ((Prod.mk.inj heq).1.trans hm))

def Lists (b : RuleBase) : Prop :=
  b.triggers.Sorts b.openTriggers Trigger.key? b.allTriggers

theorem sorts_foldl_addTrigger (ts : List Trigger) {b : RuleBase} {all : List Trigger}
    (h : b.triggers.Sorts b.openTriggers Trigger.key? all) :
    (ts.foldl addTrigger b).triggers.Sorts (ts.foldl addTrigger b).openTriggers Trigger.key?
      (all ++ ts) := by
  induction ts generalizing b all with
  | nil => rwa [List.append_nil]
  | cons t ts ih =>
      rw [List.foldl_cons, List.append_cons]
      refine ih ?_
      unfold addTrigger
      split
      · rename_i hground
        exact h.add (if_pos hground)
      · rename_i hground
        exact h.push (if_neg hground)

theorem Lists.addForward {b : RuleBase} (h : b.Lists) (r : CheckedRule) :
    (b.addForward r).Lists := by
  have hforward := (foldl_addTrigger (r.triggers b.forward.length) b).2.2.1
  have hall : (b.addForward r).allTriggers =
      b.allTriggers ++ r.triggers b.forward.length := by
    simp [allTriggers, RuleBase.addForward, hforward, List.zipIdx_append]
  rw [Lists, hall]
  exact sorts_foldl_addTrigger _ h

theorem Lists.add {b : RuleBase} (h : b.Lists) (r : CheckedRule) : (b.add r).Lists := by
  simp only [RuleBase.add]
  split <;> split
  · exact h.addForward r
  · exact h
  · exact h.addForward r
  · exact h

theorem Built.lists {b : RuleBase} (h : b.Built) : b.Lists := by
  induction h with
  | empty known => exact .empty _
  | add _ _ _ ih => exact ih.add _

theorem Lists.of_mem_triggersFor {b : RuleBase} (h : b.Lists) {k : Term} {tr : Trigger}
    (htr : tr ∈ b.triggersFor k) : tr ∈ b.allTriggers := by
  rcases List.mem_append.mp htr with htr | htr
  · rw [Index.Sorts.filed h] at htr
    exact List.mem_of_mem_filter htr
  · rw [Index.Sorts.unfiled h] at htr
    exact List.mem_of_mem_filter htr

/-- A triple finds each clause of which it is an instance once. -/
theorem Lists.filter_triggersFor {b : RuleBase} (h : b.Lists) {n : Nat} {r : CheckedRule}
    (hr : b.forward[n]? = some r) {i : Nat} {p t : Triple} (hp : r.body[i]? = some (.pattern p))
    (ht : p.matches? t) :
    (b.triggersFor t.predicate).filter (·.place = (n, i)) =
      [⟨n, i, r, p, r.body.eraseIdx i⟩] := by
  have hmem := mem_allTriggers.mpr ⟨n, r, hr, CheckedRule.mem_triggers n hp⟩
  refine Index.Sorts.filter_get h (filter_eq_singleton_of_nodup b.nodup_allTriggers hmem) ?_
  unfold Trigger.key?
  split
  · rename_i hground
    exact .inl (by rw [(Store.term_eq_of_matches? ht).2.1 hground])
  · exact .inr rfl

end RuleBase

/-- Nothing that can apply is hidden.  A rule is offered once to every goal that an instance of its
head answers; a clause of a forward rule is found once by every triple that is an instance of it;
and what follows by the rules in force and answers a goal for which no rule is tried is a fact. -/
theorem nothing_hidden :
    (∀ s : RuleSet, s.Filled → ∀ r ∈ s.rules, ∀ head, r.headPattern? = some head →
      ∀ (goal : Triple) (τ : Nat → Term), goal.matches? (head.mapVars (bySlot τ)) →
        s.Offers goal head r τ) ∧
    (∀ b : RuleBase, b.Built → ∀ (n : Nat) (r : CheckedRule), b.forward[n]? = some r →
      ∀ (i : Nat) (p : Triple), r.body[i]? = some (.pattern p) → ∀ t, p.matches? t →
        (b.triggersFor t.predicate).filter (·.place = (n, i)) =
          [⟨n, i, r, p, r.body.eraseIdx i⟩]) ∧
    ∀ v : RuleView, v.Filled → ∀ goal, v.isTabled goal = false →
      ∀ (facts : Triple → Prop) (t : Triple), Entailed facts v.Proves t → goal.matches? t →
        facts t :=
  ⟨fun _ hs _ hr _ hhead _ _ hgoal => hs.offers hr hhead hgoal,
    fun _ hb _ _ hr _ _ hp _ ht => hb.lists.filter_triggersFor hr hp ht,
    fun _ hv _ hplain _ _ ht hgoal => hv.fact_of_plain hplain ht hgoal⟩

/-! ## An instance -/

def beforeItself : Triple := ⟨.named "u", .iri "before", .named "u"⟩

/-- A goal with a variable twice is offered the rule whose head has two variables; a triple finds
the second clause of the rule once; and a goal for other triples has no answers but the facts. -/
theorem before_not_hidden :
    (RuleSet.empty.insert CheckedRule.before).Offers beforeItself
        ⟨.var ⟨"x", 0⟩, .iri "before", .var ⟨"z", 2⟩⟩ .before (fun _ => .iri "a") ∧
      (((RuleBase.empty .standard).add .before).triggersFor (.iri "before")).filter
          (·.place = (0, 1)) =
        [⟨0, 1, .before, ⟨.var ⟨"y", 1⟩, .iri "before", .var ⟨"z", 2⟩⟩,
          CheckedRule.before.body.eraseIdx 1⟩] ∧
        ∀ t, Entailed (fun _ => False)
            (RuleView.mk none (RuleSet.empty.insert CheckedRule.before)).Proves t →
          ¬ (⟨.named "u", .iri "after", .named "u"⟩ : Triple).matches? t := by
  have hfilled : (RuleSet.empty.insert CheckedRule.before).Filled :=
    .insert .empty CheckedRule.isChecked_before
  have hbuilt : ((RuleBase.empty .standard).add CheckedRule.before).Built :=
    .add (.empty _) CheckedRule.isMade_beforeRule CheckedRule.check_beforeRule
  have hview : (RuleView.mk none (RuleSet.empty.insert CheckedRule.before)).Filled :=
    ⟨fun _ hs => (nomatch hs), hfilled⟩
  refine ⟨?_, ?_, ?_⟩
  · exact nothing_hidden.1 _ hfilled _ (List.mem_singleton_self _) _ rfl beforeItself
      (fun _ => .iri "a") (by decide +kernel)
  · exact nothing_hidden.2.1 _ hbuilt 0 .before rfl 1 _ rfl
      ⟨.iri "a", .iri "before", .iri "b"⟩ (by decide +kernel)
  · intro t ht hgoal
    exact nothing_hidden.2.2 _ hview ⟨.named "u", .iri "after", .named "u"⟩ (by decide +kernel)
      (fun _ => False) t ht hgoal

end TripleRules
