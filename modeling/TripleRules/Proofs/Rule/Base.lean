import TripleRules.Proofs.Rule.Filing
import TripleRules.Rule.Base

/-!
# Rule bases

A base that was built from checked rules files every pattern clause of every forward rule as a
trigger, and no other triggers.  A triple that is an instance of a clause is therefore tried on it,
whichever bucket the clause is in.
-/

namespace TripleRules

theorem CheckedRule.IsChecked.isAxiom_iff {r : CheckedRule} (h : r.IsChecked) :
    r.rule.isAxiom ↔ ∀ p, .pattern p ∉ r.body := by
  obtain ⟨known, source, -, hcheck⟩ := h
  obtain ⟨-, hbody, rfl⟩ := Rule.check_ok hcheck
  have hall := resolveBody_ok hbody
  clear hbody hcheck
  rw [Rule.isAxiom]
  generalize r.rule.body = clauses at hall ⊢
  generalize r.body = premises at hall ⊢
  induction hall with
  | nil => simp
  | cons hc _ ih =>
      simp only [List.all_cons, Bool.and_eq_true, ih]
      rcases Clause.resolve_ok hc with ⟨t, rfl, rfl⟩ | ⟨name, args, b, rfl, rfl, -⟩
      · simp only [Clause.isCall, Bool.false_eq_true, false_and, false_iff]
        exact fun hnone => hnone t List.mem_cons_self
      · simp [Clause.isCall]

structure Trigger.IsOf (tr : Trigger) (r : CheckedRule) : Prop where
  rule : tr.rule = r
  clause : r.body[tr.clauseIndex]? = some (.pattern tr.pattern)
  rest : tr.rest = r.body.eraseIdx tr.clauseIndex

namespace CheckedRule

theorem isOf_of_mem_triggers {r : CheckedRule} {n : Nat} {tr : Trigger}
    (h : tr ∈ r.triggers n) : tr.IsOf r := by
  rw [triggers, List.mem_filterMap] at h
  obtain ⟨⟨c, i⟩, hmem, htr⟩ := h
  have hget : r.body[i]? = some c := List.mem_zipIdx_iff_getElem?.mp hmem
  cases c with
  | pattern p =>
      rw [Option.some.injEq] at htr
      subst htr
      exact ⟨rfl, hget, rfl⟩
  | call b args => cases htr

theorem mem_triggers {r : CheckedRule} (n : Nat) {i : Nat} {p : Triple}
    (h : r.body[i]? = some (.pattern p)) : ⟨n, i, r, p, r.body.eraseIdx i⟩ ∈ r.triggers n := by
  rw [triggers, List.mem_filterMap]
  exact ⟨(.pattern p, i), List.mem_zipIdx_iff_getElem?.mpr h, rfl⟩

end CheckedRule

namespace RuleBase

/-- A rule base as it is built: rules that pass the checks are added one after the other. -/
inductive Built : RuleBase → Prop where
  | empty (known : Registry) : Built (empty known)
  | add {b : RuleBase} (h : Built b) {source : Rule} (hmade : source.IsMade) {r : CheckedRule}
      (hr : source.check b.known = .ok r) : Built (b.add r)

def Holds (b : RuleBase) (tr : Trigger) : Prop :=
  (∃ k, tr ∈ b.triggers.get k) ∨ tr ∈ b.openTriggers

def Files (b : RuleBase) (tr : Trigger) : Prop :=
  if tr.pattern.predicate.isGround then tr ∈ b.triggers.get tr.pattern.predicate
  else tr ∈ b.openTriggers

/-! ## Adding triggers -/

theorem holds_addTrigger {b : RuleBase} {t u : Trigger} (h : (b.addTrigger t).Holds u) :
    b.Holds u ∨ u = t := by
  unfold addTrigger at h
  split at h
  · rcases h with ⟨k, hk⟩ | hopen
    · rw [Index.get_add, List.mem_append] at hk
      rcases hk with hk | hk
      · exact .inl (.inl ⟨k, hk⟩)
      · split at hk
        · exact .inr (List.mem_singleton.mp hk)
        · cases hk
    · exact .inl (.inr hopen)
  · rcases h with hfiled | hopen
    · exact .inl (.inl hfiled)
    · rcases List.mem_append.mp hopen with hopen | hopen
      · exact .inl (.inr hopen)
      · exact .inr (List.mem_singleton.mp hopen)

theorem files_addTrigger {b : RuleBase} {t u : Trigger} (h : b.Files u ∨ u = t) :
    (b.addTrigger t).Files u := by
  unfold addTrigger Files at *
  by_cases ht : t.pattern.predicate.isGround
  · rw [if_pos ht]
    rcases h with h | rfl
    · split
      · rename_i hu
        rw [if_pos hu] at h
        rw [Index.get_add]
        exact List.mem_append_left _ h
      · rename_i hu
        rwa [if_neg hu] at h
    · rw [if_pos ht, Index.get_add, if_pos rfl]
      exact List.mem_append_right _ (List.mem_singleton_self _)
  · rw [if_neg ht]
    rcases h with h | rfl
    · split
      · rename_i hu
        rwa [if_pos hu] at h
      · rename_i hu
        rw [if_neg hu] at h
        exact List.mem_append_left _ h
    · rw [if_neg ht]
      exact List.mem_append_right _ (List.mem_singleton_self _)

theorem addTrigger_keeps (b : RuleBase) (t : Trigger) :
    (b.addTrigger t).forward = b.forward ∧ (b.addTrigger t).backward = b.backward ∧
      (b.addTrigger t).known = b.known := by
  unfold addTrigger
  split <;> exact ⟨rfl, rfl, rfl⟩

theorem foldl_addTrigger (ts : List Trigger) (b : RuleBase) :
    (∀ u, (ts.foldl addTrigger b).Holds u → b.Holds u ∨ u ∈ ts) ∧
      (∀ u, b.Files u ∨ u ∈ ts → (ts.foldl addTrigger b).Files u) ∧
        (ts.foldl addTrigger b).forward = b.forward ∧
          (ts.foldl addTrigger b).backward = b.backward ∧
            (ts.foldl addTrigger b).known = b.known := by
  induction ts generalizing b with
  | nil => simp
  | cons t ts ih =>
      obtain ⟨hholds, hfiles, hforward, hbackward, hknown⟩ := ih (b.addTrigger t)
      obtain ⟨hforward', hbackward', hknown'⟩ := addTrigger_keeps b t
      rw [List.foldl_cons]
      refine ⟨fun u hu => ?_, fun u hu => ?_, hforward.trans hforward',
        hbackward.trans hbackward', hknown.trans hknown'⟩
      · rcases hholds u hu with hu | hu
        · rcases holds_addTrigger hu with hu | rfl
          · exact .inl hu
          · exact .inr List.mem_cons_self
        · exact .inr (List.mem_cons_of_mem _ hu)
      · refine hfiles u ?_
        rcases hu with hu | hu
        · exact .inl (files_addTrigger (.inl hu))
        · rcases List.mem_cons.mp hu with rfl | hu
          · exact .inl (files_addTrigger (.inr rfl))
          · exact .inr hu

/-! ## Whole bases -/

/-- The triggers are those of the forward rules, and the rules of both engines are checked. -/
structure Consistent (b : RuleBase) : Prop where
  forward : ∀ r ∈ b.forward, r.IsChecked
  backward : b.backward.Built
  holds : ∀ tr, b.Holds tr → ∃ r ∈ b.forward, tr.IsOf r
  files : ∀ r ∈ b.forward, ∀ (i : Nat) (p : Triple), r.body[i]? = some (.pattern p) →
    ∃ tr, b.Files tr ∧ tr.IsOf r ∧ tr.pattern = p ∧ tr.clauseIndex = i

theorem Consistent.empty (known : Registry) : (empty known).Consistent := by
  refine ⟨fun r hr => ?_, .empty, fun tr htr => ?_, fun r hr => ?_⟩
  · cases hr
  · rcases htr with ⟨k, hk⟩ | hopen
    · cases hk
    · cases hopen
  · cases hr

theorem Consistent.addForward {b : RuleBase} (h : b.Consistent) {r : CheckedRule}
    (hr : r.IsChecked) : (b.addForward r).Consistent := by
  obtain ⟨hholds, hfiles, hforward, hbackward, -⟩ :=
    foldl_addTrigger (r.triggers b.forward.length) b
  have hmem : ∀ q, q ∈ (b.addForward r).forward ↔ q ∈ b.forward ∨ q = r := by
    intro q
    simp only [RuleBase.addForward, hforward, List.mem_append, List.mem_singleton]
  refine ⟨fun q hq => ?_, ?_, fun tr htr => ?_, fun q hq i p hp => ?_⟩
  · rcases (hmem q).mp hq with hq | rfl
    · exact h.forward q hq
    · exact hr
  · simp only [RuleBase.addForward, hbackward]
    exact h.backward
  · rcases hholds tr htr with htr | htr
    · obtain ⟨q, hq, hof⟩ := h.holds tr htr
      exact ⟨q, (hmem q).mpr (.inl hq), hof⟩
    · exact ⟨r, (hmem r).mpr (.inr rfl), CheckedRule.isOf_of_mem_triggers htr⟩
  · rcases (hmem q).mp hq with hq | rfl
    · obtain ⟨tr, htr, hof⟩ := h.files q hq i p hp
      exact ⟨tr, hfiles tr (.inl htr), hof⟩
    · have htr := CheckedRule.mem_triggers b.forward.length hp
      exact ⟨_, hfiles _ (.inr htr), ⟨rfl, hp, rfl⟩, rfl, rfl⟩

theorem known_add (b : RuleBase) (r : CheckedRule) : (b.add r).known = b.known := by
  have hknown := (foldl_addTrigger (r.triggers b.forward.length) b).2.2.2.2
  simp only [add, addForward]
  split <;> split <;> first | rfl | exact hknown

theorem Consistent.add {b : RuleBase} (h : b.Consistent) {r : CheckedRule} (hr : r.IsChecked) :
    (b.add r).Consistent := by
  have hback : ∀ b' : RuleBase, b'.Consistent → r.rule.direction.isBackward →
      { b' with backward := b'.backward.insert r }.Consistent := fun b' h' hdir =>
    ⟨h'.forward, h'.backward.insert hr hdir, h'.holds, h'.files⟩
  have hrules : ∀ (b' : RuleBase) (rules : List Rule), b'.Consistent →
      { b' with rules := rules }.Consistent := fun b' rules h' =>
    ⟨h'.forward, h'.backward, h'.holds, h'.files⟩
  simp only [RuleBase.add]
  apply hrules
  split
  · rename_i hdir
    apply hback _ _ hdir
    split
    · exact h.addForward hr
    · exact h
  · split
    · exact h.addForward hr
    · exact h

theorem Built.consistent {b : RuleBase} (h : b.Built) : b.Consistent := by
  induction h with
  | empty known => exact .empty known
  | add _ hmade hr ih => exact ih.add ⟨_, _, hmade, hr⟩

section OfRules

variable {known : Registry} {rules : List Rule} {b : RuleBase}

theorem ofRules_induction {P : List Rule → RuleBase → Prop} (hempty : P [] (.empty known))
    (hadd : ∀ done b q c, P done b → b.known = known → q.check known = .ok c →
      P (done ++ [q]) (b.add c)) (h : ofRules known rules = .ok b) : P rules b := by
  have hfold : ∀ (rules done : List Rule) (b₀ : RuleBase), P done b₀ → b₀.known = known →
      rules.foldlM (fun b r => (r.check known).map b.add) b₀ = .ok b → P (done ++ rules) b := by
    intro rules
    induction rules with
    | nil =>
        intro done b₀ hb₀ _ h
        cases h
        rwa [List.append_nil]
    | cons q rules ih =>
        intro done b₀ hb₀ hknown h
        rw [List.foldlM_cons] at h
        cases hq : q.check known with
        | error e =>
            rw [hq] at h
            cases h
        | ok c =>
            rw [hq] at h
            rw [List.append_cons]
            exact ih _ _ (hadd _ _ q c hb₀ hknown hq) ((known_add b₀ c).trans hknown) h
  exact hfold rules [] _ hempty rfl h

theorem built_ofRules (hmade : ∀ r ∈ rules, r.IsMade) (h : ofRules known rules = .ok b) :
    b.Built := by
  refine ofRules_induction (P := fun done b => (∀ r ∈ done, r.IsMade) → b.Built)
    (fun _ => .empty known) (fun done b q c hb hknown hq hdone => ?_) h hmade
  refine .add (hb fun r hr => hdone r (List.mem_append_left _ hr)) ?_ (by rw [hknown]; exact hq)
  exact hdone q (List.mem_append_right _ List.mem_cons_self)

/-- Rules can be filed if each of them passes the checks. -/
theorem exists_ofRules (h : ∀ q ∈ rules, ∃ c, q.check known = .ok c) :
    ∃ b, ofRules known rules = .ok b := by
  unfold ofRules
  generalize empty known = b₀
  induction rules generalizing b₀ with
  | nil => exact ⟨b₀, rfl⟩
  | cons q rules ih =>
      obtain ⟨c, hc⟩ := h q List.mem_cons_self
      rw [List.foldlM_cons, hc]
      exact ih (fun r hr => h r (List.mem_cons_of_mem _ hr)) _

structure Gathers (b : RuleBase) (known : Registry) (rules : List Rule) : Prop where
  keeps_known : b.known = known
  checks : ∀ q ∈ rules, ∃ c, q.check known = .ok c
  mem_forward : ∀ c, c ∈ b.forward ↔
    c.rule.direction.isForward ∧ ∃ q ∈ rules, q.check known = .ok c
  mem_backward : ∀ c, c ∈ b.backward.rules ↔
    c.rule.direction.isBackward ∧ ∃ q ∈ rules, q.check known = .ok c

theorem mem_forward_add (b : RuleBase) (r c : CheckedRule) :
    c ∈ (b.add r).forward ↔ c ∈ b.forward ∨ (r.rule.direction.isForward ∧ c = r) := by
  have hforward := (foldl_addTrigger (r.triggers b.forward.length) b).2.2.1
  by_cases hdir : r.rule.direction.isForward <;>
    by_cases hback : r.rule.direction.isBackward <;>
      simp [add, addForward, hdir, hback, hforward]

theorem backward_add (b : RuleBase) (r : CheckedRule) :
    (b.add r).backward =
      if r.rule.direction.isBackward then b.backward.insert r else b.backward := by
  have hbackward := (foldl_addTrigger (r.triggers b.forward.length) b).2.2.2.1
  by_cases hdir : r.rule.direction.isForward <;>
    by_cases hback : r.rule.direction.isBackward <;>
      simp [add, addForward, hdir, hback, hbackward]

theorem Gathers.add {done : List Rule} (h : b.Gathers known done) {q : Rule} {c : CheckedRule}
    (hq : q.check known = .ok c) : (b.add c).Gathers known (done ++ [q]) := by
  obtain rfl : c.rule = q := (Rule.check_ok hq).2.2
  have hdone : ∀ c', (∃ q ∈ done ++ [c.rule], q.check known = .ok c') ↔
      (∃ q ∈ done, q.check known = .ok c') ∨ c' = c := by
    intro c'
    simp [or_and_right, exists_or, hq, eq_comm]
  refine ⟨(known_add b c).trans h.keeps_known, fun q hq' => ?_, fun c' => ?_, fun c' => ?_⟩
  · rcases List.mem_append.mp hq' with hq' | hq'
    · exact h.checks q hq'
    · rw [List.mem_singleton.mp hq']
      exact ⟨c, hq⟩
  · rw [mem_forward_add, h.mem_forward, hdone]
    constructor
    · rintro (⟨hdir, hc⟩ | ⟨hdir, rfl⟩)
      · exact ⟨hdir, .inl hc⟩
      · exact ⟨hdir, .inr rfl⟩
    · rintro ⟨hdir, hc | rfl⟩
      · exact .inl ⟨hdir, hc⟩
      · exact .inr ⟨hdir, rfl⟩
  · rw [backward_add, hdone]
    constructor
    · intro hc
      split at hc
      · rename_i hdir
        rcases RuleSet.mem_of_mem_insert hc with hc | rfl
        · exact ((h.mem_backward c').mp hc).imp_right .inl
        · exact ⟨hdir, .inr rfl⟩
      · exact ((h.mem_backward c').mp hc).imp_right .inl
    · rintro ⟨hdir, hc | rfl⟩
      · have hold := (h.mem_backward c').mpr ⟨hdir, hc⟩
        split
        · exact RuleSet.mem_insert_of_mem _ _ hold
        · exact hold
      · rw [if_pos hdir]
        -- An equal rule that is there already was checked with the same builtins.
        have hchecks : (b.backward.insert c').ChecksOut known := by
          intro r hr
          rcases RuleSet.mem_of_mem_insert hr with hr | rfl
          · obtain ⟨q, -, hcheck⟩ := ((h.mem_backward r).mp hr).2
            rwa [(Rule.check_ok hcheck).2.2]
          · exact hq
        exact hchecks.mem_of_contains hq (RuleSet.contains_insert _ _)

theorem gathers_ofRules (h : ofRules known rules = .ok b) : b.Gathers known rules := by
  refine ofRules_induction (P := fun done b => b.Gathers known done) ?_
    (fun _ _ _ _ hb _ hq => hb.add hq) h
  exact ⟨rfl, by simp, by simp [RuleBase.empty], by simp [RuleBase.empty, RuleSet.empty]⟩

end OfRules

/-! ## Looking for triggers -/

theorem Built.of_mem_triggersFor {b : RuleBase} (h : b.Built) {k : Term} {tr : Trigger}
    (htr : tr ∈ b.triggersFor k) : ∃ r ∈ b.forward, tr.IsOf r := by
  apply h.consistent.holds
  rcases List.mem_append.mp htr with htr | htr
  · exact .inl ⟨k, htr⟩
  · exact .inr htr

/-- An instance of a clause of a forward rule finds the trigger of the clause. -/
theorem Built.exists_mem_triggersFor {b : RuleBase} (h : b.Built) {r : CheckedRule}
    (hr : r ∈ b.forward) {p : Triple} (hp : .pattern p ∈ r.body) (σ : Variable → Term) :
    ∃ tr ∈ b.triggersFor (p.mapVars σ).predicate, tr.IsOf r ∧ tr.pattern = p := by
  obtain ⟨i, hi⟩ := List.mem_iff_getElem?.mp hp
  obtain ⟨tr, hfiles, hof, rfl, -⟩ := h.consistent.files r hr i p hi
  refine ⟨tr, ?_, hof, rfl⟩
  rw [triggersFor, List.mem_append]
  unfold Files at hfiles
  split at hfiles
  · rename_i hground
    have hpred : (tr.pattern.mapVars σ).predicate = tr.pattern.predicate :=
      Term.mapVars_of_isGround hground σ
    rw [hpred]
    exact .inl hfiles
  · exact .inr hfiles

end RuleBase

end TripleRules
