import TripleRules.Proofs.Rule.Base
import TripleRules.Proofs.Rule.Nested

/-!
# Acceptance

Which rules a base takes.  The conditions are on the rules alone: no clause is run to find them out,
and those on calls reach into nested rules of every depth.  A nested rule keeps them when an outer
rule is put into it, so whatever is wrong with it later lies in its form or in its variables.
-/

namespace TripleRules

/-! ## Calls -/

def Clause.Callable (known : Registry) : Clause → Prop
  | pattern _ => True
  | call name args => ∃ b, known.find? name = some b ∧ b.arity.accepts args.length

def Rule.Callable (known : Registry) (r : Rule) : Prop := ∀ c ∈ r.body, c.Callable known

/-- A rule stands in a head, or is nested in a rule there at some depth. -/
inductive Rule.Within (q : Rule) : List Conclusion → Prop where
  | here {head : List Conclusion} (h : .rule q ∈ head) : Within q head
  | deeper {head : List Conclusion} {r : Rule} (hr : .rule r ∈ head) (h : Within q r.head) :
      Within q head

theorem Clause.callable_mapVars {known : Registry} {f : Variable → Term} {c : Clause} :
    (c.mapVars f).Callable known ↔ c.Callable known := by
  cases c with
  | pattern t => exact Iff.rfl
  | call name args => simp only [mapVars, Callable, List.length_map]

theorem Clause.exists_resolve_iff {known : Registry} (label : String) {c : Clause} :
    (∃ p, c.resolve known label = .ok p) ↔ c.Callable known := by
  cases c with
  | pattern t => exact iff_of_true ⟨_, rfl⟩ trivial
  | call name args =>
      unfold resolve Registry.resolve Callable
      cases hb : known.find? name with
      | none => simp [hb, Except.map]
      | some b => by_cases ha : b.arity.accepts args.length <;> simp [hb, ha, Except.map]

theorem exists_resolveBody_iff {known : Registry} (label : String) {body : List Clause} :
    (∃ ps, resolveBody known label body = .ok ps) ↔ ∀ c ∈ body, c.Callable known := by
  unfold resolveBody
  induction body with
  | nil => exact iff_of_true ⟨_, rfl⟩ fun _ hc => absurd hc List.not_mem_nil
  | cons c cs ih =>
      rw [List.forall_mem_cons, ← ih, ← Clause.exists_resolve_iff label, List.mapM_cons]
      cases c.resolve known label with
      | error f => simp [bind, Except.bind]
      | ok p =>
          cases cs.mapM (Clause.resolve known label) with
          | error f => simp [bind, Except.bind]
          | ok ps => simp [bind, Except.bind, pure, Except.pure]

section Calls

variable {known : Registry}

theorem Rule.within_iff {q : Rule} {head : List Conclusion} :
    q.Within head ↔ ∃ r, .rule r ∈ head ∧ (q = r ∨ q.Within r.head) := by
  constructor
  · rintro (h | ⟨hr, h⟩)
    · exact ⟨q, h, .inl rfl⟩
    · exact ⟨_, hr, .inr h⟩
  · rintro ⟨r, hr, rfl | h⟩
    · exact .here hr
    · exact .deeper hr h

def NestedCallable (known : Registry) (head : List Conclusion) : Prop :=
  ∀ q : Rule, q.Within head → q.Callable known

theorem nestedCallable_iff {head : List Conclusion} : NestedCallable known head ↔
    ∀ r, .rule r ∈ head → r.Callable known ∧ NestedCallable known r.head := by
  constructor
  · intro h r hr
    exact ⟨h r (.here hr), fun q hq => h q (.deeper hr hq)⟩
  · intro h q hq
    obtain ⟨r, hr, rfl | hq⟩ := Rule.within_iff.mp hq
    · exact (h q hr).1
    · exact (h r hr).2 q hq

mutual

/-- The check of a conclusion looks at the calls of its nested rules, of every depth. -/
theorem Conclusion.checkCalls_ok_iff : (c : Conclusion) →
    (c.checkCalls known = .ok () ↔
        ∀ r, c = .rule r → r.Callable known ∧ NestedCallable known r.head)
  | .pattern t => by simp [checkCalls]
  | .rule (.mk name body head direction slots) => by
    have hhead := Conclusion.checkAllCalls_ok_iff head
    have hbody : _ ↔ ∀ c ∈ body, c.Callable known :=
      exists_resolveBody_iff (Rule.mk name body head direction slots).label
    simp only [Conclusion.rule.injEq, forall_eq']
    change _ ↔ (∀ c ∈ body, c.Callable known) ∧ NestedCallable known head
    rw [← hhead, ← hbody, checkCalls]
    cases resolveBody known (Rule.mk name body head direction slots).label body with
    | error f => simp
    | ok ps => simp

theorem Conclusion.checkAllCalls_ok_iff : (head : List Conclusion) →
    (Conclusion.checkAllCalls known head = .ok () ↔ NestedCallable known head)
  | [] => by
    rw [nestedCallable_iff]
    exact iff_of_true rfl fun _ hr => absurd hr List.not_mem_nil
  | c :: cs => by
    have hc := Conclusion.checkCalls_ok_iff c
    have hcs := Conclusion.checkAllCalls_ok_iff cs
    rw [nestedCallable_iff] at hcs ⊢
    have hsplit : (∀ r, .rule r ∈ c :: cs → r.Callable known ∧ NestedCallable known r.head) ↔
        (∀ r, c = .rule r → r.Callable known ∧ NestedCallable known r.head) ∧
          ∀ r, .rule r ∈ cs → r.Callable known ∧ NestedCallable known r.head := by
      constructor
      · exact fun h => ⟨fun r hr => h r (hr ▸ List.mem_cons_self),
          fun r hr => h r (List.mem_cons_of_mem _ hr)⟩
      · rintro ⟨h, h'⟩ r hr
        rcases List.mem_cons.mp hr with hr | hr
        · exact h r hr.symm
        · exact h' r hr
    rw [hsplit, ← hc, ← hcs, checkAllCalls]
    cases c.checkCalls known with
    | error f => simp
    | ok u => simp

end

end Calls

/-! ## Rules -/

namespace Rule

variable {known : Registry} {r : Rule}

/-- The form of a rule is sound: it concludes something, a rule that proves goals concludes one
pattern, and the variables of what it concludes occur in its body. -/
structure WellFormed (r : Rule) : Prop where
  head : r.head ≠ []
  single : r.direction.isBackward → ∃ t, r.head = [.pattern t]
  bound : ∀ t, .pattern t ∈ r.head → ∀ v ∈ t.occurrences, ∃ c ∈ r.body, v ∈ c.occurrences

/-- All that is asked of a rule. -/
structure Accepted (known : Registry) (r : Rule) : Prop extends WellFormed r where
  callable : r.Callable known
  nested : NestedCallable known r.head

theorem headPattern?_isSome_iff : r.headPattern?.isSome ↔ ∃ t, r.head = [.pattern t] := by
  unfold headPattern?
  split
  · rename_i t heq
    exact iff_of_true rfl ⟨t, heq⟩
  · rename_i hne
    refine iff_of_false (by simp) ?_
    rintro ⟨t, heq⟩
    exact hne t heq

theorem unsafeVariable?_eq_none_iff : r.unsafeVariable? = none ↔
    ∀ t, .pattern t ∈ r.head → ∀ v ∈ t.occurrences, ∃ c ∈ r.body, v ∈ c.occurrences := by
  constructor
  · exact fun h t ht v hv => List.mem_flatMap.mp (mem_body_of_unsafeVariable?_eq_none h ht hv)
  · intro h
    simp only [unsafeVariable?, List.findSome?_eq_none_iff]
    intro c hc
    cases c with
    | pattern t =>
        rw [List.find?_eq_none]
        intro v hv
        simpa using h t hc v ((Triple.mem_vars t v).mp hv)
    | rule q => rfl

theorem validate_ok_iff : r.validate = .ok () ↔ r.WellFormed := by
  constructor
  · intro h
    obtain ⟨hsingle, hbound⟩ := validate_ok h
    refine ⟨fun hhead => ?_, fun hback => headPattern?_isSome_iff.mp (hsingle hback),
      unsafeVariable?_eq_none_iff.mp hbound⟩
    rw [validate, if_pos hhead] at h
    cases h
  · intro h
    unfold validate
    have hsingle : (r.direction.isBackward && r.headPattern?.isNone) = false := by
      cases hback : r.direction.isBackward with
      | false => rfl
      | true =>
          simpa using headPattern?_isSome_iff.mpr (h.single hback)
    rw [if_neg h.head, hsingle, if_neg Bool.false_ne_true, unsafeVariable?_eq_none_iff.mpr h.bound]

/-- Just the rules that meet all conditions pass the check. -/
theorem exists_check_iff : (∃ c, r.check known = .ok c) ↔ r.Accepted known := by
  have hbody : (∃ ps, resolveBody known r.label r.body = .ok ps) ↔ ∀ c ∈ r.body, c.Callable known :=
    exists_resolveBody_iff r.label
  have hnested : Conclusion.checkAllCalls known r.head = .ok () ↔ NestedCallable known r.head :=
    Conclusion.checkAllCalls_ok_iff r.head
  have hform := validate_ok_iff (r := r)
  have hall : r.Accepted known ↔
      r.validate = .ok () ∧ (∃ ps, resolveBody known r.label r.body = .ok ps) ∧
        Conclusion.checkAllCalls known r.head = .ok () := by
    rw [hform, hbody, hnested]
    exact ⟨fun h => ⟨h.toWellFormed, h.callable, h.nested⟩, fun h => ⟨h.1, h.2.1, h.2.2⟩⟩
  rw [hall]
  unfold check
  cases r.validate with
  | error f => simp [bind, Except.bind]
  | ok u =>
      cases resolveBody known r.label r.body with
      | error f => simp [bind, Except.bind]
      | ok ps =>
          cases Conclusion.checkAllCalls known r.head with
          | error f => simp [bind, Except.bind]
          | ok u' => simp [bind, Except.bind, pure, Except.pure]

/-- A rule in which every call can be made fails the check only for its form or its variables. -/
theorem code_of_check_error (hcall : r.Callable known) (hnested : NestedCallable known r.head)
    {f : Fault} (h : r.check known = .error f) :
    f.code = .malformedRule ∨ f.code = .unsafeVariable := by
  obtain ⟨ps, hps⟩ := (exists_resolveBody_iff r.label).mpr hcall
  have hcalls := (Conclusion.checkAllCalls_ok_iff r.head).mpr hnested
  unfold check at h
  rw [hps, hcalls] at h
  unfold validate at h
  split at h
  · cases h
    exact .inl rfl
  · split at h
    · cases h
      exact .inl rfl
    · split at h
      · cases h
        exact .inr rfl
      · cases h

end Rule

namespace RuleBase

variable {known : Registry} {rules : List Rule}

/-- A base takes rules just when each of them meets the conditions. -/
theorem exists_ofRules_iff :
    (∃ b, ofRules known rules = .ok b) ↔ ∀ r ∈ rules, r.Accepted known := by
  constructor
  · rintro ⟨b, hb⟩ r hr
    exact Rule.exists_check_iff.mp ((gathers_ofRules hb).checks r hr)
  · exact fun h => exists_ofRules fun r hr => Rule.exists_check_iff.mpr (h r hr)

end RuleBase

/-! ## Nested rules under bindings -/

namespace Conclusion

variable {known : Registry} {f : Variable → Term}

theorem mem_mapVarsAll_iff {c : Conclusion} {cs : List Conclusion} :
    c ∈ Conclusion.mapVarsAll f cs ↔ ∃ c' ∈ cs, c = c'.mapVars f := by
  induction cs with
  | nil => simp [Conclusion.mapVarsAll]
  | cons c' cs ih => simp [Conclusion.mapVarsAll, ih]

theorem rule_eq_mapVars {c : Conclusion} {q : Rule} (h : .rule q = c.mapVars f) :
    ∃ q', c = .rule q' ∧ q.body = q'.body.map (Clause.mapVars f) ∧
      q.head = Conclusion.mapVarsAll f q'.head := by
  cases c with
  | pattern t => simp [Conclusion.mapVars] at h
  | rule q' =>
      cases q' with
      | mk name body head direction slots =>
          simp only [Conclusion.mapVars, Conclusion.rule.injEq] at h
          subst h
          exact ⟨_, rfl, rfl, rfl⟩

end Conclusion

variable {known : Registry}

theorem Rule.callable_map {body : List Clause} {f : Variable → Term}
    (h : ∀ c ∈ body, c.Callable known) : ∀ c ∈ body.map (Clause.mapVars f), c.Callable known := by
  intro c hc
  obtain ⟨c', hc', rfl⟩ := List.mem_map.mp hc
  exact Clause.callable_mapVars.mpr (h c' hc')

theorem NestedCallable.mapVars {head : List Conclusion} (h : NestedCallable known head)
    (f : Variable → Term) : NestedCallable known (Conclusion.mapVarsAll f head) := by
  intro q hq
  generalize hhead : Conclusion.mapVarsAll f head = head' at hq
  induction hq generalizing head with
  | here hmem =>
      subst hhead
      obtain ⟨c, hc, heq⟩ := Conclusion.mem_mapVarsAll_iff.mp hmem
      obtain ⟨q', rfl, hbody, -⟩ := Conclusion.rule_eq_mapVars heq
      unfold Rule.Callable
      rw [hbody]
      exact Rule.callable_map (h q' (.here hc))
  | deeper hmem _ ih =>
      subst hhead
      obtain ⟨c, hc, heq⟩ := Conclusion.mem_mapVarsAll_iff.mp hmem
      obtain ⟨r', rfl, -, hhead'⟩ := Conclusion.rule_eq_mapVars heq
      exact ih ((nestedCallable_iff.mp h r' hc).2) hhead'.symm

/-- The calls of a nested rule stay as they should be under the bindings of an outer rule. -/
theorem Rule.callable_specialize {r : Rule} (h : r.Callable known ∧ NestedCallable known r.head)
    (b : Bindings) :
    (r.specialize b).Callable known ∧ NestedCallable known (r.specialize b).head := by
  rw [Rule.specialize, Rule.Callable, Rule.body_withName, Rule.head_withName]
  exact ⟨Rule.callable_map (Rule.callable_map h.1), (h.2.mapVars _).mapVars _⟩

end TripleRules
