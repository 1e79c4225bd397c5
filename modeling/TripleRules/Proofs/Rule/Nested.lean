import Mathlib.Data.List.Forall2
import TripleRules.Proofs.Rule.Passed

/-!
# Nested rules

A nested rule is installed under the bindings of an outer one.  What the outer rule binds is ground
by then, so a nested rule whose calls use only such variables and those of patterns before them
becomes a guarded rule.
-/

namespace TripleRules

namespace Clause

theorem mapVars_eq_call {f : Variable → Term} {c : Clause} {name : String} {args : List Term}
    (h : c.mapVars f = .call name args) :
    ∃ args', c = .call name args' ∧ args'.map (Term.mapVars f) = args := by
  cases c with
  | pattern p => simp [mapVars] at h
  | call name' args' =>
      simp only [mapVars, call.injEq] at h
      exact ⟨args', by rw [h.1], h.2⟩

end Clause

/-- Every variable of a call is bound beforehand or occurs in a pattern before the call. -/
def GuardedUnder (bound : Variable → Prop) (body : List Clause) : Prop :=
  ∀ before name args after, body = before ++ .call name args :: after →
    ∀ a ∈ args, ∀ v ∈ a.occurrences, bound v ∨ ∃ p, .pattern p ∈ before ∧ v ∈ p.occurrences

/-- The calls that can be made are to tests. -/
def CallsTests (known : Registry) (body : List Clause) : Prop :=
  ∀ name args, .call name args ∈ body → ∀ b, known.find? name = some b → b.IsTest

def CheckedRule.OnlyTests (r : CheckedRule) : Prop :=
  ∀ b args, .call b args ∈ r.body → b.IsTest

theorem CallsTests.map {known : Registry} {body : List Clause} (h : CallsTests known body)
    (f : Variable → Term) : CallsTests known (body.map (Clause.mapVars f)) := by
  intro name args hcall b hb
  obtain ⟨c, hc, heq⟩ := List.mem_map.mp hcall
  obtain ⟨args', rfl, -⟩ := Clause.mapVars_eq_call heq
  exact h name args' hc b hb

/-- With the standard builtins only the one that mints nodes is no test. -/
theorem callsTests_standard (search : PatternSearch) {body : List Clause}
    (h : ∀ name args, .call name args ∈ body → name ≠ "makeTemp") :
    CallsTests (.standardWith search) body :=
  fun name args hcall _ hfind => Builtin.isTest_of_find? hfind (h name args hcall)

theorem CallsTests.make {known : Registry} {body : List Clause} (h : CallsTests known body)
    (head : List Conclusion) (d : Direction) : CallsTests known (Rule.make body head d).body :=
  h.map _

theorem CallsTests.specialize {known : Registry} {q : Rule} (h : CallsTests known q.body)
    (env : Bindings) : CallsTests known (q.specialize env).body := by
  rw [Rule.specialize, Rule.body_withName]
  exact (h.map _).make _ _

theorem GuardedUnder.map {bound : Variable → Prop} {body : List Clause}
    (h : GuardedUnder bound body) {f : Variable → Term} (hf : ∀ v, bound v → (f v).isGround) :
    GuardedUnder (fun _ => False) (body.map (Clause.mapVars f)) := by
  intro before name args after hbody a ha w hw
  obtain ⟨front, back, rfl, rfl, hback⟩ := List.map_eq_append_iff.mp hbody
  obtain ⟨c, rest, rfl, hcall, rfl⟩ := List.map_eq_cons_iff.mp hback
  obtain ⟨args', rfl, rfl⟩ := Clause.mapVars_eq_call hcall
  obtain ⟨a', ha', rfl⟩ := List.mem_map.mp ha
  rw [Term.occurrences_mapVars] at hw
  obtain ⟨v, hv, hw⟩ := List.mem_flatMap.mp hw
  rcases h front name args' rest rfl a' ha' v hv with hbound | ⟨p, hp, hvp⟩
  · have hnone : (f v).occurrences = [] := (Term.isGround_iff _).mp (hf v hbound)
    rw [hnone] at hw
    cases hw
  · refine .inr ⟨p.mapVars f, List.mem_map.mpr ⟨.pattern p, hp, rfl⟩, ?_⟩
    rw [Triple.occurrences_mapVars]
    exact List.mem_flatMap.mpr ⟨v, hvp, hw⟩

theorem mem_of_resolveBody {known : Registry} {label : String} {body : List Clause}
    {premises : List Premise}
    (h : List.Forall₂ (fun c p => c.resolve known label = .ok p) body premises) {t : Triple}
    (ht : .pattern t ∈ body) : .pattern t ∈ premises := by
  induction h with
  | nil => cases ht
  | @cons c p cs ps hc _ ih =>
      rcases List.mem_cons.mp ht with rfl | ht
      · rcases Clause.resolve_ok hc with ⟨u, hu, rfl⟩ | ⟨_, _, _, hu, -⟩
        · rw [Clause.pattern.injEq] at hu
          rw [hu]
          exact List.mem_cons_self
        · cases hu
      · exact List.mem_cons_of_mem _ (ih ht)

theorem exists_clause_of_mem {known : Registry} {label : String} {body : List Clause}
    {premises : List Premise}
    (h : List.Forall₂ (fun c p => c.resolve known label = .ok p) body premises) {p : Premise}
    (hp : p ∈ premises) : ∃ c ∈ body, c.resolve known label = .ok p := by
  induction h with
  | nil => cases hp
  | cons hc _ ih =>
      rcases List.mem_cons.mp hp with rfl | hp
      · exact ⟨_, List.mem_cons_self, hc⟩
      · obtain ⟨c, hmem, hc⟩ := ih hp
        exact ⟨c, List.mem_cons_of_mem _ hmem, hc⟩

theorem CallsTests.onlyTests {known : Registry} {r : Rule} {c : CheckedRule}
    (hcheck : r.check known = .ok c) (h : CallsTests known r.body) : c.OnlyTests := by
  intro b args hcall
  obtain ⟨clause, hclause, hresolve⟩ :=
    exists_clause_of_mem (resolveBody_ok (Rule.check_ok hcheck).2.1) hcall
  rcases Clause.resolve_ok hresolve with ⟨t, -, heq⟩ | ⟨name, args', b', rfl, heq, hfind⟩
  · cases heq
  · cases heq
    exact h name args hclause b hfind

theorem GuardedUnder.guarded {known : Registry} {r : Rule} {c : CheckedRule}
    (hcheck : r.check known = .ok c) (h : GuardedUnder (fun _ => False) r.body)
    (htests : CallsTests known r.body) : c.Guarded := by
  obtain ⟨-, hresolve, -⟩ := Rule.check_ok hcheck
  have hall := resolveBody_ok hresolve
  intro before b args after hbody
  rw [hbody] at hall
  have hfront := List.forall₂_take_append r.body before (.call b args :: after) hall
  have hback := List.forall₂_drop_append r.body before (.call b args :: after) hall
  obtain ⟨clause, back, hcall, -, hdrop⟩ := List.forall₂_cons_right_iff.mp hback
  have hsplit : r.body = r.body.take before.length ++ clause :: back := by
    rw [← hdrop, List.take_append_drop]
  rcases Clause.resolve_ok hcall with ⟨t, -, heq⟩ | ⟨name, args', b', rfl, heq, hfind⟩
  · cases heq
  · rw [Premise.call.injEq] at heq
    obtain ⟨rfl, rfl⟩ := heq
    refine ⟨htests name args ?_ b hfind, fun a ha v hv => ?_⟩
    · rw [hsplit]
      exact List.mem_append_right _ List.mem_cons_self
    · obtain ⟨p, hp, hv⟩ := (h _ name args back hsplit a ha v hv).resolve_left id
      exact ⟨p, mem_of_resolveBody hfront hp, hv⟩

namespace CheckedRule

/-- The calls of the nested rules are to tests, on variables of patterns before them or of patterns
of the outer rule. -/
def NestedGuarded (r : CheckedRule) (known : Registry) : Prop :=
  ∀ q, .rule q ∈ r.rule.head → CallsTests known q.body ∧
    GuardedUnder (fun v => ∃ p, .pattern p ∈ r.body ∧ v ∈ p.occurrences) q.body

/-- A nested rule is guarded when it is installed. -/
theorem NestedGuarded.guarded {r : CheckedRule} {known : Registry} (h : r.NestedGuarded known)
    (hr : r.IsChecked) {τ : Nat → Term} (hτ : ∀ i, (τ i).isGround) {q : Rule}
    (hq : .rule q ∈ r.rule.head) {c : CheckedRule}
    (hc : (q.specialize (r.bindings τ)).check known = .ok c) : c.Guarded := by
  obtain ⟨htests, hguard⟩ := h q hq
  let value (v : Variable) : Term := ((r.bindings τ).get? v).getD (.var v)
  have hvalue : ∀ v, (∃ p, .pattern p ∈ r.body ∧ v ∈ p.occurrences) → (value v).isGround := by
    rintro v ⟨p, hp, hv⟩
    have hmem : v ∈ r.vars := mem_vars_iff.mpr ⟨.pattern p, hp, hv⟩
    obtain ⟨x, hx⟩ := has_bindings_of_mem (τ := τ) hr hmem
    have hget : value v = x := by
      simp only [value, (Bindings.get?_eq_some_iff _ v x).mpr hx, Option.getD_some]
    rw [hget, r.agrees_bindings τ _ _ hx]
    exact hτ v.slot
  have hbody : (q.specialize (r.bindings τ)).body =
      (q.body.map (Clause.mapVars value)).map (Clause.mapVars (Rule.slotted (Rule.varNames
        (q.body.map (Clause.mapVars value)) (Conclusion.mapVarsAll value q.head)))) := by
    rw [Rule.specialize, Rule.body_withName]
    rfl
  apply GuardedUnder.guarded hc
  · rw [hbody]
    exact (hguard.map hvalue).map fun _ hfalse => hfalse.elim
  · rw [hbody]
    exact (htests.map value).map _

end CheckedRule

end TripleRules
