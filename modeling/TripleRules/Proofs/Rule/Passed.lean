import Mathlib.Data.List.Perm.Basic
import TripleRules.Proofs.Model.Least
import TripleRules.Proofs.Term.Bindings

/-!
# Passed clauses

Both engines go through a body clause by clause.  Bindings that have passed a clause make it true in
a set of triples and stay true of it as they grow.  A guarded body keeps its calls ground on the
way, so a body that has been passed is an instance that applies.
-/

namespace TripleRules

/-- The clauses have been passed under bindings: their patterns are in a set of triples, and their
calls hold. -/
structure Passed (M : Triple → Prop) (done : List Premise) (env : Bindings) : Prop where
  patterns : ∀ p, .pattern p ∈ done → (env.instantiate p).isGround ∧ M (env.instantiate p)
  calls : ∀ b args, .call b args ∈ done →
    (∀ a ∈ args, (env.resolve a).isGround) ∧ b.Accepts (args.map env.resolve)

def GuardedAfter (done rest : List Premise) : Prop :=
  ∀ before b args after, rest = before ++ .call b args :: after →
    b.IsTest ∧ ∀ a ∈ args, ∀ v ∈ a.occurrences,
      ∃ p, .pattern p ∈ done ++ before ∧ v ∈ p.occurrences

/-! ## Guarded bodies -/

theorem GuardedAfter.tail {done rest : List Premise} {c : Premise}
    (h : GuardedAfter done (c :: rest)) : GuardedAfter (done ++ [c]) rest := by
  intro before b args after hrest
  have hcall := h (c :: before) b args after (by rw [hrest, List.cons_append])
  rwa [List.append_assoc, List.singleton_append]

theorem CheckedRule.Guarded.guardedAfter {r : CheckedRule} (h : r.Guarded)
    {done rest : List Premise} (hbody : r.body = done ++ rest) : GuardedAfter done rest := by
  intro before b args after hrest
  exact h (done ++ before) b args after (by rw [hbody, hrest, List.append_assoc])

theorem GuardedAfter.head {done rest : List Premise} {c : Premise}
    (h : GuardedAfter done (c :: rest)) : GuardedAfter done [c] := by
  intro before b args after hrest
  cases before with
  | nil =>
      rw [List.nil_append, List.cons.injEq] at hrest
      exact h [] b args rest (by rw [hrest.1, List.nil_append])
  | cons d before => simp at hrest

theorem GuardedAfter.cons {done rest : List Premise} {c : Premise} (hc : GuardedAfter done [c])
    (h : GuardedAfter (done ++ [c]) rest) : GuardedAfter done (c :: rest) := by
  intro before b args after hrest
  cases before with
  | nil =>
      rw [List.nil_append, List.cons.injEq] at hrest
      exact hc [] b args [] (by rw [hrest.1, List.nil_append])
  | cons d before =>
      rw [List.cons_append, List.cons.injEq] at hrest
      obtain ⟨rfl, hrest⟩ := hrest
      have hcall := h before b args after hrest
      rwa [List.append_assoc, List.singleton_append] at hcall

theorem GuardedAfter.mono {done done' rest : List Premise} (h : GuardedAfter done rest)
    (hsub : done ⊆ done') : GuardedAfter done' rest := by
  intro before b args after hrest
  obtain ⟨htest, hvars⟩ := h before b args after hrest
  refine ⟨htest, fun a ha v hv => ?_⟩
  obtain ⟨q, hq, hv⟩ := hvars a ha v hv
  refine ⟨q, ?_, hv⟩
  rcases List.mem_append.mp hq with hq | hq
  · exact List.mem_append_left before (hsub hq)
  · exact List.mem_append_right done' hq

theorem GuardedAfter.eraseIdx {done rest : List Premise} (h : GuardedAfter done rest) {c : Premise}
    {i : Nat} (hi : rest[i]? = some c) : GuardedAfter (c :: done) (rest.eraseIdx i) := by
  induction rest generalizing done i with
  | nil => cases hi
  | cons d rest ih =>
      cases i with
      | zero =>
          rw [List.getElem?_cons_zero, Option.some.injEq] at hi
          subst hi
          rw [List.eraseIdx_cons_zero]
          exact h.tail.mono (List.perm_append_singleton d done).subset
      | succ i =>
          rw [List.getElem?_cons_succ] at hi
          rw [List.eraseIdx_cons_succ]
          exact (h.head.mono (List.subset_cons_self c done)).cons (ih h.tail hi)

/-- A guarded body may be entered at any of its clauses. -/
theorem CheckedRule.Guarded.guardedAfter_eraseIdx {r : CheckedRule} (h : r.Guarded) {c : Premise}
    {i : Nat} (hi : r.body[i]? = some c) : GuardedAfter [c] (r.body.eraseIdx i) :=
  (h.guardedAfter (List.nil_append r.body).symm).eraseIdx hi

theorem perm_cons_eraseIdx {body : List Premise} {i : Nat} {c : Premise} (h : body[i]? = some c) :
    (c :: body.eraseIdx i).Perm body := by
  obtain ⟨hlt, rfl⟩ := List.getElem?_eq_some_iff.mp h
  exact List.getElem_cons_eraseIdx_perm hlt

namespace Passed

variable {M : Triple → Prop} {done rest : List Premise} {env env' : Bindings}

theorem nil : Passed M [] env :=
  ⟨fun _ h => absurd h List.not_mem_nil, fun _ _ h => absurd h List.not_mem_nil⟩

theorem subset {done' : List Premise} (h : Passed M done env) (hsub : done' ⊆ done) :
    Passed M done' env :=
  ⟨fun p hp => h.patterns p (hsub hp), fun b args hcall => h.calls b args (hsub hcall)⟩

theorem of_extends {vs : List Variable} (h : Passed M done env) (hext : env.Extends env' vs) :
    Passed M done env' := by
  refine ⟨fun p hp => ?_, fun b args hcall => ?_⟩
  · obtain ⟨hground, hin⟩ := h.patterns p hp
    rw [Bindings.instantiate_eq_of_extends hext hground]
    exact ⟨hground, hin⟩
  · obtain ⟨hground, hacc⟩ := h.calls b args hcall
    have hres : ∀ a ∈ args, env'.resolve a = env.resolve a := fun a ha =>
      Bindings.resolve_eq_of_extends hext (hground a ha)
    refine ⟨fun a ha => ?_, ?_⟩
    · rw [hres a ha]
      exact hground a ha
    · rw [List.map_congr_left hres]
      exact hacc

theorem pattern (h : Passed M done env) {p : Triple} (hground : (env.instantiate p).isGround)
    (hin : M (env.instantiate p)) : Passed M (done ++ [.pattern p]) env := by
  refine ⟨fun q hq => ?_, fun b args hcall => ?_⟩
  · rcases List.mem_append.mp hq with hq | hq
    · exact h.patterns q hq
    · rw [List.mem_singleton, Premise.pattern.injEq] at hq
      rw [hq]
      exact ⟨hground, hin⟩
  · rcases List.mem_append.mp hcall with hcall | hcall
    · exact h.calls b args hcall
    · simp at hcall

theorem match? (h : Passed M done env) {p x : Triple} (hx : M x)
    (hmatch : env.match? p x = some env') : Passed M (done ++ [.pattern p]) env' := by
  obtain ⟨hext, hinst, hground⟩ := Bindings.match?_some hmatch
  refine (h.of_extends hext).pattern ?_ ?_
  · rw [hinst]
    exact hground
  · rw [hinst]
    exact hx

theorem call (h : Passed M done env) {b : Builtin} {args : List Term}
    (hground : ∀ a ∈ args, (env.resolve a).isGround) (hacc : b.Accepts (args.map env.resolve)) :
    Passed M (done ++ [.call b args]) env := by
  refine ⟨fun q hq => ?_, fun c cs hcall => ?_⟩
  · rcases List.mem_append.mp hq with hq | hq
    · exact h.patterns q hq
    · simp at hq
  · rcases List.mem_append.mp hcall with hcall | hcall
    · exact h.calls c cs hcall
    · rw [List.mem_singleton, Premise.call.injEq] at hcall
      rw [hcall.1, hcall.2]
      exact ⟨hground, hacc⟩

theorem isTest (h : Passed M done env) (henv : env.Values (·.isGround)) {b : Builtin}
    {args : List Term} (hguard : GuardedAfter done (.call b args :: rest)) :
    b.IsTest ∧ ∀ a ∈ args, (env.resolve a).isGround := by
  obtain ⟨htest, hvars⟩ := hguard [] b args rest rfl
  refine ⟨htest, fun a ha => (Bindings.isGround_resolve_iff henv a).mpr fun v hv => ?_⟩
  obtain ⟨p, hp, hv⟩ := hvars a ha v hv
  rw [List.append_nil] at hp
  exact (Bindings.isGround_instantiate_iff henv p).mp (h.patterns p hp).1 v hv

/-- The next call holds just when the builtin accepts its arguments, and then it leaves the bindings
as they are. -/
theorem call_holds_iff (h : Passed M done env) (henv : env.Values (·.isGround)) {b : Builtin}
    {args : List Term} (hguard : GuardedAfter done (.call b args :: rest)) (r : CheckedRule)
    (fresh : Nat) (env' : Bindings) :
    (r.call b args env fresh).1 = .holds env' ↔ b.Accepts (args.map env.resolve) ∧ env' = env := by
  obtain ⟨htest, hargs⟩ := h.isTest henv hguard
  rcases r.call_eq_of_isTest htest hargs fresh with ⟨hacc, heq⟩ | ⟨hacc, heq | ⟨f, heq⟩⟩
  · rw [heq, CallResult.holds.injEq]
    exact ⟨fun henv => ⟨hacc, henv.symm⟩, fun henv => henv.2.symm⟩
  · rw [heq]
    exact ⟨fun heq => (by cases heq), fun h => absurd h.1 hacc⟩
  · rw [heq]
    exact ⟨fun heq => (by cases heq), fun h => absurd h.1 hacc⟩

theorem call_ne_fault (h : Passed M done env) (henv : env.Values (·.isGround)) {b : Builtin}
    {args : List Term} (hguard : GuardedAfter done (.call b args :: rest)) (r : CheckedRule)
    (fresh : Nat) (f : Fault) : (r.call b args env fresh).1 ≠ .fault f := by
  obtain ⟨htest, hargs⟩ := h.isTest henv hguard
  rcases r.call_eq_of_isTest htest hargs fresh with ⟨-, heq⟩ | ⟨-, heq | ⟨f', heq⟩⟩
  all_goals
    rw [heq]
    simp

theorem has_of_mem (h : Passed M done env) (henv : env.Values (·.isGround)) {c : Premise}
    (hc : c ∈ done) {v : Variable} (hv : v ∈ c.occurrences) : ∃ x, env.Has v.slot x := by
  cases c with
  | pattern p => exact (Bindings.isGround_instantiate_iff henv p).mp (h.patterns p hc).1 v hv
  | call b args =>
      obtain ⟨a, ha, hv⟩ := List.mem_flatMap.mp hv
      exact (Bindings.isGround_resolve_iff henv a).mp ((h.calls b args hc).1 a ha) v hv

/-- What has been passed is an instance that applies, whatever the other slots stand for. -/
theorem applies (h : Passed M done env) (henv : env.Values (·.isGround)) {τ : Nat → Term}
    (hτ : env.Agrees τ) : Applies M done (bySlot τ) := by
  refine ⟨fun p hp => ?_, fun b args hcall => ?_⟩
  · rw [← Bindings.instantiate_eq_bySlot hτ p fun v hv => h.has_of_mem henv hp hv]
    exact (h.patterns p hp).2
  · have hres : ∀ a ∈ args, a.mapVars (bySlot τ) = env.resolve a := fun a ha =>
      (Bindings.resolve_eq_bySlot hτ a fun v hv =>
        h.has_of_mem henv hcall (List.mem_flatMap.mpr ⟨a, ha, hv⟩)).symm
    rw [List.map_congr_left hres]
    exact (h.calls b args hcall).2

end Passed

/-! ## The bindings of an instance -/

namespace CheckedRule

/-- The bindings with which an instance of a rule has passed the whole body: the slots of its
variables are bound, and no others. -/
def bindings (r : CheckedRule) (τ : Nat → Term) : Bindings :=
  ⟨(List.range r.slots).map fun i => if i ∈ r.vars.map (·.slot) then some (τ i) else none⟩

variable {r : CheckedRule} {τ : Nat → Term}

theorem getElem?_bindings {i : Nat} (hi : i < r.slots) :
    (r.bindings τ).slots[i]? = some (if i ∈ r.vars.map (·.slot) then some (τ i) else none) := by
  rw [bindings, List.getElem?_map, List.getElem?_range hi, Option.map_some]

theorem size_bindings : (r.bindings τ).size = r.slots := by
  rw [Bindings.size, bindings, List.length_map, List.length_range]

theorem has_bindings_iff (i : Nat) (x : Term) :
    (r.bindings τ).Has i x ↔ i < r.slots ∧ i ∈ r.vars.map (·.slot) ∧ x = τ i := by
  rw [Bindings.Has]
  by_cases hi : i < r.slots
  · rw [getElem?_bindings hi, Option.some.injEq]
    split
    · rename_i hv
      rw [Option.some.injEq]
      exact ⟨fun hx => ⟨hi, hv, hx.symm⟩, fun h => h.2.2.symm⟩
    · rename_i hv
      exact ⟨fun heq => (by cases heq), fun h => absurd h.2.1 hv⟩
  · rw [List.getElem?_eq_none (by rw [← Bindings.size, size_bindings]; omega)]
    exact ⟨fun heq => (by cases heq), fun h => absurd h.1 hi⟩

theorem agrees_bindings (r : CheckedRule) (τ : Nat → Term) : (r.bindings τ).Agrees τ :=
  fun i x hx => ((has_bindings_iff i x).mp hx).2.2

theorem has_bindings_of_mem (hr : r.IsChecked) {v : Variable} (hv : v ∈ r.vars) :
    ∃ x, (r.bindings τ).Has v.slot x :=
  ⟨τ v.slot, (has_bindings_iff _ _).mpr ⟨hr.slot_lt hv, List.mem_map_of_mem hv, rfl⟩⟩

theorem eq_bindings {env : Bindings} (hsize : env.size = r.slots)
    (hslots : ∀ i x, env.Has i x → i ∈ r.vars.map (·.slot))
    (hbound : ∀ v ∈ r.vars, ∃ x, env.Has v.slot x) (hagr : env.Agrees τ) :
    env = r.bindings τ := by
  have hext : env.slots = (r.bindings τ).slots := by
    apply List.ext_getElem?
    intro i
    by_cases hi : i < r.slots
    · have hlt : i < env.slots.length := by
        rw [← hsize] at hi
        exact hi
      have hget : env.slots[i]? = some env.slots[i] := List.getElem?_eq_getElem hlt
      rw [getElem?_bindings hi, hget]
      cases hslot : env.slots[i] with
      | none =>
          rw [if_neg]
          intro hmem
          obtain ⟨v, hv, rfl⟩ := List.mem_map.mp hmem
          obtain ⟨x, hx⟩ := hbound v hv
          rw [Bindings.Has, hget, hslot] at hx
          cases hx
      | some x =>
          have hx : env.Has i x := by rw [Bindings.Has, hget, hslot]
          rw [if_pos (hslots i x hx), hagr i x hx]
    · have hle : r.slots ≤ i := Nat.le_of_not_lt hi
      rw [List.getElem?_eq_none (hsize.trans_le hle), List.getElem?_eq_none]
      exact size_bindings.trans_le hle
  calc
    env = ⟨env.slots⟩ := rfl
    _ = ⟨(r.bindings τ).slots⟩ := by rw [hext]

theorem instantiate_bindings (hr : r.IsChecked) {p : Triple}
    (hp : ∀ v ∈ p.occurrences, v ∈ r.vars) :
    (r.bindings τ).instantiate p = p.mapVars (bySlot τ) :=
  Bindings.instantiate_eq_bySlot (r.agrees_bindings τ) p
    fun v hv => has_bindings_of_mem hr (hp v hv)

end CheckedRule

end TripleRules
