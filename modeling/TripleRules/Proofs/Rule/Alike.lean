import TripleRules.Proofs.Builtin.Ground
import TripleRules.Proofs.Rule.Filing

/-!
# One rule on different goals

A goal binds variables of the head before the body begins.  So on one goal a rule may have bound
what it has not on another, and a call may tell the difference: it takes a bound argument for a
test, where it would give a value to an unbound one.  Bindings are alike that differ only in slots
which the goal may have filled.  In a rule that calls nothing on such a slot before a pattern has
it, alike bindings stay alike.
-/

namespace TripleRules

namespace Bindings

/-- The same values, except in slots of a kind. -/
structure Alike (F : Nat → Prop) (b b' : Bindings) : Prop where
  size_eq : b'.size = b.size
  has_iff : ∀ i, ¬ F i → ∀ t, b'.Has i t ↔ b.Has i t

variable {F : Nat → Prop} {b b' c c' : Bindings} {τ : Nat → Term}

namespace Alike

theorem slots_eq (h : Alike F b b') {i : Nat} (hi : ¬ F i) : b'.slots[i]? = b.slots[i]? := by
  have hsize : b'.slots.length = b.slots.length := h.size_eq
  have hhas := h.has_iff i hi
  unfold Has at hhas
  by_cases hlt : i < b.slots.length
  · rw [List.getElem?_eq_getElem hlt, List.getElem?_eq_getElem (hsize ▸ hlt)] at hhas ⊢
    exact congrArg some (Option.ext fun t => by simpa using hhas t)
  · rw [List.getElem?_eq_none (Nat.not_lt.mp hlt),
      List.getElem?_eq_none (hsize ▸ Nat.not_lt.mp hlt)]

theorem resolve_eq (h : Alike F b b') {t : Term} (ht : ∀ v ∈ t.occurrences, ¬ F v.slot) :
    b'.resolve t = b.resolve t := by
  apply Term.mapVars_congr
  intro v hv
  rw [get?, get?, h.slots_eq (ht v hv)]

theorem bind (h : Alike F b b') {v : Variable} (hv : ¬ F v.slot) {x : Term}
    (hb : b.bind v x = .ok c) : ∃ c', b'.bind v x = .ok c' ∧ Alike F c c' := by
  have hslot := h.slots_eq hv
  unfold Bindings.bind at hb ⊢
  rw [hslot]
  split at hb
  · cases hb
  · cases hb
    refine ⟨_, rfl, ?_, fun i hi t => ?_⟩
    · simpa [size] using h.size_eq
    · have hhas := h.has_iff i hi t
      have hsize : b'.slots.length = b.slots.length := h.size_eq
      unfold Has at hhas ⊢
      simp only [List.getElem?_set, hsize]
      split
      · rfl
      · exact hhas
  · split at hb
    · rename_i heq
      cases hb
      exact ⟨b', if_pos heq, h⟩
    · cases hb

theorem accept (h : Alike F b b') {resolved : List Term}
    (hargs : ∀ v, .var v ∈ resolved → ¬ F v.slot) {values : List (Nat × Term)}
    (hb : b.accept resolved values = some c) :
    ∃ c', b'.accept resolved values = some c' ∧ Alike F c c' := by
  induction values generalizing b b' with
  | nil =>
      cases hb
      exact ⟨b', rfl, h⟩
  | cons x values ih =>
      rcases accept_cons_iff.mp hb with ⟨v, d, hv, hd, hb⟩ | ⟨hi, hvalue, hb⟩
      · obtain ⟨d', hd', hdd'⟩ := h.bind (hargs v (List.mem_of_getElem? hv)) hd
        obtain ⟨c', hc', halike⟩ := ih hdd' hb
        exact ⟨c', accept_cons_iff.mpr (.inl ⟨v, d', hv, hd', hc'⟩), halike⟩
      · obtain ⟨c', hc', halike⟩ := ih h hb
        exact ⟨c', accept_cons_iff.mpr (.inr ⟨hi, hvalue, hc'⟩), halike⟩

theorem agrees (h : Alike F c c') (hc : c.Agrees τ) (hb' : b'.Agrees τ) {vs : List Variable}
    (hext : b'.Extends c' vs) (hvs : ∀ v ∈ vs, ¬ F v.slot) : c'.Agrees τ := by
  intro i t ht
  by_cases hi : F i
  · rcases hext.adds i t ht with hold | ⟨-, v, hv, rfl⟩
    · exact hb' i t hold
    · exact absurd hi (hvs v hv)
  · exact hc i t ((h.has_iff i hi t).mp ht)

theorem match? (h : Alike F b b') {p x : Triple} (hb : b.match? p x = some c)
    (hb' : b'.match? p x = some c') (hτ : ∀ i, (τ i).isGround) (hc : c.Agrees τ)
    (hc' : c'.Agrees τ) : Alike (fun i => F i ∧ ∀ v ∈ p.occurrences, v.slot ≠ i) c c' := by
  obtain ⟨hext, hinst, hground⟩ := match?_some hb
  obtain ⟨hext', hinst', -⟩ := match?_some hb'
  refine ⟨hext'.size_eq.trans (h.size_eq.trans hext.size_eq.symm), fun i hi t => ?_⟩
  by_cases hv : ∃ v ∈ p.occurrences, v.slot = i
  · obtain ⟨v, hv, rfl⟩ := hv
    have hfilled := (isGround_instantiate_iff (hc.values hτ) p).mp (hinst ▸ hground) v hv
    have hfilled' := (isGround_instantiate_iff (hc'.values hτ) p).mp (hinst' ▸ hground) v hv
    obtain ⟨y, hy⟩ := hfilled
    obtain ⟨y', hy'⟩ := hfilled'
    obtain rfl : y = y' := (hc _ _ hy).trans (hc' _ _ hy').symm
    exact ⟨fun ht => ht.unique hy' ▸ hy, fun ht => ht.unique hy ▸ hy'⟩
  · have hold : ∀ {a d : Bindings}, a.Extends d p.occurrences → (d.Has i t ↔ a.Has i t) :=
      fun hext => ⟨fun ht => (hext.adds i t ht).resolve_right fun ⟨_, hnew⟩ => hv hnew,
        hext.keeps i t⟩
    rw [hold hext, hold hext']
    refine h.has_iff i (fun hF => hi ⟨hF, fun v hmem heq => hv ⟨v, hmem, heq⟩⟩) t

end Alike

theorem occurrences_resolve_subset (hb : b.Values (·.isGround)) (t : Term) :
    (b.resolve t).occurrences ⊆ t.occurrences := by
  intro w hw
  rw [resolve, Term.occurrences_mapVars] at hw
  obtain ⟨v, hv, hw⟩ := List.mem_flatMap.mp hw
  cases hget : b.get? v with
  | none =>
      rw [hget] at hw
      rw [List.mem_singleton.mp hw]
      exact hv
  | some x =>
      rw [hget, Option.getD_some,
        (Term.isGround_iff x).mp (hb _ _ ((get?_eq_some_iff b v x).mp hget))] at hw
      exact absurd hw List.not_mem_nil

end Bindings

namespace CheckedRule

open Bindings

variable {r : CheckedRule} {head : Triple} {done rest : List Premise} {env env' : Bindings}
  {τ : Nat → Term}

/-- Alike bindings make a call hold alike, and take the same values from it. -/
theorem call_alike {F : Nat → Prop} {b : Builtin} (hb : b.Grounds) {args : List Term}
    {fresh : Nat} (henv : env.Values (·.isGround)) (h : Alike F env env')
    (hargs : ∀ a ∈ args, ∀ v ∈ a.occurrences, ¬ F v.slot) {env₁ : Bindings}
    (hcall : (r.call b args env fresh).1 = .holds env₁) (hagrees : env₁.Agrees τ)
    (hagrees' : env'.Agrees τ) :
    ∃ env₁', (r.call b args env' fresh).1 = .holds env₁' ∧ Alike F env₁ env₁' ∧
      env₁'.Agrees τ := by
  have hresolved : args.map env'.resolve = args.map env.resolve :=
    List.map_congr_left fun a ha => h.resolve_eq (hargs a ha)
  have hfree : ∀ v ∈ (args.map env.resolve).flatMap Term.occurrences, ¬ F v.slot := by
    intro v hv
    obtain ⟨t, ht, hv⟩ := List.mem_flatMap.mp hv
    obtain ⟨a, ha, rfl⟩ := List.mem_map.mp ht
    exact hargs a ha v (occurrences_resolve_subset henv a hv)
  obtain ⟨values, hrun, haccept⟩ := call_holds_iff.mp hcall
  obtain ⟨env₁', haccept', halike⟩ := h.accept (fun v hv => hfree v
    (List.mem_flatMap.mpr ⟨_, hv, List.mem_singleton_self v⟩)) haccept
  have hcall' : (r.call b args env' fresh).1 = .holds env₁' :=
    call_holds_iff.mpr ⟨values, hresolved ▸ hrun, hresolved ▸ haccept'⟩
  have hext := hresolved ▸ call_extends hb hcall'
  exact ⟨env₁', hcall', halike, halike.agrees hagrees hagrees' hext hfree⟩

/-! ## Slots that the goal may fill -/

/-- A slot of the head that no pattern among some clauses has. -/
def GoalSlot (head : Triple) (done : List Premise) (i : Nat) : Prop :=
  (∃ v ∈ head.occurrences, v.slot = i) ∧ ∀ p, .pattern p ∈ done → ∀ v ∈ p.occurrences, v.slot ≠ i

/-- A call shares a variable with the head only if a pattern before the call has it. -/
def HeadGuarded (r : CheckedRule) : Prop :=
  ∀ before b args after, r.body = before ++ .call b args :: after →
    ∀ head, r.headPattern? = some head → ∀ a ∈ args, ∀ v ∈ a.occurrences, v ∈ head.occurrences →
      ∃ p, .pattern p ∈ before ∧ v ∈ p.occurrences

theorem IsChecked.mem_vars_of_headPattern? (h : r.IsChecked) (hhead : r.headPattern? = some head)
    {v : Variable} (hv : v ∈ head.occurrences) : v ∈ r.vars := by
  refine h.mem_vars_of_head ?_ hv
  rw [headPattern?_eq_some.mp hhead]
  exact List.mem_singleton_self _

theorem IsChecked.not_goalSlot (hr : r.IsChecked) (hhead : head.occurrences ⊆ r.vars)
    {v : Variable} (hv : v ∈ r.vars)
    (hguard : v ∈ head.occurrences → ∃ p, .pattern p ∈ done ∧ v ∈ p.occurrences) :
    ¬ GoalSlot head done v.slot := by
  rintro ⟨⟨w, hw, hslot⟩, hfree⟩
  obtain rfl : w = v := hr.eq_of_slot_eq (hhead hw) hv hslot
  obtain ⟨p, hp, hvp⟩ := hguard hw
  exact hfree p hp w hvp rfl

/-- No call is made on a slot that only the goal may have filled. -/
theorem HeadGuarded.not_goalSlot_of_call (h : r.HeadGuarded) (hr : r.IsChecked)
    (hhead : r.headPattern? = some head) {b : Builtin} {args : List Term}
    (hbody : r.body = done ++ .call b args :: rest) :
    ∀ a ∈ args, ∀ v ∈ a.occurrences, ¬ GoalSlot head done v.slot := by
  intro a ha v hv
  have hmem : v ∈ r.vars := by
    refine mem_vars_iff.mpr ⟨.call b args, ?_, List.mem_flatMap.mpr ⟨a, ha, hv⟩⟩
    rw [hbody]
    exact List.mem_append_right _ List.mem_cons_self
  exact hr.not_goalSlot (fun w => hr.mem_vars_of_headPattern? hhead) hmem
    (h done b args rest hbody head hhead a ha v hv)

theorem HeadGuarded.not_goalSlot_body (h : r.HeadGuarded) (hr : r.IsChecked)
    (hhead : r.headPattern? = some head) {v : Variable} (hv : v ∈ head.occurrences) :
    ¬ GoalSlot head r.body v.slot := by
  rintro ⟨-, hfree⟩
  obtain ⟨q, hq, hvq⟩ := mem_vars_iff.mp (hr.mem_vars_of_headPattern? hhead hv)
  cases q with
  | pattern p => exact hfree p hq v hvq rfl
  | call b args =>
      obtain ⟨before, after, hbody⟩ := List.append_of_mem hq
      obtain ⟨a, ha, hva⟩ := List.mem_flatMap.mp hvq
      obtain ⟨p, hp, hvp⟩ := h before b args after hbody head hhead a ha v hva hv
      refine hfree p ?_ v hvp rfl
      rw [hbody]
      exact List.mem_append_left _ hp

theorem goalSlot_append_pattern {p : Triple} (i : Nat) :
    GoalSlot head (done ++ [.pattern p]) i ↔
      GoalSlot head done i ∧ ∀ v ∈ p.occurrences, v.slot ≠ i := by
  simp only [GoalSlot, List.mem_append, List.mem_singleton, Premise.pattern.injEq, or_imp,
    forall_and, forall_eq, and_assoc]

theorem goalSlot_append_call {b : Builtin} {args : List Term} (i : Nat) :
    GoalSlot head (done ++ [.call b args]) i ↔ GoalSlot head done i := by
  simp [GoalSlot]

/-- A rule begins on two goals with bindings that differ in slots of its head only. -/
theorem start?_alike {goal goal' : Triple} (hhead : r.headPattern? = some head)
    (h : r.start? goal = some env) (h' : r.start? goal' = some env') :
    Alike (GoalSlot head []) env env' := by
  have hslots : ∀ {goal : Triple} {env : Bindings}, r.start? goal = some env →
      env.size = r.slots ∧ ∀ i, ¬ GoalSlot head [] i → ∀ t, ¬ env.Has i t := by
    intro goal env h
    obtain ⟨head', hhead', hgoal⟩ := start?_some h
    obtain rfl : head = head' := Option.some.inj (hhead.symm.trans hhead')
    refine ⟨(start?_extends h).1, fun i hi t ht => ?_⟩
    rcases (withGoal_ok hgoal).adds i t ht with hempty | ⟨-, v, hv, hslot⟩
    · exact not_has_empty _ i t hempty
    · exact hi ⟨⟨v, hv, hslot⟩, fun _ hp => absurd hp List.not_mem_nil⟩
  obtain ⟨hsize, hnone⟩ := hslots h
  obtain ⟨hsize', hnone'⟩ := hslots h'
  exact ⟨hsize'.trans hsize.symm, fun i hi t => iff_of_false (hnone' i hi t) (hnone i hi t)⟩

end CheckedRule

end TripleRules
