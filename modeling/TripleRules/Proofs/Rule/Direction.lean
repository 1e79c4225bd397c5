import TripleRules.Proofs.Rule.Base
import TripleRules.Proofs.Rule.Nested
import TripleRules.Settings.Basic

/-!
# Directions

The direction of a rule says which engines run it and nothing else.  A rule that concludes just one
pattern passes the checks in every direction or in none, and says the same in all of them.
-/

namespace TripleRules

def Direction.RunsIn (d : Direction) (m : Mode) : Prop :=
  (d.isForward = true ∧ m.runsForward = true) ∨ (d.isBackward = true ∧ m.runsBackward = true)

instance (d : Direction) (m : Mode) : Decidable (d.RunsIn m) :=
  inferInstanceAs (Decidable (_ ∨ _))

namespace Rule

def withDirection : Rule → Direction → Rule
  | mk name body head _ slots, direction => mk name body head direction slots

variable (r : Rule) (d : Direction)

@[simp] theorem body_withDirection : (r.withDirection d).body = r.body := by
  cases r
  rfl

@[simp] theorem head_withDirection : (r.withDirection d).head = r.head := by
  cases r
  rfl

@[simp] theorem direction_withDirection : (r.withDirection d).direction = d := by
  cases r
  rfl

@[simp] theorem headPattern?_withDirection :
    (r.withDirection d).headPattern? = r.headPattern? := by
  cases r
  rfl

@[simp] theorem unsafeVariable?_withDirection :
    (r.withDirection d).unsafeVariable? = r.unsafeVariable? := by
  cases r
  rfl

@[simp] theorem withDirection_withDirection (d' : Direction) :
    (r.withDirection d).withDirection d' = r.withDirection d' := by
  cases r
  rfl

variable {r}

theorem IsMade.withDirection (h : r.IsMade) : (r.withDirection d).IsMade := by
  obtain ⟨body, head, direction, name, rfl⟩ := h
  exact ⟨body, head, d, name, rfl⟩

theorem exists_head_of_isSome (h : r.headPattern?.isSome) : ∃ t, r.head = [.pattern t] := by
  unfold headPattern? at h
  split at h
  · rename_i t ht
    exact ⟨t, ht⟩
  · cases h

end Rule

theorem Clause.resolve_relabel {known : Registry} {label : String} {c : Clause} {p : Premise}
    (h : c.resolve known label = .ok p) (label' : String) : c.resolve known label' = .ok p := by
  cases c with
  | pattern t => exact h
  | call name args =>
      simp only [resolve, Registry.resolve] at h ⊢
      split at h
      · cases h
      · split at h
        · rename_i harity
          rw [if_pos harity]
          exact h
        · cases h

theorem resolveBody_relabel {known : Registry} {label : String} {body : List Clause}
    {premises : List Premise} (h : resolveBody known label body = .ok premises) (label' : String) :
    resolveBody known label' body = .ok premises := by
  have hall := resolveBody_ok h
  clear h
  unfold resolveBody
  induction hall with
  | nil => rfl
  | cons hc _ ih =>
      rw [List.mapM_cons, Clause.resolve_relabel hc label', ih]
      rfl

namespace Rule

/-- A rule with one head pattern passes the checks whichever way it is to be run. -/
theorem check_withDirection {r : Rule} (hhead : r.headPattern?.isSome) {known : Registry}
    {c : CheckedRule} (h : r.check known = .ok c) (d : Direction) :
    (r.withDirection d).check known = .ok ⟨r.withDirection d, c.body⟩ := by
  obtain ⟨hvalid, hbody, -⟩ := check_ok h
  obtain ⟨t, ht⟩ := exists_head_of_isSome hhead
  have hvalid' : (r.withDirection d).validate = .ok () := by
    rw [validate, head_withDirection, headPattern?_withDirection, unsafeVariable?_withDirection,
      (validate_ok hvalid).2, Option.isNone_eq_false_iff.mpr hhead, ht]
    simp
  have hbody' := resolveBody_relabel hbody (r.withDirection d).label
  rw [check, hvalid', body_withDirection, hbody', head_withDirection, ht]
  rfl

/-- A rule that concludes one pattern, and calls tests only, on variables of patterns before them.
-/
structure IsPlain (r : Rule) (known : Registry) : Prop where
  made : r.IsMade
  head : r.headPattern?.isSome
  tests : CallsTests known r.body
  guarded : GuardedUnder (fun _ => False) r.body

theorem IsPlain.withDirection {r : Rule} {known : Registry} (h : r.IsPlain known) (d : Direction) :
    (r.withDirection d).IsPlain known where
  made := h.made.withDirection d
  head := by
    rw [headPattern?_withDirection]
    exact h.head
  tests := by
    rw [body_withDirection]
    exact h.tests
  guarded := by
    rw [body_withDirection]
    exact h.guarded

theorem IsPlain.not_nested {r : Rule} {known : Registry} (h : r.IsPlain known) (q : Rule) :
    .rule q ∉ r.head := by
  obtain ⟨t, ht⟩ := exists_head_of_isSome h.head
  rw [ht]
  simp

end Rule

end TripleRules
