import TripleRules.Proofs.Tabling.Runs

/-!
# Answers

The answers of a goal are distinct, and an open search knows them all.
-/

namespace TripleRules.Tabling

/-- A search knows just the answers of its goal, and no answer comes twice. -/
structure Recorded (t : Tables) : Prop where
  known : ∀ id, (t.generator id).isComplete = false →
    ∀ x, x ∈ (t.generator id).known ↔ x ∈ (t.generator id).results
  nodup : ∀ id, (t.generator id).results.toList.Nodup

namespace Tables

theorem known_replaceTop (t : Tables) (id : GeneratorId) (c : ChoicePoint) (j : GeneratorId) :
    ((t.replaceTop id c).generator j).known = (t.generator j).known := by
  apply t.known_modifySearch id
  exact fun _ => rfl

theorem known_popChoice (t : Tables) (id j : GeneratorId) :
    ((t.popChoice id).generator j).known = (t.generator j).known := by
  apply t.known_modifySearch id
  exact fun _ => rfl

theorem known_pushAnswer (t : Tables) {id : GeneratorId} {s : Search}
    (hs : (t.generator id).search = some s) (x : Triple) (j : GeneratorId) :
    ((t.pushAnswer id x).generator j).known =
      if j = id then x :: (t.generator j).known else (t.generator j).known := by
  have hid := lt_size_of_isComplete_eq_false (Generator.isComplete_of_some hs)
  rw [pushAnswer, generator_modifyGenerator]
  by_cases hj : j = id
  · rw [if_pos ⟨hj, hid⟩, if_pos hj, hj]
    simp [Generator.known, hs]
  · rw [if_neg fun h => hj h.1, if_neg hj]

end Tables

namespace Recorded

variable {t t' : Tables}

theorem blank (h : t.Blank) : Recorded t := by
  have hsize : t.size = 0 := by rw [Tables.size, h.generators, Array.size_empty]
  have hg : ∀ id, t.generator id = default := fun id =>
    Tables.generator_of_size_le (by rw [hsize]; exact Nat.zero_le id)
  refine ⟨fun id hc => ?_, fun id => ?_⟩
  · rw [hg] at hc
    cases hc
  · rw [hg]
    exact List.nodup_nil

theorem settles {S : List GeneratorId} (h : Recorded t) (hs : Settles S t t') : Recorded t' := by
  refine ⟨fun id hc x => ?_, fun id => ?_⟩
  · rw [hs.known id hc, hs.results]
    exact h.known id (hs.isComplete_eq_false hc) x
  · rw [hs.results]
    exact h.nodup id

theorem congr (h : Recorded t)
    (hresults : ∀ id, (t'.generator id).results = (t.generator id).results)
    (hknown : ∀ id, (t'.generator id).known = (t.generator id).known)
    (hcomplete : ∀ id, (t'.generator id).isComplete = (t.generator id).isComplete) :
    Recorded t' := by
  refine ⟨fun id hc x => ?_, fun id => ?_⟩
  · rw [hknown, hresults]
    exact h.known id (hcomplete id ▸ hc) x
  · rw [hresults]
    exact h.nodup id

theorem generatorFor (h : Recorded t) (ctx : Context) (goal : Triple) :
    Recorded (t.generatorFor ctx goal).2 := by
  rcases t.settles_generatorFor ctx goal with hs | ⟨-, hs⟩
  · exact h.settles hs
  · refine settles ⟨fun id hc x => ?_, fun id => ?_⟩ hs
    · rw [t.generator_addGenerator] at hc ⊢
      split
      · simp [Generator.new, Generator.known]
      · rename_i hne
        rw [if_neg hne] at hc
        exact h.known id hc x
    · rw [t.generator_addGenerator]
      split
      · exact List.nodup_nil
      · exact h.nodup id

theorem suspend (h : Recorded t) (target owner : GeneratorId) (s : Suspension) :
    Recorded (t.suspend target owner s) := by
  have hlink : Recorded (t.link target owner s) :=
    h.congr (t.results_link target owner s)
      (t.link_keeps target owner s (·.known) (fun _ _ => rfl) (fun _ _ => rfl))
      (t.isComplete_link target owner s)
  obtain ⟨f, heq⟩ := t.suspend_eq target owner s
  have hcount := hlink.settles (Tables.settles_count _ f)
  rw [heq]
  split
  · refine hcount.congr (Tables.results_modifySearch _ _ _) ?_
      (Tables.isComplete_modifySearch _ _ _)
    apply Tables.known_modifySearch
    exact fun _ => rfl
  · exact hcount

theorem pushAnswer (h : Recorded t) {id : GeneratorId}
    (hc : (t.generator id).isComplete = false) {x : Triple} (hnew : x ∉ (t.generator id).known) :
    Recorded (t.pushAnswer id x) := by
  obtain ⟨s, hs⟩ := Generator.exists_search hc
  have hid := Tables.lt_size_of_isComplete_eq_false hc
  refine ⟨fun j hj y => ?_, fun j => ?_⟩
  · rw [t.isComplete_pushAnswer] at hj
    rw [t.known_pushAnswer hs, t.results_pushAnswer hid]
    split
    · rw [List.mem_cons, Array.mem_push, h.known j hj, or_comm]
    · exact h.known j hj y
  · rw [t.results_pushAnswer hid]
    split
    · rename_i hj
      subst hj
      rw [h.known j hc] at hnew
      rw [Array.toList_push, List.nodup_append]
      refine ⟨h.nodup j, List.pairwise_singleton _ _, fun a ha b hb => ?_⟩
      rw [List.mem_singleton.mp hb]
      rintro rfl
      exact hnew (Array.mem_toList_iff.mp ha)
    · exact h.nodup j

theorem takes (h : Recorded t) {id : GeneratorId} {w : Option Way} (ht : Takes t id w t') :
    Recorded t' := by
  cases ht with
  | fact | start | data =>
      exact h.congr (t.results_modifySearch id _) (t.known_replaceTop id _)
        (t.isComplete_modifySearch id _)
  | read => exact h.congr (fun _ => rfl) (fun _ => rfl) (fun _ => rfl)

theorem lands (h : Recorded t) {ctx : Context} {id : GeneratorId} {w : Way}
    (hc : (t.generator id).isComplete = false) (hl : Lands ctx id w t t') : Recorded t' := by
  induction hl with
  | known | barren => exact h
  | new hnew => exact (h.pushAnswer hc hnew).settles (Tables.settles_addResult hnew _)
  | answer _ _ _ _ ih => exact ih h hc
  | holds _ _ ih => exact ih h hc
  | refused => exact h.settles (.of_eq rfl rfl rfl)
  | suspended => exact (h.generatorFor ctx _).suspend _ _ _
  | opened =>
      refine h.congr (Tables.results_modifySearch _ _ _) ?_ (Tables.isComplete_modifySearch _ _ _)
      apply Tables.known_modifySearch
      exact fun _ => rfl

theorem work (h : Recorded t) {ctx : Context} {id : GeneratorId} (hw : Work ctx t id t') :
    Recorded t' := by
  cases hw with
  | take =>
      refine h.congr (t.results_modifySearch id _) ?_ (t.isComplete_modifySearch id _)
      apply t.known_modifySearch
      exact fun _ => rfl
  | drop =>
      exact h.congr (t.results_modifySearch id _) (t.known_popChoice id)
        (t.isComplete_modifySearch id _)
  | @retire f =>
      exact h.congr ((t.retire f).results_modifySearch id _) ((t.retire f).known_popChoice id)
        ((t.retire f).isComplete_modifySearch id _)
  | pass ht => exact h.takes ht
  | land ht hl => exact (h.takes ht).lands ((ht.isComplete_eq id).trans ht.isComplete) hl

end Recorded

end TripleRules.Tabling
