import TripleRules.Proofs.Tabling.Completion

/-!
# Links

Goals, frames and the lists that name them agree with one another in every state of the engine: a
goal is found under its canonical form, a frame is known to the goal it reads and to the goal it
works for, and only frames of a goal are resumed in its search.
-/

namespace TripleRules.Tabling

namespace Linked

variable {t t' : Tables}

theorem congr (h : Linked t) (hsize : t'.size = t.size) (hframes : t'.frames.size = t.frames.size)
    (hcache : t'.cache = t.cache) (hgoal : ∀ id, (t'.generator id).goal = (t.generator id).goal)
    (hconsuming : ∀ id, (t'.generator id).consuming = (t.generator id).consuming)
    (hgenerating : ∀ id, (t'.generator id).generating = (t.generator id).generating)
    (hcomplete : ∀ id, (t'.generator id).isComplete = (t.generator id).isComplete)
    (htarget : ∀ f, (t'.frame f).target = (t.frame f).target)
    (howner : ∀ f, (t'.frame f).owner = (t.frame f).owner)
    (hcontinuation : ∀ f, (t'.frame f).continuation = (t.frame f).continuation)
    (hready : ∀ id, ∀ f ∈ (t'.generator id).ready, f < t.frames.size ∧ (t.frame f).owner = id)
    (hstack : ∀ id f, .consume f ∈ (t'.generator id).stack →
      f < t.frames.size ∧ (t.frame f).owner = id) : Linked t' where
  cache key id := by rw [hcache, hsize, hgoal, h.cache]
  target_lt f hf := by
    rw [htarget, hsize]
    exact h.target_lt f (hframes ▸ hf)
  goal f hf := by
    rw [htarget, hgoal, hcontinuation]
    exact h.goal f (hframes ▸ hf)
  consuming id f := by rw [hconsuming, hframes, htarget, h.consuming]
  owner id f hf := by
    rw [hframes, howner]
    exact h.owner id f (hgenerating id ▸ hf)
  generating f hf hc := by
    rw [howner] at hc ⊢
    rw [hcomplete] at hc
    rw [hgenerating]
    exact h.generating f (hframes ▸ hf) hc
  nodup id := hgenerating id ▸ h.nodup id
  owner_lt f hf := by
    rw [howner, hsize]
    exact h.owner_lt f (hframes ▸ hf)
  ready id f hf := by
    rw [hframes, howner]
    exact hready id f hf
  stack id f hf := by
    rw [hframes, howner]
    exact hstack id f hf

theorem modifySearch (h : Linked t) (id : GeneratorId) (g : Search → Search)
    (hready : ∀ s, (t.generator id).search = some s → ∀ f ∈ (g s).ready,
      f < t.frames.size ∧ (t.frame f).owner = id)
    (hstack : ∀ s, (t.generator id).search = some s → ∀ f, .consume f ∈ (g s).stack →
      f < t.frames.size ∧ (t.frame f).owner = id) : Linked (t.modifySearch id g) := by
  apply h.congr
  case hsize => exact t.size_modifySearch id g
  case hframes | hcache => rfl
  case hgoal => exact t.goal_modifySearch id g
  case hconsuming => exact t.consuming_modifySearch id g
  case hgenerating => exact t.generating_modifySearch id g
  case hcomplete => exact t.isComplete_modifySearch id g
  case htarget | howner | hcontinuation => exact fun _ => rfl
  case hready =>
    intro j f hf
    rcases Tables.mem_ready_modifySearch hf with ⟨-, hf⟩ | ⟨rfl, s, hs, hf⟩
    · exact h.ready j f hf
    · exact hready s hs f hf
  case hstack =>
    intro j f hf
    rcases Tables.mem_stack_modifySearch hf with ⟨-, hf⟩ | ⟨rfl, s, hs, hf⟩
    · exact h.stack j f hf
    · exact hstack s hs f hf

theorem modifyFrame (h : Linked t) (id : FrameId) {g : Frame → Frame}
    (htarget : ∀ x, (g x).target = x.target) (howner : ∀ x, (g x).owner = x.owner)
    (hcontinuation : ∀ x, (g x).continuation = x.continuation) : Linked (t.modifyFrame id g) :=
  h.congr rfl (t.size_frames_modifyFrame id g) rfl (fun _ => rfl) (fun _ => rfl) (fun _ => rfl)
    (fun _ => rfl) (t.modifyFrame_keeps _ id htarget) (t.modifyFrame_keeps _ id howner)
    (t.modifyFrame_keeps _ id hcontinuation) h.ready h.stack

theorem retire (h : Linked t) (f : FrameId) : Linked (t.retire f) := by
  apply h.modifyFrame f
  all_goals exact fun _ => rfl

theorem lookup_addGenerator (h : Linked t) (ctx : Context) {key : Triple}
    (hnew : t.cache.lookup key = none) (k : Triple) (id : GeneratorId) :
    (t.addGenerator ctx key).cache.lookup k = some id ↔
      id < (t.addGenerator ctx key).size ∧ ((t.addGenerator ctx key).generator id).goal = k := by
  have hlookup : (t.addGenerator ctx key).cache.lookup k =
      ((t.cache.lookup k).or (([(key, t.size)] : List (Triple × GeneratorId)).lookup k)) :=
    List.lookup_append
  rw [hlookup, t.size_addGenerator, t.generator_addGenerator]
  by_cases hk : k = key
  · subst hk
    rw [hnew, Option.none_or, List.lookup_cons_self, Option.some.injEq]
    by_cases hid : id = t.size
    · rw [if_pos hid]
      exact ⟨fun _ => ⟨hid ▸ Nat.lt_succ_self _, rfl⟩, fun _ => hid.symm⟩
    · rw [if_neg hid]
      constructor
      · intro heq
        exact absurd heq.symm hid
      · rintro ⟨hlt, hgoal⟩
        have hcache := (h.cache k id).mpr
          ⟨Nat.lt_of_le_of_ne (Nat.lt_succ_iff.mp hlt) hid, hgoal⟩
        rw [hnew] at hcache
        cases hcache
  · have hnone : ([(key, t.size)] : List (Triple × GeneratorId)).lookup k = none := by
      rw [List.lookup_cons, beq_false_of_ne hk]
      rfl
    rw [hnone, Option.or_none, h.cache]
    by_cases hid : id = t.size
    · rw [if_pos hid]
      constructor
      · rintro ⟨hlt, -⟩
        exact absurd hid (Nat.ne_of_lt hlt)
      · rintro ⟨-, hgoal⟩
        exact absurd hgoal.symm hk
    · rw [if_neg hid]
      constructor
      · rintro ⟨hlt, hgoal⟩
        exact ⟨Nat.lt_succ_of_lt hlt, hgoal⟩
      · rintro ⟨hlt, hgoal⟩
        exact ⟨Nat.lt_of_le_of_ne (Nat.lt_succ_iff.mp hlt) hid, hgoal⟩

theorem addGenerator (h : Linked t) (ctx : Context) {key : Triple}
    (hnew : t.cache.lookup key = none) : Linked (t.addGenerator ctx key) where
  cache := h.lookup_addGenerator ctx hnew
  target_lt f hf := Nat.lt_of_lt_of_le (h.target_lt f hf) (by simp)
  goal f hf := by
    rw [t.frame_addGenerator, t.generator_addGenerator_of_lt ctx key (h.target_lt f hf)]
    exact h.goal f hf
  consuming id f := by
    rw [t.generator_addGenerator]
    by_cases hid : id = t.size
    · rw [if_pos hid]
      constructor
      · intro hf
        exact absurd hf List.not_mem_nil
      · rintro ⟨hf, htarget⟩
        have hlt := h.target_lt f hf
        rw [t.frame_addGenerator] at htarget
        exact absurd (htarget.trans hid) (Nat.ne_of_lt hlt)
    · rw [if_neg hid]
      exact h.consuming id f
  owner id f hf := by
    rw [t.generator_addGenerator] at hf
    split at hf
    · exact absurd hf List.not_mem_nil
    · exact h.owner id f hf
  generating f hf hc := by
    rw [t.frame_addGenerator, t.generator_addGenerator_of_lt ctx key (h.owner_lt f hf)] at hc ⊢
    exact h.generating f hf hc
  nodup id := by
    rw [t.generator_addGenerator]
    split
    · exact List.nodup_nil
    · exact h.nodup id
  owner_lt f hf := Nat.lt_of_lt_of_le (h.owner_lt f hf) (by simp)
  ready id f hf := by
    rw [t.generator_addGenerator] at hf
    split at hf
    · exact absurd hf List.not_mem_nil
    · exact h.ready id f hf
  stack id f hf := by
    rw [t.generator_addGenerator] at hf
    split at hf
    · simp [Generator.new, Generator.stack] at hf
    · exact h.stack id f hf

theorem generatorFor (h : Linked t) (ctx : Context) (goal : Triple) :
    Linked (t.generatorFor ctx goal).2 := by
  rcases t.settles_generatorFor ctx goal with hs | ⟨hnew, hs⟩
  · exact h.settles hs
  · exact (h.addGenerator ctx hnew).settles hs

theorem generatorFor_fst (h : Linked t) (ctx : Context) (goal : Triple) :
    (t.generatorFor ctx goal).1 < (t.generatorFor ctx goal).2.size ∧
      ((t.generatorFor ctx goal).2.generator (t.generatorFor ctx goal).1).goal =
        goal.normalize := by
  rcases t.generatorFor_cases ctx goal with ⟨id, f, hget, heq⟩ | ⟨f, hnew, heq⟩
  · rw [heq]
    exact (h.cache _ id).mp hget
  · rw [heq]
    have hcount := Tables.settles_count (t.addGenerator ctx goal.normalize) f
    have henqueue := Tables.settles_enqueue
      ((t.addGenerator ctx goal.normalize).count f) t.size
    dsimp only
    rw [henqueue.size, henqueue.goal, hcount.size, hcount.goal, t.size_addGenerator,
      t.generator_addGenerator, if_pos rfl]
    exact ⟨Nat.lt_succ_self _, rfl⟩

theorem named_link (t : Tables) (target owner : GeneratorId) (s : Suspension) {P : Frame → Prop}
    {l : List FrameId} {b : Prop} [Decidable b]
    (hl : ∀ f ∈ l, f < t.frames.size ∧ P (t.frame f))
    (hb : b → P ⟨target, owner, s, 0, t.readable target, false⟩) :
    ∀ f ∈ l ++ (if b then [t.frames.size] else []),
      f < (t.link target owner s).frames.size ∧ P ((t.link target owner s).frame f) := by
  intro f hf
  rw [t.lt_frames_link_iff]
  rcases List.mem_append.mp hf with hf | hf
  · obtain ⟨hlt, hP⟩ := hl f hf
    rw [t.frame_link_of_lt target owner s hlt]
    exact ⟨.inl hlt, hP⟩
  · split at hf
    · rename_i hcond
      rw [List.mem_singleton.mp hf, t.frame_link_new]
      exact ⟨.inr rfl, hb hcond⟩
    · exact absurd hf List.not_mem_nil

theorem nodup_generating_link (h : Linked t) (target : GeneratorId) {owner : GeneratorId}
    (s : Suspension) (howner : owner < t.size) (id : GeneratorId) :
    ((t.link target owner s).generator id).generating.Nodup := by
  rw [t.generating_link target s howner, List.nodup_append]
  refine ⟨h.nodup id, ?_, ?_⟩
  · split
    · exact List.pairwise_singleton _ _
    · exact List.nodup_nil
  · intro a ha b hb
    have hlt := (h.owner id a ha).1
    split at hb
    · rw [List.mem_singleton.mp hb]
      exact Nat.ne_of_lt hlt
    · exact absurd hb List.not_mem_nil

theorem link (h : Linked t) {target owner : GeneratorId} {s : Suspension}
    (htarget : target < t.size) (howner : owner < t.size)
    (hgoal : (t.generator target).goal = (s.env.instantiate s.pattern).normalize) :
    Linked (t.link target owner s) := by
  have hold : ∀ f < t.frames.size, (t.link target owner s).frame f = t.frame f := fun _ =>
    t.frame_link_of_lt target owner s
  have hnew := t.frame_link_new target owner s
  have hcases : ∀ f < (t.link target owner s).frames.size,
      f < t.frames.size ∨ f = t.frames.size := fun _ => (t.lt_frames_link_iff target owner s).mp
  exact {
    cache := fun key id => by
      rw [t.size_link, t.goal_link]
      exact h.cache key id
    target_lt := fun f hf => by
      rw [t.size_link]
      rcases hcases f hf with hf | rfl
      · rw [hold f hf]
        exact h.target_lt f hf
      · rw [hnew]
        exact htarget
    goal := fun f hf => by
      rw [t.goal_link]
      rcases hcases f hf with hf | rfl
      · rw [hold f hf]
        exact h.goal f hf
      · rw [hnew]
        exact hgoal
    consuming := fun id f => by
      rw [t.consuming_link owner s htarget]
      constructor
      · exact named_link t target owner s (P := (·.target = id))
          (fun f hf => (h.consuming id f).mp hf) (fun hid => hid.symm) f
      · rintro ⟨hf, hid⟩
        rw [List.mem_append]
        rcases hcases f hf with hf | rfl
        · rw [hold f hf] at hid
          exact .inl ((h.consuming id f).mpr ⟨hf, hid⟩)
        · rw [hnew] at hid
          rw [if_pos hid.symm]
          exact .inr (List.mem_singleton_self _)
    owner := fun id f hf => by
      rw [t.generating_link target s howner] at hf
      exact named_link t target owner s (P := (·.owner = id)) (fun f hf => h.owner id f hf)
        (fun hid => hid.symm) f hf
    generating := fun f hf hc => by
      rw [t.isComplete_link] at hc
      rw [t.generating_link target s howner, List.mem_append]
      rcases hcases f hf with hf | rfl
      · rw [hold f hf] at hc ⊢
        exact .inl (h.generating f hf hc)
      · rw [hnew, if_pos rfl]
        exact .inr (List.mem_singleton_self _)
    nodup := h.nodup_generating_link target s howner
    owner_lt := fun f hf => by
      rw [t.size_link]
      rcases hcases f hf with hf | rfl
      · rw [hold f hf]
        exact h.owner_lt f hf
      · rw [hnew]
        exact howner
    ready := fun id f hf => by
      rw [t.link_keeps target owner s (·.ready) (fun _ _ => rfl) (fun _ _ => rfl)] at hf
      obtain ⟨hlt, ho⟩ := h.ready id f hf
      rw [hold f hlt, t.frames_link]
      exact ⟨Nat.lt_succ_of_lt hlt, ho⟩
    stack := fun id f hf => by
      rw [t.stack_link target owner s] at hf
      obtain ⟨hlt, ho⟩ := h.stack id f hf
      rw [hold f hlt, t.frames_link]
      exact ⟨Nat.lt_succ_of_lt hlt, ho⟩ }

theorem suspend (h : Linked t) {target owner : GeneratorId} {s : Suspension}
    (htarget : target < t.size) (howner : owner < t.size)
    (hgoal : (t.generator target).goal = (s.env.instantiate s.pattern).normalize) :
    Linked (t.suspend target owner s) := by
  obtain ⟨f, heq⟩ := t.suspend_eq target owner s
  have hcount := Tables.settles_count (t.link target owner s) f
  have hlink := (h.link htarget howner hgoal).settles hcount
  rw [heq]
  split
  · apply hlink.modifySearch
    · intro s' hs' x hx
      rcases List.mem_append.mp hx with hx | hx
      · exact hlink.ready owner x (by rw [Generator.ready_of_some hs']; exact hx)
      · rw [List.mem_singleton.mp hx, hcount.frames, hcount.owner, t.frames_link, t.frame_link,
          if_pos rfl]
        exact ⟨Nat.lt_succ_self _, rfl⟩
    · intro s' hs' x hx
      exact hlink.stack owner x (by rw [Generator.stack_of_some hs']; exact hx)
  · exact hlink

theorem modifyStack (h : Linked t) (id : GeneratorId) {g : Search → Search}
    (hready : ∀ s, (g s).ready = s.ready)
    (hstack : ∀ s, (t.generator id).search = some s → ∀ f, .consume f ∈ (g s).stack →
      .consume f ∈ s.stack) : Linked (t.modifySearch id g) := by
  apply h.modifySearch
  · intro s hs f hf
    rw [hready] at hf
    exact h.ready id f (by rw [Generator.ready_of_some hs]; exact hf)
  · intro s hs f hf
    exact h.stack id f (by rw [Generator.stack_of_some hs]; exact hstack s hs f hf)

theorem replaceTop (h : Linked t) (id : GeneratorId) {c : ChoicePoint}
    (hc : ∀ f, c ≠ .consume f) : Linked (t.replaceTop id c) := by
  refine h.modifyStack id (fun _ => rfl) fun s _ f hf => ?_
  rcases List.mem_cons.mp hf with hf | hf
  · exact absurd hf.symm (hc f)
  · exact List.mem_of_mem_tail hf

theorem popChoice (h : Linked t) (id : GeneratorId) : Linked (t.popChoice id) :=
  h.modifyStack id (fun _ => rfl) fun _ _ _ hf => List.mem_of_mem_tail hf

theorem pushChoice (h : Linked t) (id : GeneratorId) {c : ChoicePoint}
    (hc : ∀ f, c ≠ .consume f) : Linked (t.pushChoice id c) := by
  refine h.modifyStack id (fun _ => rfl) fun s _ f hf => ?_
  rcases List.mem_cons.mp hf with hf | hf
  · exact absurd hf.symm (hc f)
  · exact hf

theorem takeReady (h : Linked t) (id : GeneratorId) : Linked (t.takeReady id) := by
  apply h.modifySearch
  · intro s hs f hf
    exact h.ready id f (by rw [Generator.ready_of_some hs]; exact List.mem_of_mem_tail hf)
  · intro s hs f hf
    simp only [List.mem_map, Option.mem_toList, ChoicePoint.consume.injEq, exists_eq_right] at hf
    exact h.ready id f (by rw [Generator.ready_of_some hs]; exact List.mem_of_mem_head? hf)

theorem pushAnswer (h : Linked t) (id : GeneratorId) (x : Triple) :
    Linked (t.pushAnswer id x) := by
  apply h.congr
  case hsize => exact t.size_modifyGenerator id _
  case hframes | hcache | htarget | howner | hcontinuation => intros; rfl
  case hgoal => exact t.goal_pushAnswer id x
  case hconsuming => exact t.pushAnswer_keeps (·.consuming) (fun _ _ _ _ => rfl) id x
  case hgenerating => exact t.pushAnswer_keeps (·.generating) (fun _ _ _ _ => rfl) id x
  case hcomplete => exact t.isComplete_pushAnswer id x
  case hready =>
    intro j f hf
    exact h.ready j f (t.ready_pushAnswer id x j ▸ hf)
  case hstack =>
    intro j f hf
    exact h.stack j f (t.stack_pushAnswer id x j ▸ hf)

theorem takes (h : Linked t) {id : GeneratorId} {w : Option Way} (ht : Takes t id w t') :
    Linked t' := by
  cases ht with
  | fact | start | data => exact h.replaceTop id fun _ => by simp
  | read => exact h.modifyFrame _ (fun _ => rfl) (fun _ => rfl) fun _ => rfl

theorem lands (h : Linked t) {ctx : Context} {id : GeneratorId} {w : Way} (hid : id < t.size)
    (hl : Lands ctx id w t t') : Linked t' := by
  induction hl with
  | known | barren => exact h
  | new hnew => exact (h.pushAnswer id _).settles (Tables.settles_addResult hnew _)
  | answer _ _ _ _ ih => exact ih h hid
  | holds _ _ ih => exact ih h hid
  | refused => exact h.settles (.of_eq rfl rfl rfl)
  | suspended =>
      exact (h.generatorFor ctx _).suspend (h.generatorFor_fst ctx _).1
        (Nat.lt_of_lt_of_le hid (size_le_generatorFor _ _ _)) (h.generatorFor_fst ctx _).2
  | opened => exact h.pushChoice id fun _ => by simp

theorem work (h : Linked t) {ctx : Context} {id : GeneratorId} (hw : Work ctx t id t') :
    Linked t' := by
  cases hw with
  | take => exact h.takeReady id
  | drop => exact h.popChoice id
  | retire => exact (h.retire _).popChoice id
  | pass ht => exact h.takes ht
  | land ht hl =>
      have hid := Tables.lt_size_of_isComplete_eq_false ht.isComplete
      exact (h.takes ht).lands (ht.size ▸ hid) hl

theorem move (h : Linked t) {ctx : Context} {turn turn' : Option Turn}
    (hm : Move ctx t turn t' turn') : Linked t' := by
  rcases hm.settles_or_work h with ⟨S, -, hs⟩ | ⟨id, hw⟩
  · exact h.settles hs
  · exact h.work hw

end Linked

end TripleRules.Tabling
