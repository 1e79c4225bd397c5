import TripleRules.Proofs.Tabling.Tables

/-!
# Scheduling

Most operations on the tables only arrange who goes on next.  They add no answers and open no
choices: goals, answers and what suspended rules have read stay as they are, and a search changes
only when it ends.  `Settles` says so, and names the searches that may have ended.
-/

namespace TripleRules.Tabling

/-- Goals, frames and their places agree with one another. -/
structure Linked (t : Tables) : Prop where
  cache : ∀ key id, t.cache.lookup key = some id ↔ id < t.size ∧ (t.generator id).goal = key
  target_lt : ∀ f < t.frames.size, (t.frame f).target < t.size
  goal : ∀ f < t.frames.size, (t.generator (t.frame f).target).goal =
    ((t.frame f).continuation.env.instantiate (t.frame f).continuation.pattern).normalize
  consuming : ∀ id f, f ∈ (t.generator id).consuming ↔ f < t.frames.size ∧ (t.frame f).target = id
  owner : ∀ id f, f ∈ (t.generator id).generating → f < t.frames.size ∧ (t.frame f).owner = id
  generating : ∀ f < t.frames.size, (t.generator (t.frame f).owner).isComplete = false →
    f ∈ (t.generator (t.frame f).owner).generating
  nodup : ∀ id, (t.generator id).generating.Nodup
  owner_lt : ∀ f < t.frames.size, (t.frame f).owner < t.size
  ready : ∀ id f, f ∈ (t.generator id).ready → f < t.frames.size ∧ (t.frame f).owner = id
  stack : ∀ id f, .consume f ∈ (t.generator id).stack → f < t.frames.size ∧ (t.frame f).owner = id

/-- Nothing changes but the order of work, the ends of the searches in `S` and the frames of goals
that have all their answers. -/
structure Settles (S : List GeneratorId) (t t' : Tables) : Prop where
  size : t'.size = t.size
  frames : t'.frames.size = t.frames.size
  cache : t'.cache = t.cache
  goal : ∀ id, (t'.generator id).goal = (t.generator id).goal
  results : ∀ id, (t'.generator id).results = (t.generator id).results
  consuming : ∀ id, (t'.generator id).consuming = (t.generator id).consuming
  isComplete : ∀ id, (t'.generator id).isComplete ↔ (t.generator id).isComplete ∨ id ∈ S
  stack : ∀ id, (t'.generator id).isComplete = false →
    (t'.generator id).stack = (t.generator id).stack
  known : ∀ id, (t'.generator id).isComplete = false →
    (t'.generator id).known = (t.generator id).known
  generating : ∀ id, (t'.generator id).generating = (t.generator id).generating ∨
    (t'.generator id).isComplete ∧ (t'.generator id).generating = []
  ready : ∀ id f, f ∈ (t'.generator id).ready →
    f ∈ (t.generator id).ready ∨ f < t.frames.size ∧ (t.frame f).owner = id
  target : ∀ f, (t'.frame f).target = (t.frame f).target
  owner : ∀ f, (t'.frame f).owner = (t.frame f).owner
  continuation : ∀ f, (t'.frame f).continuation = (t.frame f).continuation
  nextResult : ∀ f, (t'.frame f).nextResult = (t.frame f).nextResult
  finished : ∀ f, (t'.frame f).finished →
    (t.frame f).finished ∨ (t'.generator (t.frame f).owner).isComplete

namespace Settles

variable {S S' : List GeneratorId} {t t' t'' : Tables}

theorem refl (t : Tables) : Settles [] t t where
  size := rfl
  frames := rfl
  cache := rfl
  goal _ := rfl
  results _ := rfl
  consuming _ := rfl
  isComplete _ := by simp
  stack _ _ := rfl
  known _ _ := rfl
  generating _ := .inl rfl
  ready _ _ h := .inl h
  target _ := rfl
  owner _ := rfl
  continuation _ := rfl
  nextResult _ := rfl
  finished _ h := .inl h

theorem isComplete_mono (h : Settles S t t') {id : GeneratorId}
    (hc : (t.generator id).isComplete) : (t'.generator id).isComplete :=
  (h.isComplete id).mpr (.inl hc)

theorem isComplete_eq_false (h : Settles S t t') {id : GeneratorId}
    (hc : (t'.generator id).isComplete = false) : (t.generator id).isComplete = false := by
  by_contra hne
  rw [Bool.not_eq_false] at hne
  rw [h.isComplete_mono hne] at hc
  cases hc

theorem mem_stack (h : Settles S t t') {id : GeneratorId} {c : ChoicePoint}
    (hc : c ∈ (t'.generator id).stack) : c ∈ (t.generator id).stack :=
  h.stack id (Generator.isComplete_of_mem_stack hc) ▸ hc

theorem trans (h : Settles S t t') (h' : Settles S' t' t'') : Settles (S ++ S') t t'' where
  size := h'.size.trans h.size
  frames := h'.frames.trans h.frames
  cache := h'.cache.trans h.cache
  goal id := (h'.goal id).trans (h.goal id)
  results id := (h'.results id).trans (h.results id)
  consuming id := (h'.consuming id).trans (h.consuming id)
  isComplete id := by rw [h'.isComplete, h.isComplete, List.mem_append, or_assoc]
  stack id hc := (h'.stack id hc).trans (h.stack id (h'.isComplete_eq_false hc))
  known id hc := (h'.known id hc).trans (h.known id (h'.isComplete_eq_false hc))
  generating id := by
    rcases h'.generating id with hg | hg
    · rw [hg]
      exact (h.generating id).imp_right fun hg => ⟨h'.isComplete_mono hg.1, hg.2⟩
    · exact .inr hg
  ready id f hf := by
    rcases h'.ready id f hf with hf | ⟨hlt, ho⟩
    · exact h.ready id f hf
    · exact .inr ⟨h.frames ▸ hlt, h.owner f ▸ ho⟩
  target f := (h'.target f).trans (h.target f)
  owner f := (h'.owner f).trans (h.owner f)
  continuation f := (h'.continuation f).trans (h.continuation f)
  nextResult f := (h'.nextResult f).trans (h.nextResult f)
  finished f hf := by
    rcases h'.finished f hf with hf | hf
    · exact (h.finished f hf).imp_right h'.isComplete_mono
    · exact .inr (h.owner f ▸ hf)

theorem of_subset (h : Settles S t t') (hsub : ∀ id ∈ S, (t.generator id).isComplete ∨ id ∈ S')
    (hsub' : ∀ id ∈ S', (t'.generator id).isComplete) : Settles S' t t' :=
  { h with
    isComplete := by
      intro id
      constructor
      · intro hc
        rcases (h.isComplete id).mp hc with hc | hc
        · exact .inl hc
        · exact hsub id hc
      · rintro (hc | hc)
        · exact h.isComplete_mono hc
        · exact hsub' id hc }

/-! ## Single writes -/

theorem modifyGenerator (t : Tables) (id : GeneratorId) {f : Generator → Generator}
    (hgoal : ∀ g, (f g).goal = g.goal) (hresults : ∀ g, (f g).results = g.results)
    (hconsuming : ∀ g, (f g).consuming = g.consuming)
    (hgenerating : ∀ g, (f g).generating = g.generating)
    (hcomplete : ∀ g, (f g).isComplete = g.isComplete) (hstack : ∀ g, (f g).stack = g.stack)
    (hknown : ∀ g, (f g).known = g.known)
    (hready : ∀ g, ∀ x ∈ (f g).ready, x ∈ g.ready ∨ x < t.frames.size ∧ (t.frame x).owner = id) :
    Settles [] t (t.modifyGenerator id f) where
  size := t.size_modifyGenerator id f
  frames := rfl
  cache := rfl
  goal := t.modifyGenerator_keeps _ id hgoal
  results := t.modifyGenerator_keeps _ id hresults
  consuming := t.modifyGenerator_keeps _ id hconsuming
  isComplete j := by
    rw [t.modifyGenerator_keeps (·.isComplete) id hcomplete j]
    simp
  stack j _ := t.modifyGenerator_keeps _ id hstack j
  known j _ := t.modifyGenerator_keeps _ id hknown j
  generating j := .inl (t.modifyGenerator_keeps _ id hgenerating j)
  ready j x hx := by
    rw [t.generator_modifyGenerator] at hx
    split at hx
    · rename_i hj
      rw [hj.1] at hx ⊢
      exact hready _ x hx
    · exact .inl hx
  target _ := rfl
  owner _ := rfl
  continuation _ := rfl
  nextResult _ := rfl
  finished _ h := .inl h

theorem modifySearch (t : Tables) (id : GeneratorId) {f : Search → Search}
    (hstack : ∀ s, (f s).stack = s.stack) (hknown : ∀ s, (f s).known = s.known)
    (hready : ∀ s, ∀ x ∈ (f s).ready, x ∈ s.ready ∨ x < t.frames.size ∧ (t.frame x).owner = id) :
    Settles [] t (t.modifySearch id f) := by
  apply modifyGenerator t id
  case hgoal | hresults | hconsuming | hgenerating => exact fun _ => rfl
  case hcomplete => exact fun g => by simp [Generator.isComplete]
  case hstack =>
    intro g
    cases hs : g.search <;> simp [Generator.stack, hs, hstack]
  case hknown =>
    intro g
    cases hs : g.search <;> simp [Generator.known, hs, hknown]
  case hready =>
    intro g x hx
    cases hs : g.search with
    | none => simp [Generator.ready, hs] at hx
    | some s =>
        rw [Generator.ready_of_some hs]
        exact hready s x (by simpa [Generator.ready, hs] using hx)

theorem modifyFrame (t : Tables) (id : FrameId) {f : Frame → Frame}
    (htarget : ∀ x, (f x).target = x.target) (howner : ∀ x, (f x).owner = x.owner)
    (hcontinuation : ∀ x, (f x).continuation = x.continuation)
    (hnext : ∀ x, (f x).nextResult = x.nextResult)
    (hfinished : (f (t.frame id)).finished →
      (t.frame id).finished ∨ (t.generator (t.frame id).owner).isComplete) :
    Settles [] t (t.modifyFrame id f) where
  size := rfl
  frames := t.size_frames_modifyFrame id f
  cache := rfl
  goal _ := rfl
  results _ := rfl
  consuming _ := rfl
  isComplete _ := by simp
  stack _ _ := rfl
  known _ _ := rfl
  generating _ := .inl rfl
  ready _ _ h := .inl h
  target := t.modifyFrame_keeps _ id htarget
  owner := t.modifyFrame_keeps _ id howner
  continuation := t.modifyFrame_keeps _ id hcontinuation
  nextResult := t.modifyFrame_keeps _ id hnext
  finished x hx := by
    rw [t.frame_modifyFrame] at hx
    split at hx
    · rename_i h
      rw [h.1] at hx ⊢
      exact hfinished hx
    · exact .inl hx

theorem of_eq (hgenerators : t'.generators = t.generators) (hframes : t'.frames = t.frames)
    (hcache : t'.cache = t.cache) : Settles [] t t' := by
  have hg : t'.generator = t.generator := Tables.generator_congr hgenerators
  have hf : t'.frame = t.frame := Tables.frame_congr hframes
  have hrefl := refl t
  exact { size := congrArg Array.size hgenerators
          frames := congrArg Array.size hframes
          cache := hcache
          goal := fun id => by rw [hg]
          results := fun id => by rw [hg]
          consuming := fun id => by rw [hg]
          isComplete := fun id => by rw [hg]; exact hrefl.isComplete id
          stack := fun id _ => by rw [hg]
          known := fun id _ => by rw [hg]
          generating := fun id => by rw [hg]; exact .inl rfl
          ready := fun id f h => by rw [hg] at h; exact .inl h
          target := fun f => by rw [hf]
          owner := fun f => by rw [hf]
          continuation := fun f => by rw [hf]
          nextResult := fun f => by rw [hf]
          finished := fun f h => by rw [hf] at h; exact .inl h }

end Settles

theorem Linked.settles {S : List GeneratorId} {t t' : Tables} (h : Linked t)
    (hs : Settles S t t') : Linked t' where
  cache key id := by rw [hs.cache, hs.size, hs.goal, h.cache]
  target_lt f hf := by
    rw [hs.target, hs.size]
    exact h.target_lt f (hs.frames ▸ hf)
  goal f hf := by
    rw [hs.target, hs.goal, hs.continuation]
    exact h.goal f (hs.frames ▸ hf)
  consuming id f := by rw [hs.consuming, hs.frames, hs.target, h.consuming]
  owner id f hf := by
    rw [hs.frames, hs.owner]
    rcases hs.generating id with hg | ⟨-, hg⟩
    · exact h.owner id f (hg ▸ hf)
    · rw [hg] at hf
      exact absurd hf List.not_mem_nil
  generating f hf hc := by
    rw [hs.owner] at hc ⊢
    rcases hs.generating (t.frame f).owner with hg | ⟨hg, -⟩
    · rw [hg]
      exact h.generating f (hs.frames ▸ hf) (hs.isComplete_eq_false hc)
    · rw [hg] at hc
      cases hc
  nodup id := by
    rcases hs.generating id with hg | ⟨-, hg⟩
    · exact hg ▸ h.nodup id
    · exact hg ▸ List.nodup_nil
  owner_lt f hf := by
    rw [hs.owner, hs.size]
    exact h.owner_lt f (hs.frames ▸ hf)
  ready id f hf := by
    rw [hs.frames, hs.owner]
    rcases hs.ready id f hf with hf | hf
    · exact h.ready id f hf
    · exact hf
  stack id f hf := by
    rw [hs.frames, hs.owner]
    exact h.stack id f (hs.mem_stack hf)

/-! ## Giving turns -/

namespace Tables

theorem settles_count (t : Tables) (f : Stats → Stats) : Settles [] t (t.count f) :=
  .of_eq rfl rfl rfl

theorem settles_enqueue (t : Tables) (id : GeneratorId) : Settles [] t (t.enqueue id) := by
  rcases t.enqueue_cases id with ⟨-, heq⟩ | ⟨-, heq⟩ <;> rw [heq]
  · exact .refl t
  · have hmark : Settles [] t (t.modifyGenerator id Generator.marked) := by
      apply Settles.modifyGenerator t id
      case hgoal | hresults | hconsuming | hgenerating => exact fun _ => rfl
      case hcomplete => exact Generator.isComplete_marked
      case hstack => exact Generator.stack_marked
      case hknown => exact Generator.known_marked
      case hready =>
        intro g x hx
        rw [g.ready_marked] at hx
        exact .inl hx
    exact hmark.trans (.of_eq rfl rfl rfl)

theorem settles_generatorFor (t : Tables) (ctx : Context) (goal : Triple) :
    Settles [] t (t.generatorFor ctx goal).2 ∨
      t.cache.lookup goal.normalize = none ∧
        Settles [] (t.addGenerator ctx goal.normalize) (t.generatorFor ctx goal).2 := by
  rcases t.generatorFor_cases ctx goal with ⟨id, f, -, heq⟩ | ⟨f, hnew, heq⟩
  · rw [heq]
    exact .inl (t.settles_count f)
  · rw [heq]
    exact .inr ⟨hnew, (settles_count _ f).trans (settles_enqueue _ _)⟩

theorem settles_wake (t : Tables) {f : FrameId} (hf : f < t.frames.size) :
    Settles [] t (t.wake f) := by
  unfold wake
  dsimp only
  split
  · exact .refl t
  · split
    · rename_i hc
      exact .modifyFrame t f (fun _ => rfl) (fun _ => rfl) (fun _ => rfl) (fun _ => rfl)
        fun _ => .inr hc
    · have hpending : Settles [] t (t.modifyFrame f fun f => { f with pending := true }) :=
        .modifyFrame t f (fun _ => rfl) (fun _ => rfl) (fun _ => rfl) (fun _ => rfl) .inl
      have hready := Settles.modifySearch (t.modifyFrame f fun f => { f with pending := true })
        (t.frame f).owner (f := fun s => { s with ready := s.ready ++ [f] }) (fun _ => rfl)
        (fun _ => rfl) (by
          intro s x hx
          rcases List.mem_append.mp hx with hx | hx
          · exact .inl hx
          · rw [List.mem_singleton] at hx
            subst hx
            exact .inr ⟨by simpa using hf, hpending.owner x⟩)
      exact (hpending.trans hready).trans (settles_enqueue _ _)

theorem settles_wakeAll (t : Tables) (fs : List FrameId) (hfs : ∀ f ∈ fs, f < t.frames.size) :
    Settles [] t (fs.foldl wake t) := by
  induction fs generalizing t with
  | nil => exact .refl t
  | cons f fs ih =>
      rw [List.foldl_cons]
      have hwake := t.settles_wake (hfs f (by simp))
      refine hwake.trans (ih _ fun x hx => ?_)
      rw [hwake.frames]
      exact hfs x (by simp [hx])

theorem settles_notifyReaders {t : Tables} (h : Linked t) (id : GeneratorId) (before : Nat) :
    Settles [] t (t.notifyReaders id before) := by
  unfold notifyReaders
  dsimp only
  split
  · exact .refl t
  · exact t.settles_wakeAll _ fun f hf => ((h.consuming id f).mp hf).1

theorem settles_yieldTurn {t : Tables} (h : Linked t) (turn : Turn) :
    Settles [] t (t.yieldTurn turn) :=
  have henqueue := t.settles_enqueue turn.id
  henqueue.trans (settles_notifyReaders (h.settles henqueue) turn.id turn.before)

theorem settles_blockTurn {t : Tables} (h : Linked t) (turn : Turn) :
    Settles [] t (t.blockTurn turn) :=
  have hblock : Settles [] t (t.modifySearch turn.id ({ · with blocked := true })) :=
    .modifySearch t turn.id (fun _ => rfl) (fun _ => rfl) fun _ _ => .inl
  hblock.trans (settles_notifyReaders (h.settles hblock) turn.id turn.before)

def beginTurn (t : Tables) (id : GeneratorId) (agenda : List GeneratorId) : Tables :=
  { t with agenda := agenda }.modifyGenerator id ({ · with queued := false })

theorem settles_beginTurn (t : Tables) (id : GeneratorId) (agenda : List GeneratorId) :
    Settles [] t (t.beginTurn id agenda) := by
  have hagenda : Settles [] t { t with agenda := agenda } := .of_eq rfl rfl rfl
  refine hagenda.trans (.modifyGenerator _ id ?_ ?_ ?_ ?_ ?_ ?_ ?_ ?_)
  all_goals first | exact fun _ => rfl | exact fun _ _ => .inl

/-! ## Ending searches -/

theorem settles_finishFrames (t : Tables) (fs : List FrameId)
    (hfs : ∀ f ∈ fs, (t.generator (t.frame f).owner).isComplete) :
    Settles [] t
      (fs.foldl (fun t f => t.modifyFrame f fun f => { f with finished := true }) t) := by
  induction fs generalizing t with
  | nil => exact .refl t
  | cons f fs ih =>
      rw [List.foldl_cons]
      have hfinish : Settles [] t (t.modifyFrame f fun f => { f with finished := true }) :=
        .modifyFrame t f (fun _ => rfl) (fun _ => rfl) (fun _ => rfl) (fun _ => rfl)
          fun _ => .inr (hfs f (by simp))
      refine hfinish.trans (ih _ fun x hx => ?_)
      rw [hfinish.owner]
      exact hfs x (by simp [hx])

def close (t : Tables) (id : GeneratorId) : Tables :=
  t.modifyGenerator id fun g => { g with search := none, generating := [] }

theorem settles_close (t : Tables) (id : GeneratorId) : Settles [id] t (t.close id) where
  size := t.size_modifyGenerator id _
  frames := rfl
  cache := rfl
  goal := t.modifyGenerator_keeps (·.goal) id fun _ => rfl
  results := t.modifyGenerator_keeps (·.results) id fun _ => rfl
  consuming := t.modifyGenerator_keeps (·.consuming) id fun _ => rfl
  isComplete j := by
    unfold close
    rw [t.generator_modifyGenerator, List.mem_singleton]
    split
    · rename_i h
      simp [h.1, Generator.isComplete]
    · rename_i h
      constructor
      · exact .inl
      · rintro (hc | rfl)
        · exact hc
        · rw [generator_of_size_le (by simpa using h)]
          rfl
  stack j hc := by
    unfold close at hc ⊢
    rw [t.generator_modifyGenerator] at hc ⊢
    split
    · rename_i h
      rw [if_pos h] at hc
      cases hc
    · rfl
  known j hc := by
    unfold close at hc ⊢
    rw [t.generator_modifyGenerator] at hc ⊢
    split
    · rename_i h
      rw [if_pos h] at hc
      cases hc
    · rfl
  generating j := by
    unfold close
    rw [t.generator_modifyGenerator]
    split
    · exact .inr ⟨rfl, rfl⟩
    · exact .inl rfl
  ready j f hf := by
    unfold close at hf
    rw [t.generator_modifyGenerator] at hf
    split at hf
    · exact absurd hf List.not_mem_nil
    · exact .inl hf
  target _ := rfl
  owner _ := rfl
  continuation _ := rfl
  nextResult _ := rfl
  finished _ h := .inl h

theorem settles_complete {t : Tables} (h : Linked t) (id : GeneratorId) :
    Settles [id] t (t.complete id) := by
  unfold complete
  dsimp only
  split
  · rename_i hc
    exact (Settles.refl t).of_subset (by simp) (by simpa using hc)
  · have hclose := (t.settles_close id).trans (settles_count _ fun s =>
      { s with generatorsCompleted := s.generatorsCompleted + 1 })
    have hframes := settles_finishFrames _ (t.generator id).generating (by
      intro f hf
      rw [hclose.owner, (h.owner id f hf).2]
      exact (hclose.isComplete id).mpr (.inr (by simp)))
    have hall := hclose.trans hframes
    have hwakes := hall.trans (settles_wakeAll _ (t.generator id).consuming fun f hf =>
      hall.frames ▸ ((h.consuming id f).mp hf).1)
    exact hwakes

theorem settles_completeAll {t : Tables} (h : Linked t) (ids : List GeneratorId) :
    Settles ids t (ids.foldl complete t) := by
  induction ids generalizing t with
  | nil => exact .refl t
  | cons id ids ih =>
      rw [List.foldl_cons]
      have hid := settles_complete h id
      exact hid.trans (ih (h.settles hid))

theorem settles_finishTurn {t : Tables} (h : Linked t) (turn : Turn) :
    Settles [turn.id] t (t.finishTurn turn) :=
  have hnotify := settles_notifyReaders h turn.id turn.before
  hnotify.trans (settles_complete (h.settles hnotify) turn.id)

end Tables

end TripleRules.Tabling
