import TripleRules.Proofs.Tabling.Runs

/-!
# Places of frames

As long as a goal is open, a frame of its rules lies once in its queue or on its stack if the frame
is marked as pending, and nowhere if it is not.  No frame has read more answers than there are.
-/

namespace TripleRules.Tabling

def ChoicePoint.frame? : ChoicePoint → Option FrameId
  | .alternatives _ _ | .data _ _ => none
  | .consume f => some f

def Search.held (s : Search) : List FrameId := s.ready ++ s.stack.filterMap ChoicePoint.frame?

namespace Generator

def held (g : Generator) : List FrameId := g.ready ++ g.stack.filterMap ChoicePoint.frame?

theorem held_of_some {g : Generator} {s : Search} (h : g.search = some s) : g.held = s.held := by
  rw [held, ready_of_some h, stack_of_some h, Search.held]

theorem held_congr {g g' : Generator} (hready : g'.ready = g.ready) (hstack : g'.stack = g.stack) :
    g'.held = g.held := by
  rw [held, hready, hstack, held]

end Generator

/-- Pending frames have their places; one may be owed its place. -/
structure Placed (t : Tables) (owed : Option FrameId) : Prop where
  place : ∀ f < t.frames.size, (t.generator (t.frame f).owner).isComplete = false →
    (t.generator (t.frame f).owner).held.count f =
      if (t.frame f).pending ∧ owed ≠ some f then 1 else 0
  read : ∀ f < t.frames.size,
    (t.frame f).nextResult ≤ (t.generator (t.frame f).target).results.size

namespace Placed

variable {t t' : Tables} {owed : Option FrameId}

theorem blank (h : t.Blank) : Placed t none := by
  have hframes : t.frames.size = 0 := by rw [h.frames, Array.size_empty]
  refine ⟨fun f hf => ?_, fun f hf => ?_⟩
  · rw [hframes] at hf
    exact absurd hf (Nat.not_lt_zero f)
  · rw [hframes] at hf
    exact absurd hf (Nat.not_lt_zero f)

theorem congr (h : Placed t owed) (hframes : t'.frames.size = t.frames.size)
    (howner : ∀ f, (t'.frame f).owner = (t.frame f).owner)
    (htarget : ∀ f, (t'.frame f).target = (t.frame f).target)
    (hpending : ∀ f, (t'.frame f).pending = (t.frame f).pending)
    (hnext : ∀ f, (t'.frame f).nextResult = (t.frame f).nextResult)
    (hheld : ∀ id, (t'.generator id).isComplete = false →
      (t.generator id).isComplete = false ∧ (t'.generator id).held.Perm (t.generator id).held)
    (hresults : ∀ id, (t.generator id).results.size ≤ (t'.generator id).results.size) :
    Placed t' owed := by
  refine ⟨fun f hf hc => ?_, fun f hf => ?_⟩
  · rw [howner] at hc ⊢
    obtain ⟨hold, hperm⟩ := hheld _ hc
    rw [hperm.count_eq, hpending]
    exact h.place f (hframes ▸ hf) hold
  · rw [htarget, hnext]
    exact (h.read f (hframes ▸ hf)).trans (hresults _)

theorem of_frames (h : Placed t owed) (hframes : t'.frames = t.frames)
    (hheld : ∀ id, (t'.generator id).isComplete = false →
      (t.generator id).isComplete = false ∧ (t'.generator id).held.Perm (t.generator id).held)
    (hresults : ∀ id, (t.generator id).results.size ≤ (t'.generator id).results.size) :
    Placed t' owed := by
  have hframe : t'.frame = t.frame := Tables.frame_congr hframes
  refine h.congr (congrArg Array.size hframes) ?_ ?_ ?_ ?_ hheld hresults
  all_goals
    intro f
    rw [hframe]

theorem of_eq (h : Placed t owed) (hgenerators : t'.generators = t.generators)
    (hframes : t'.frames = t.frames) : Placed t' owed := by
  have hg : t'.generator = t.generator := Tables.generator_congr hgenerators
  refine h.of_frames hframes (fun id hc => ?_) fun id => by rw [hg]
  rw [hg] at hc ⊢
  exact ⟨hc, .refl _⟩

theorem modifyGenerator (h : Placed t owed) (id : GeneratorId) {f : Generator → Generator}
    (hcomplete : ∀ g, (f g).isComplete = g.isComplete) (hheld : ∀ g, (f g).held = g.held)
    (hresults : ∀ g, g.results.size ≤ (f g).results.size) :
    Placed (t.modifyGenerator id f) owed := by
  refine h.of_frames rfl (fun j hc => ?_) fun j => ?_
  · rw [t.modifyGenerator_keeps (·.isComplete) id hcomplete] at hc
    exact ⟨hc, .of_eq (t.modifyGenerator_keeps (·.held) id hheld j)⟩
  · rw [t.generator_modifyGenerator]
    split
    · exact hresults _
    · exact Nat.le_refl _

theorem modifySearch (h : Placed t owed) (id : GeneratorId) {g : Search → Search}
    (hheld : ∀ s, (t.generator id).search = some s → (g s).held.Perm s.held) :
    Placed (t.modifySearch id g) owed := by
  refine h.of_frames rfl (fun j hc => ?_) fun j => by rw [t.results_modifySearch]
  rw [t.isComplete_modifySearch] at hc
  refine ⟨hc, ?_⟩
  by_cases hj : j = id
  · subst hj
    obtain ⟨s, hs⟩ := Generator.exists_search hc
    rw [Generator.held_of_some hs, Generator.held_of_some (Tables.search_modifySearch_self hs g)]
    exact hheld s hs
  · rw [Generator.held_congr (t.ready_modifySearch_of_ne g hj) (t.stack_modifySearch_of_ne g hj)]

theorem finish (h : Placed t owed) (f : FrameId) :
    Placed (t.modifyFrame f fun f => { f with finished := true }) owed := by
  apply h.congr (t.size_frames_modifyFrame f _)
  case howner => exact t.modifyFrame_keeps (·.owner) f fun _ => rfl
  case htarget => exact t.modifyFrame_keeps (·.target) f fun _ => rfl
  case hpending => exact t.modifyFrame_keeps (·.pending) f fun _ => rfl
  case hnext => exact t.modifyFrame_keeps (·.nextResult) f fun _ => rfl
  case hheld => exact fun id hc => ⟨hc, .refl _⟩
  case hresults => exact fun id => Nat.le_refl _

theorem finishFrames (h : Placed t owed) (fs : List FrameId) :
    Placed (fs.foldl (fun t f => t.modifyFrame f fun f => { f with finished := true }) t) owed := by
  induction fs generalizing t with
  | nil => exact h
  | cons f fs ih => exact ih (h.finish f)

theorem pushReady {f : FrameId} (h : Placed t (some f)) (hf : f < t.frames.size)
    (hp : (t.frame f).pending) :
    Placed (t.modifySearch (t.frame f).owner fun s => { s with ready := s.ready ++ [f] }) none := by
  refine ⟨fun x hx hc => ?_, fun x hx => ?_⟩
  · rw [Tables.frame_modifySearch, t.isComplete_modifySearch] at hc
    have hold := h.place x hx hc
    rw [Tables.frame_modifySearch]
    by_cases ho : (t.frame x).owner = (t.frame f).owner
    · obtain ⟨s, hs⟩ := Generator.exists_search hc
      rw [Generator.held_of_some hs] at hold
      rw [ho] at hs
      rw [ho, Generator.held_of_some (Tables.search_modifySearch_self hs _), Search.held,
        List.append_assoc, List.count_append, List.count_append]
      rw [Search.held, List.count_append] at hold
      dsimp only
      by_cases hxf : x = f
      · subst hxf
        simp only [ne_eq, not_true_eq_false, and_false, if_false] at hold
        rw [if_pos ⟨hp, Option.some_ne_none x |>.symm⟩, List.count_singleton_self]
        omega
      · have hne : (some f : Option FrameId) ≠ some x := fun heq => hxf (Option.some.inj heq).symm
        have hone : [f].count x = 0 := List.count_eq_zero.mpr (by simpa using hxf)
        simp only [ne_eq, hne, not_false_eq_true, and_true] at hold
        simp only [ne_eq, reduceCtorEq, not_false_eq_true, and_true]
        omega
    · have hxf : x ≠ f := fun heq => ho (by rw [heq])
      have hne : (some f : Option FrameId) ≠ some x := fun heq => hxf (Option.some.inj heq).symm
      rw [Generator.held_congr (t.ready_modifySearch_of_ne _ ho) (t.stack_modifySearch_of_ne _ ho),
        hold]
      simp only [ne_eq, hne, not_false_eq_true, and_true, reduceCtorEq]
  · rw [Tables.frame_modifySearch, t.results_modifySearch]
    exact h.read x hx

/-! ## Scheduling -/

theorem enqueue (h : Placed t owed) (id : GeneratorId) : Placed (t.enqueue id) owed := by
  rcases t.enqueue_cases id with ⟨-, heq⟩ | ⟨-, heq⟩ <;> rw [heq]
  · exact h
  · have hmark : Placed (t.modifyGenerator id Generator.marked) owed := by
      apply h.modifyGenerator id
      case hcomplete => exact Generator.isComplete_marked
      case hheld =>
        intro g
        rw [Generator.held, Generator.held, g.ready_marked, g.stack_marked]
      case hresults => exact fun g => Nat.le_refl _
    exact hmark.of_eq rfl rfl

theorem wake (h : Placed t none) {f : FrameId} (hf : f < t.frames.size) :
    Placed (t.wake f) none := by
  unfold Tables.wake
  dsimp only
  split
  · exact h
  · rename_i hskip
    rw [Bool.or_eq_true, not_or, Bool.not_eq_true, Bool.not_eq_true] at hskip
    split
    · exact h.finish f
    · have hself := t.frame_modifyFrame_self (fun f => { f with pending := true }) hf
      have howed : Placed (t.modifyFrame f fun f => { f with pending := true }) (some f) := by
        refine ⟨fun x hx hc => ?_, fun x hx => ?_⟩
        · rw [t.size_frames_modifyFrame] at hx
          by_cases hxf : x = f
          · subst hxf
            rw [hself] at hc ⊢
            have hold := h.place x hx hc
            rw [hskip.2] at hold
            simpa using hold
          · rw [t.frame_modifyFrame_of_ne _ hxf] at hc ⊢
            have hne : (some f : Option FrameId) ≠ some x :=
              fun heq => hxf (Option.some.inj heq).symm
            have hold := h.place x hx hc
            simp only [ne_eq, reduceCtorEq, not_false_eq_true, and_true] at hold
            simp only [ne_eq, hne, not_false_eq_true, and_true]
            exact hold
        · rw [t.size_frames_modifyFrame] at hx
          have htarget := t.modifyFrame_keeps (·.target) f
            (f := fun f => { f with pending := true }) (fun _ => rfl) x
          have hnext := t.modifyFrame_keeps (·.nextResult) f
            (f := fun f => { f with pending := true }) (fun _ => rfl) x
          rw [htarget, hnext]
          exact h.read x hx
      have hpush := howed.pushReady (by rw [t.size_frames_modifyFrame]; exact hf)
        (by rw [hself])
      rw [hself] at hpush
      exact hpush.enqueue _

theorem wakeAll (h : Placed t none) (fs : List FrameId) (hfs : ∀ f ∈ fs, f < t.frames.size) :
    Placed (fs.foldl Tables.wake t) none := by
  induction fs generalizing t with
  | nil => exact h
  | cons f fs ih =>
      have hf := hfs f List.mem_cons_self
      refine ih (h.wake hf) fun x hx => ?_
      rw [(t.settles_wake hf).frames]
      exact hfs x (List.mem_cons_of_mem _ hx)

theorem notifyReaders (hlinked : Linked t) (h : Placed t none) (id : GeneratorId) (before : Nat) :
    Placed (t.notifyReaders id before) none := by
  unfold Tables.notifyReaders
  dsimp only
  split
  · exact h
  · exact h.wakeAll _ fun f hf => ((hlinked.consuming id f).mp hf).1

theorem complete (hlinked : Linked t) (h : Placed t none) (id : GeneratorId) :
    Placed (t.complete id) none := by
  have hs := Tables.settles_complete hlinked id
  unfold Tables.complete at hs ⊢
  dsimp only at hs ⊢
  split
  · exact h
  · rename_i hc
    have hclose : Placed (t.close id) none := by
      refine h.of_frames rfl (fun j hj => ?_) fun j => ?_
      · by_cases hid : j = id
        · have hclosed := ((t.settles_close id).isComplete j).mpr
            (.inr (List.mem_singleton.mpr hid))
          rw [hclosed] at hj
          cases hj
        · have hsame : (t.close id).generator j = t.generator j :=
            t.generator_modifyGenerator_of_ne _ hid
          rw [hsame] at hj ⊢
          exact ⟨hj, .refl _⟩
      · rw [(t.settles_close id).results]
    have hcount : Placed ((t.close id).count fun s =>
        { s with generatorsCompleted := s.generatorsCompleted + 1 }) none := hclose.of_eq rfl rfl
    refine (hcount.finishFrames _).wakeAll _ fun f hf => ?_
    rw [size_frames_finish]
    exact ((hlinked.consuming id f).mp hf).1
where
  size_frames_finish {t : Tables} {fs : List FrameId} :
      (fs.foldl (fun t f => t.modifyFrame f fun f => { f with finished := true }) t).frames.size =
        t.frames.size := by
    induction fs generalizing t with
    | nil => rfl
    | cons f fs ih => exact ih.trans (t.size_frames_modifyFrame f _)

theorem completeAll (hlinked : Linked t) (h : Placed t none) (ids : List GeneratorId) :
    Placed (ids.foldl Tables.complete t) none := by
  induction ids generalizing t with
  | nil => exact h
  | cons id ids ih =>
      exact ih (hlinked.settles (Tables.settles_complete hlinked id)) (h.complete hlinked id)

theorem checkCompletion (hlinked : Linked t) (h : Placed t none) (target : GeneratorId) :
    Placed (t.checkCompletion target) none := by
  unfold Tables.checkCompletion
  split
  · exact h.enqueue _
  · rename_i f hsurvey
    exact h.wake (Tables.survey_wake hlinked hsurvey)
  · have hcount : Placed (t.count fun s =>
        { s with completionCascades := s.completionCascades + 1 }) none := h.of_eq rfl rfl
    exact hcount.completeAll (hlinked.settles (t.settles_count _)) _

theorem beginTurn (h : Placed t owed) (id : GeneratorId) (agenda : List GeneratorId) :
    Placed (t.beginTurn id agenda) owed := by
  have hagenda : Placed { t with agenda := agenda } owed := h.of_eq rfl rfl
  apply hagenda.modifyGenerator id
  case hcomplete | hheld => exact fun _ => rfl
  case hresults => exact fun _ => Nat.le_refl _

/-! ## New goals, frames and answers -/

theorem generatorFor (hlinked : Linked t) (h : Placed t none) (ctx : Context) (goal : Triple) :
    Placed (t.generatorFor ctx goal).2 none := by
  rcases t.generatorFor_cases ctx goal with ⟨id, f, -, heq⟩ | ⟨f, -, heq⟩
  · rw [heq]
    exact h.of_eq rfl rfl
  · rw [heq]
    have hadd : Placed (t.addGenerator ctx goal.normalize) none := by
      refine ⟨fun x hx hc => ?_, fun x hx => ?_⟩
      · rw [t.frame_addGenerator, t.generator_addGenerator_of_lt ctx _ (hlinked.owner_lt x hx)]
          at hc ⊢
        exact h.place x hx hc
      · rw [t.frame_addGenerator, t.generator_addGenerator_of_lt ctx _ (hlinked.target_lt x hx)]
        exact h.read x hx
    have hcount : Placed ((t.addGenerator ctx goal.normalize).count f) none := hadd.of_eq rfl rfl
    exact hcount.enqueue _

theorem count_held_new (hlinked : Linked t) (id : GeneratorId) :
    (t.generator id).held.count t.frames.size = 0 := by
  rw [List.count_eq_zero, Generator.held, List.mem_append, List.mem_filterMap]
  rintro (hmem | ⟨c, hc, hf⟩)
  · exact absurd (hlinked.ready id _ hmem).1 (Nat.lt_irrefl _)
  · cases c with
    | alternatives | data => cases hf
    | consume f =>
        cases hf
        exact absurd (hlinked.stack id _ hc).1 (Nat.lt_irrefl _)

theorem link (hlinked : Linked t) (h : Placed t none) (target owner : GeneratorId)
    (s : Suspension) :
    Placed (t.link target owner s) (if t.readable target then some t.frames.size else none) := by
  have hheld := t.link_keeps target owner s (·.held) (fun _ _ => rfl) fun _ _ => rfl
  refine ⟨fun x hx hc => ?_, fun x hx => ?_⟩
  · rw [t.isComplete_link] at hc
    rw [hheld]
    rcases (t.lt_frames_link_iff target owner s).mp hx with hlt | rfl
    · rw [t.frame_link_of_lt target owner s hlt] at hc ⊢
      have hne : (if t.readable target then some t.frames.size else none) ≠ some x := by
        split
        · exact fun heq => Nat.ne_of_lt hlt (Option.some.inj heq).symm
        · exact Option.some_ne_none x |>.symm
      have hold := h.place x hlt hc
      simp only [ne_eq, reduceCtorEq, not_false_eq_true, and_true] at hold
      simp only [ne_eq, hne, not_false_eq_true, and_true]
      exact hold
    · rw [t.frame_link_new, count_held_new hlinked]
      by_cases hready : t.readable target <;> simp [hready]
  · rw [t.results_link]
    rcases (t.lt_frames_link_iff target owner s).mp hx with hlt | rfl
    · rw [t.frame_link_of_lt target owner s hlt]
      exact h.read x hlt
    · rw [t.frame_link_new]
      exact Nat.zero_le _

theorem suspend (hlinked : Linked t) (h : Placed t none) (target owner : GeneratorId)
    (s : Suspension) : Placed (t.suspend target owner s) none := by
  obtain ⟨f, heq⟩ := t.suspend_eq target owner s
  have hlink := h.link hlinked target owner s
  have hcount : Placed ((t.link target owner s).count f)
      (if t.readable target then some t.frames.size else none) := hlink.of_eq rfl rfl
  rw [heq]
  split
  · rename_i hready
    rw [if_pos hready] at hcount
    have hframe : ((t.link target owner s).count f).frame t.frames.size =
        ⟨target, owner, s, 0, t.readable target, false⟩ :=
      t.frame_link_new target owner s
    have hpush := hcount.pushReady
      (Nat.lt_of_lt_of_eq (Nat.lt_succ_self _) (t.frames_link target owner s).symm)
      (by rw [hframe]; exact hready)
    rw [hframe] at hpush
    exact hpush
  · rename_i hready
    rw [if_neg hready] at hcount
    exact hcount

theorem addResult (h : Placed t owed) (id : GeneratorId) (x : Triple) (d : Option Derivation) :
    Placed (t.addResult id x d).2 owed := by
  unfold Tables.addResult
  split
  · exact h
  · have hpush : Placed (t.pushAnswer id x) owed := by
      apply h.modifyGenerator id
      case hcomplete => exact fun g => by simp [Generator.isComplete]
      case hheld =>
        intro g
        cases hs : g.search <;> simp [Generator.held, Generator.ready, Generator.stack, hs]
      case hresults => exact fun g => by simp
    cases d with
    | none => exact hpush.of_eq rfl rfl
    | some d => exact hpush.of_eq rfl rfl

/-! ## Moves -/

theorem takes (h : Placed t owed) {id : GeneratorId} {w : Option Way} (ht : Takes t id w t') :
    Placed t' owed := by
  have htop : ∀ c c' below, (t.generator id).stack = c :: below → c.frame? = none →
      c'.frame? = none → Placed (t.replaceTop id c') owed := by
    intro c c' below hstack hc hc'
    refine h.modifySearch id fun s hs => ?_
    rw [Generator.stack_of_some hs] at hstack
    rw [Search.held, Search.held, hstack, List.tail_cons, List.filterMap_cons_none hc,
      List.filterMap_cons_none hc']
  cases ht with
  | fact hstack | start hstack | data hstack => exact htop _ _ _ hstack rfl rfl
  | @read f x below hstack hx =>
      obtain ⟨hlt, -⟩ := Array.getElem?_eq_some_iff.mp hx
      have hkeeps : ∀ {β : Type} (part : Frame → β),
          (∀ x : Frame, part { x with nextResult := x.nextResult + 1 } = part x) → ∀ j,
            part ((t.modifyFrame f fun f => { f with nextResult := f.nextResult + 1 }).frame j) =
              part (t.frame j) := fun part hpart => t.modifyFrame_keeps part f hpart
      refine ⟨fun j hj hc => ?_, fun j hj => ?_⟩
      · rw [t.size_frames_modifyFrame] at hj
        rw [hkeeps (·.owner) fun _ => rfl] at hc ⊢
        rw [hkeeps (·.pending) fun _ => rfl]
        exact h.place j hj hc
      · rw [t.size_frames_modifyFrame] at hj
        rw [hkeeps (·.target) fun _ => rfl, t.frame_modifyFrame]
        split
        · rename_i hjf
          rw [hjf.1]
          exact hlt
        · exact h.read j hj

theorem lands (hlinked : Linked t) (h : Placed t none) {ctx : Context} {id : GeneratorId} {w : Way}
    (hl : Lands ctx id w t t') : Placed t' none := by
  induction hl with
  | known | barren => exact h
  | new => exact h.addResult id _ _
  | answer _ _ _ _ ih | holds _ _ ih => exact ih hlinked h
  | refused => exact h.of_eq rfl rfl
  | suspended =>
      exact (h.generatorFor hlinked ctx _).suspend (hlinked.generatorFor ctx _) _ _ _
  | opened =>
      refine h.modifySearch id fun s _ => ?_
      rw [Search.held, Search.held, List.filterMap_cons_none rfl]

theorem takeReady (h : Placed t owed) {id : GeneratorId} {f : FrameId} {ready : List FrameId}
    (hstack : (t.generator id).stack = []) (hready : (t.generator id).ready = f :: ready) :
    Placed (t.takeReady id) owed := by
  refine h.modifySearch id fun s hs => ?_
  rw [Generator.stack_of_some hs] at hstack
  rw [Generator.ready_of_some hs] at hready
  rw [Search.held, Search.held, hstack, hready]
  change (ready ++ [f]).Perm (f :: ready ++ [])
  rw [List.append_nil]
  exact List.perm_append_singleton f ready

theorem popChoice (h : Placed t owed) {id : GeneratorId} {c : ChoicePoint}
    {below : List ChoicePoint} (hstack : (t.generator id).stack = c :: below)
    (hc : c.frame? = none) : Placed (t.popChoice id) owed := by
  refine h.modifySearch id fun s hs => ?_
  rw [Generator.stack_of_some hs] at hstack
  rw [Search.held, Search.held, hstack, List.tail_cons, List.filterMap_cons_none hc]

theorem retire (hlinked : Linked t) (h : Placed t none) {id : GeneratorId} {f : FrameId}
    {below : List ChoicePoint} (hstack : (t.generator id).stack = .consume f :: below) :
    Placed ((t.retire f).popChoice id) none := by
  obtain ⟨hf, howner⟩ := hlinked.stack id f (by rw [hstack]; exact List.mem_cons_self)
  obtain ⟨s, hs, hstack⟩ := Generator.exists_search_of_stack_eq_cons hstack
  have hs' : ((t.retire f).generator id).search = some s := hs
  have hbefore : (t.generator id).held = s.ready ++ f :: below.filterMap ChoicePoint.frame? := by
    rw [Generator.held_of_some hs, Search.held, hstack]
    rfl
  have hafter : (((t.retire f).popChoice id).generator id).held =
      s.ready ++ below.filterMap ChoicePoint.frame? := by
    unfold Tables.popChoice
    rw [Generator.held_of_some (Tables.search_modifySearch_self hs' _), Search.held, hstack,
      List.tail_cons]
  have hkeeps : ∀ x, (((t.retire f).popChoice id).frame x).owner = (t.frame x).owner := by
    apply t.modifyFrame_keeps (·.owner) f
    exact fun _ => rfl
  refine ⟨fun x hx hc => ?_, fun x hx => ?_⟩
  · replace hx : x < t.frames.size := Nat.lt_of_lt_of_eq hx (t.size_frames_modifyFrame f _)
    rw [hkeeps] at hc ⊢
    have hcomplete : (t.generator (t.frame x).owner).isComplete = false := by
      unfold Tables.popChoice at hc
      rw [Tables.isComplete_modifySearch] at hc
      exact hc
    have hold := h.place x hx hcomplete
    simp only [ne_eq, reduceCtorEq, not_false_eq_true, and_true] at hold ⊢
    by_cases hxf : x = f
    · subst hxf
      have hpending : (((t.retire x).popChoice id).frame x).pending = false :=
        congrArg Frame.pending (t.frame_modifyFrame_self _ hx)
      rw [howner, hbefore, List.count_append, List.count_cons_self] at hold
      rw [howner, hafter, hpending, List.count_append]
      split at hold
      · simp only [Bool.false_eq_true, if_false]
        omega
      · omega
    · have hpending : (((t.retire f).popChoice id).frame x).pending = (t.frame x).pending :=
        congrArg Frame.pending (t.frame_modifyFrame_of_ne _ hxf)
      rw [hpending, ← hold]
      by_cases ho : (t.frame x).owner = id
      · rw [ho, hbefore, hafter, List.count_append, List.count_append,
          List.count_cons_of_ne (Ne.symm hxf)]
      · unfold Tables.popChoice
        rw [Generator.held_congr ((t.retire f).ready_modifySearch_of_ne _ ho)
          ((t.retire f).stack_modifySearch_of_ne _ ho)]
        rfl
  · replace hx : x < t.frames.size := Nat.lt_of_lt_of_eq hx (t.size_frames_modifyFrame f _)
    have htarget : (((t.retire f).popChoice id).frame x).target = (t.frame x).target := by
      apply t.modifyFrame_keeps (·.target) f
      exact fun _ => rfl
    have hnext : (((t.retire f).popChoice id).frame x).nextResult = (t.frame x).nextResult := by
      apply t.modifyFrame_keeps (·.nextResult) f
      exact fun _ => rfl
    rw [htarget, hnext]
    unfold Tables.popChoice
    rw [Tables.results_modifySearch]
    exact h.read x hx

theorem move (hlinked : Linked t) (h : Placed t none) {ctx : Context} {turn turn' : Option Turn}
    (hm : Move ctx t turn t' turn') : Placed t' none := by
  cases hm with
  | start => exact h.beginTurn _ _
  | idle => exact h
  | yield =>
      exact (h.enqueue _).notifyReaders (hlinked.settles (t.settles_enqueue _)) _ _
  | @block turn =>
      have hs : Settles [] t (t.modifySearch turn.id ({ · with blocked := true })) :=
        .modifySearch t turn.id (fun _ => rfl) (fun _ => rfl) fun _ _ => .inl
      have hblock : Placed (t.modifySearch turn.id ({ · with blocked := true })) none := by
        apply h.modifySearch turn.id
        exact fun _ _ => .refl _
      exact hblock.notifyReaders (hlinked.settles hs) _ _
  | @finish turn =>
      have hs := Tables.settles_notifyReaders hlinked turn.id turn.before
      exact (h.notifyReaders hlinked _ _).complete (hlinked.settles hs) _
  | take hstack hready => exact h.takeReady hstack hready
  | drop hstack hc =>
      refine h.popChoice hstack ?_
      rcases hc with rfl | ⟨s, rfl⟩
      · rfl
      · rfl
  | retire hstack => exact h.retire hlinked hstack
  | pass ht => exact h.takes ht
  | land ht hl => exact (h.takes ht).lands (hlinked.takes ht) hl
  | check => exact h.checkCompletion hlinked _

end Placed

end TripleRules.Tabling
