import TripleRules.Proofs.Tabling.Runs

/-!
# No wake-up is lost

A generator that has something to do is on the agenda or has its turn.  A frame that is marked as
pending lies in the queue or on the stack of its owner.  A frame that is not has read all the
answers there are, and the goal it reads is still open.  In the middle of an operation this may fail
for some generators and frames; `Alert` says for which.
-/

namespace TripleRules.Tabling

def Generator.Holds (g : Generator) (f : FrameId) : Prop := f ∈ g.ready ∨ .consume f ∈ g.stack

theorem Generator.hasWork_of_holds {g : Generator} {f : FrameId} (h : g.Holds f) : g.hasWork := by
  by_contra hwork
  rw [Bool.not_eq_true, hasWork_eq_false_iff] at hwork
  rcases h with h | h
  · rw [hwork.2] at h
    exact List.not_mem_nil h
  · rw [hwork.1] at h
    exact List.not_mem_nil h

theorem Generator.hasWork_congr {g g' : Generator} (hstack : g'.stack = g.stack)
    (hready : g'.ready = g.ready) : g'.hasWork = g.hasWork := by
  rw [Bool.eq_iff_iff, ← not_iff_not, Bool.not_eq_true, Bool.not_eq_true, hasWork_eq_false_iff,
    hasWork_eq_false_iff, hstack, hready]

theorem Generator.hasWork_of_isComplete {g : Generator} (h : g.isComplete) : g.hasWork = false :=
  (hasWork_eq_false_iff g).mpr ⟨stack_of_isComplete h, ready_of_isComplete h⟩

/-- Whoever has something to do gets a turn, but that `busy` generators are not on the agenda,
`late` frames are not woken and `owed` frames are not in a queue. -/
structure Alert (t : Tables) (busy : GeneratorId → Prop) (late owed : FrameId → Prop) : Prop where
  agenda : ∀ id, (t.generator id).queued → id ∈ t.agenda
  turn : ∀ id, (t.generator id).hasWork → (t.generator id).queued ∨ busy id
  pending : ∀ f < t.frames.size, (t.frame f).pending →
    (t.generator (t.frame f).owner).isComplete = false →
      (t.generator (t.frame f).owner).Holds f ∨ owed f
  waiting : ∀ f < t.frames.size, (t.frame f).finished = false → (t.frame f).pending = false →
    late f ∨ (t.generator (t.frame f).target).isComplete = false ∧
      (t.generator (t.frame f).target).results.size ≤ (t.frame f).nextResult

def nobody (_ : Nat) : Prop := False

namespace Alert

variable {t t' : Tables} {busy busy' : GeneratorId → Prop} {late late' owed owed' : FrameId → Prop}

theorem blank (h : t.Blank) : Alert t busy late owed := by
  have hsize : t.size = 0 := by rw [Tables.size, h.generators, Array.size_empty]
  have hg : ∀ id, t.generator id = default := fun id =>
    Tables.generator_of_size_le (by rw [hsize]; exact Nat.zero_le id)
  have hframes : t.frames.size = 0 := by rw [h.frames, Array.size_empty]
  refine ⟨fun id hq => ?_, fun id hwork => ?_, fun f hf => ?_, fun f hf => ?_⟩
  · rw [hg] at hq
    cases hq
  · rw [hg] at hwork
    cases hwork
  · rw [hframes] at hf
    exact absurd hf (Nat.not_lt_zero f)
  · rw [hframes] at hf
    exact absurd hf (Nat.not_lt_zero f)

theorem mono (h : Alert t busy late owed)
    (hbusy : ∀ id, (t.generator id).hasWork → busy id → busy' id)
    (hlate : ∀ f < t.frames.size, late f → late' f) (howed : ∀ f, owed f → owed' f) :
    Alert t busy' late' owed' where
  agenda := h.agenda
  turn id hwork := (h.turn id hwork).imp_right (hbusy id hwork)
  pending f hf hp hc := (h.pending f hf hp hc).imp_right (howed f)
  waiting f hf hfin hp := (h.waiting f hf hfin hp).imp_left (hlate f hf)

theorem of_eq (h : Alert t busy late owed) (hgenerators : t'.generators = t.generators)
    (hframes : t'.frames = t.frames) (hagenda : t'.agenda = t.agenda) :
    Alert t' busy late owed := by
  have hg : t'.generator = t.generator := Tables.generator_congr hgenerators
  have hf : t'.frame = t.frame := Tables.frame_congr hframes
  constructor
  · rw [hg, hagenda]
    exact h.agenda
  · rw [hg]
    exact h.turn
  · rw [hg, hf, hframes]
    exact h.pending
  · rw [hg, hf, hframes]
    exact h.waiting

theorem congr (h : Alert t busy late owed) (hagenda : t'.agenda = t.agenda)
    (hframes : t'.frames = t.frames)
    (hqueued : ∀ id, (t'.generator id).queued = (t.generator id).queued)
    (hcomplete : ∀ id, (t'.generator id).isComplete = (t.generator id).isComplete)
    (hresults : ∀ id, (t'.generator id).results = (t.generator id).results)
    (hwork : ∀ id, (t'.generator id).hasWork → (t.generator id).hasWork ∨ busy id)
    (hholds : ∀ f < t.frames.size, (t.frame f).pending →
      (t.generator (t.frame f).owner).Holds f → (t'.generator (t.frame f).owner).Holds f ∨ owed' f)
    (howed : ∀ f < t.frames.size, owed f →
      (t'.generator (t.frame f).owner).Holds f ∨ owed' f) : Alert t' busy late owed' := by
  have hframe : t'.frame = t.frame := Tables.frame_congr hframes
  constructor
  · intro id hq
    rw [hqueued] at hq
    rw [hagenda]
    exact h.agenda id hq
  · intro id hw
    rw [hqueued]
    rcases hwork id hw with hw | hbusy
    · exact h.turn id hw
    · exact .inr hbusy
  · intro f hf hp hc
    rw [hframes] at hf
    rw [hframe] at hp hc ⊢
    rw [hcomplete] at hc
    rcases h.pending f hf hp hc with hold | hold
    · exact hholds f hf hp hold
    · exact howed f hf hold
  · intro f hf hfin hp
    rw [hframes] at hf
    rw [hframe] at hfin hp ⊢
    rw [hcomplete, hresults]
    exact h.waiting f hf hfin hp

/-! ## Writing a search -/

theorem modifySearch (h : Alert t busy late owed) {id : GeneratorId} (hbusy : busy id)
    {g : Search → Search}
    (hholds : ∀ s, (t.generator id).search = some s → ∀ f < t.frames.size, (t.frame f).pending →
      f ∈ s.ready ∨ .consume f ∈ s.stack → f ∈ (g s).ready ∨ .consume f ∈ (g s).stack) :
    Alert (t.modifySearch id g) busy late owed := by
  have hold : ∀ f < t.frames.size, (t.frame f).pending → ∀ j, (t.generator j).Holds f →
      ((t.modifySearch id g).generator j).Holds f := by
    intro f hf hp j hj
    by_cases hid : j = id
    · subst hid
      obtain ⟨s, hs⟩ := Generator.exists_search (g := t.generator j) (by
        by_contra hc
        have hwork := Generator.hasWork_of_isComplete (by simpa using hc)
        rw [Generator.hasWork_of_holds hj] at hwork
        cases hwork)
      rw [Generator.Holds, Generator.ready_of_some hs, Generator.stack_of_some hs] at hj
      rw [Generator.Holds, Tables.ready_modifySearch_self hs, Tables.stack_modifySearch_self hs]
      exact hholds s hs f hf hp hj
    · rw [Generator.Holds, t.ready_modifySearch_of_ne g hid, t.stack_modifySearch_of_ne g hid]
      exact hj
  apply h.congr
  case hagenda | hframes => rfl
  case hqueued => exact t.queued_modifySearch id g
  case hcomplete => exact t.isComplete_modifySearch id g
  case hresults => exact t.results_modifySearch id g
  case hwork =>
    intro j hw
    by_cases hid : j = id
    · exact .inr (hid ▸ hbusy)
    · left
      rw [Generator.hasWork_congr (t.stack_modifySearch_of_ne g hid)
        (t.ready_modifySearch_of_ne g hid)] at hw
      exact hw
  case hholds => exact fun f hf hp hj => .inl (hold f hf hp _ hj)
  case howed => exact fun f _ howed => .inr howed

theorem pushReady (h : Alert t busy late owed) {f : FrameId} (hbusy : busy (t.frame f).owner)
    (hc : (t.generator (t.frame f).owner).isComplete = false) :
    Alert (t.modifySearch (t.frame f).owner fun s => { s with ready := s.ready ++ [f] }) busy late
      (fun x => owed x ∧ x ≠ f) := by
  obtain ⟨s, hs⟩ := Generator.exists_search hc
  have hpush := h.modifySearch (g := fun s => { s with ready := s.ready ++ [f] }) hbusy (by
    intro s' _ x _ _ hx
    rcases hx with hx | hx
    · exact .inl (List.mem_append_left _ hx)
    · exact .inr hx)
  apply hpush.congr rfl rfl (fun _ => rfl) (fun _ => rfl) (fun _ => rfl) (fun _ => .inl)
  · exact fun x _ _ hx => .inl hx
  · intro x hx howed
    by_cases hxf : x = f
    · subst hxf
      left
      rw [Tables.frame_modifySearch, Generator.Holds, Tables.ready_modifySearch_self hs]
      exact .inl (List.mem_append_right _ (List.mem_singleton_self x))
    · exact .inr ⟨howed, hxf⟩

theorem rest (h : Alert t busy late owed) {id : GeneratorId}
    (hwork : (t.generator id).hasWork = false) : Alert t (fun j => busy j ∧ j ≠ id) late owed := by
  refine h.mono (fun j hj hbusy => ⟨hbusy, ?_⟩) (fun _ _ hl => hl) fun _ ho => ho
  rintro rfl
  rw [hwork] at hj
  cases hj

/-! ## Writing a frame -/

theorem modifyFrame (h : Alert t busy late owed) (f : FrameId) {g : Frame → Frame}
    (htarget : ∀ x, (g x).target = x.target) (howner : ∀ x, (g x).owner = x.owner)
    (hpending : (g (t.frame f)).pending → (t.frame f).pending ∨ owed' f)
    (howed : ∀ x, owed x → owed' x) (hlate : ∀ x, x ≠ f → late x → late' x)
    (hwaiting : f < t.frames.size → (g (t.frame f)).finished = false →
      (g (t.frame f)).pending = false →
        late' f ∨ (t.generator (t.frame f).target).isComplete = false ∧
          (t.generator (t.frame f).target).results.size ≤ (g (t.frame f)).nextResult) :
    Alert (t.modifyFrame f g) busy late' owed' := by
  have ht := t.modifyFrame_keeps (·.target) f htarget
  have ho := t.modifyFrame_keeps (·.owner) f howner
  constructor
  · exact h.agenda
  · exact h.turn
  · intro x hx hp hc
    rw [t.size_frames_modifyFrame] at hx
    rw [ho, t.generator_modifyFrame] at hc ⊢
    by_cases hxf : x = f
    · subst hxf
      rw [t.frame_modifyFrame_self g hx] at hp
      rcases hpending hp with hp | howed'
      · exact (h.pending x hx hp hc).imp_right (howed x)
      · exact .inr howed'
    · rw [t.frame_modifyFrame_of_ne g hxf] at hp
      exact (h.pending x hx hp hc).imp_right (howed x)
  · intro x hx hfin hp
    rw [t.size_frames_modifyFrame] at hx
    rw [ht, t.generator_modifyFrame]
    by_cases hxf : x = f
    · subst hxf
      rw [t.frame_modifyFrame_self g hx] at hfin hp ⊢
      exact hwaiting hx hfin hp
    · rw [t.frame_modifyFrame_of_ne g hxf] at hfin hp ⊢
      exact (h.waiting x hx hfin hp).imp_left (hlate x hxf)

theorem finish (h : Alert t busy late owed) (f : FrameId) :
    Alert (t.modifyFrame f fun f => { f with finished := true }) busy (fun x => late x ∧ x ≠ f)
      owed := by
  apply h.modifyFrame f
  case htarget | howner => exact fun _ => rfl
  case hpending => exact .inl
  case howed => exact fun _ ho => ho
  case hlate => exact fun x hx hl => ⟨hl, hx⟩
  case hwaiting =>
    intro _ hfin
    cases hfin

theorem finishFrames (h : Alert t busy late owed) (fs : List FrameId) :
    Alert (fs.foldl (fun t f => t.modifyFrame f fun f => { f with finished := true }) t) busy late
      owed := by
  induction fs generalizing t with
  | nil => exact h
  | cons f fs ih =>
      rw [List.foldl_cons]
      have hfinish : Alert (t.modifyFrame f fun f => { f with finished := true }) busy late owed :=
        (h.finish f).mono (fun _ _ hb => hb) (fun _ _ hl => hl.1) fun _ ho => ho
      exact ih hfinish

/-! ## Giving turns -/

theorem enqueue (h : Alert t busy late owed) (id : GeneratorId) :
    Alert (t.enqueue id) (fun j => busy j ∧ j ≠ id) late owed := by
  rcases t.enqueue_cases id with ⟨hskip, heq⟩ | ⟨⟨hopen, -⟩, heq⟩ <;> rw [heq]
  · refine ⟨h.agenda, fun j hwork => ?_, h.pending, h.waiting⟩
    by_cases hj : j = id
    · subst hj
      rcases hskip with hc | hq
      · rw [Generator.hasWork_of_isComplete hc] at hwork
        cases hwork
      · exact .inl hq
    · exact (h.turn j hwork).imp_right fun hbusy => ⟨hbusy, hj⟩
  · have hid := Tables.lt_size_of_isComplete_eq_false hopen
    have hcomplete := t.modifyGenerator_keeps (·.isComplete) id Generator.isComplete_marked
    have hresults := t.modifyGenerator_keeps (·.results) id (f := Generator.marked) fun _ => rfl
    have hready := t.modifyGenerator_keeps (·.ready) id Generator.ready_marked
    have hstack := t.modifyGenerator_keeps (·.stack) id Generator.stack_marked
    -- `generator` is blind to the place on the agenda
    constructor
    · intro j hq
      change ((t.modifyGenerator id Generator.marked).generator j).queued at hq
      change j ∈ t.agenda ++ [id]
      by_cases hj : j = id
      · rw [hj]
        exact List.mem_append_right _ (List.mem_singleton_self id)
      · rw [t.generator_modifyGenerator_of_ne _ hj] at hq
        exact List.mem_append_left _ (h.agenda j hq)
    · intro j hwork
      change ((t.modifyGenerator id Generator.marked).generator j).hasWork at hwork
      change ((t.modifyGenerator id Generator.marked).generator j).queued ∨ _
      by_cases hj : j = id
      · left
        rw [hj, t.generator_modifyGenerator_self _ hid, Generator.queued_marked]
      · rw [t.generator_modifyGenerator_of_ne _ hj] at hwork ⊢
        exact (h.turn j hwork).imp_right fun hbusy => ⟨hbusy, hj⟩
    · intro f hf hp hc
      change ((t.modifyGenerator id Generator.marked).generator
        (t.frame f).owner).isComplete = false at hc
      change ((t.modifyGenerator id Generator.marked).generator (t.frame f).owner).Holds f ∨ _
      rw [hcomplete] at hc
      rw [Generator.Holds, hready, hstack]
      exact h.pending f hf hp hc
    · intro f hf hfin hp
      change _ ∨
        ((t.modifyGenerator id Generator.marked).generator
          (t.frame f).target).isComplete = false ∧
        ((t.modifyGenerator id Generator.marked).generator (t.frame f).target).results.size ≤ _
      rw [hcomplete, hresults]
      exact h.waiting f hf hfin hp

theorem wake (h : Alert t busy late owed) {f : FrameId} (howed : ¬ owed f) :
    Alert (t.wake f) busy (fun x => late x ∧ x ≠ f) owed := by
  unfold Tables.wake
  dsimp only
  split
  · rename_i hskip
    rw [Bool.or_eq_true] at hskip
    refine ⟨h.agenda, h.turn, h.pending, fun x hx hfin hp => ?_⟩
    refine (h.waiting x hx hfin hp).imp_left fun hl => ⟨hl, ?_⟩
    rintro rfl
    rw [hfin, hp] at hskip
    simp at hskip
  · split
    · exact h.finish f
    · rename_i hc
      rw [Bool.not_eq_true] at hc
      have hbusy : Alert t (fun j => busy j ∨ j = (t.frame f).owner) late owed :=
        h.mono (fun _ _ => .inl) (fun _ _ hl => hl) fun _ ho => ho
      have hmark : Alert (t.modifyFrame f fun f => { f with pending := true })
          (fun j => busy j ∨ j = (t.frame f).owner) (fun x => late x ∧ x ≠ f)
          (fun x => owed x ∨ x = f) := by
        apply hbusy.modifyFrame f
        case htarget | howner => exact fun _ => rfl
        case hpending => exact fun _ => .inr (.inr rfl)
        case howed => exact fun _ => .inl
        case hlate => exact fun x hx hl => ⟨hl, hx⟩
        case hwaiting =>
          intro _ _ hp
          cases hp
      have howner := t.modifyFrame_keeps (·.owner) f (f := fun f => { f with pending := true })
        (fun _ => rfl) f
      have hpush := hmark.pushReady (f := f) (by rw [howner]; exact .inr rfl)
        (by rw [howner]; exact hc)
      rw [howner] at hpush
      refine (hpush.enqueue (t.frame f).owner).mono ?_ (fun _ _ hl => hl) ?_
      · rintro j - ⟨hj | hj, hne⟩
        · exact hj
        · exact absurd hj hne
      · rintro x ⟨hx | hx, hne⟩
        · exact hx
        · exact absurd hx hne

theorem wakeAll (h : Alert t busy late nobody) (fs : List FrameId) :
    Alert (fs.foldl Tables.wake t) busy (fun x => late x ∧ x ∉ fs) nobody := by
  induction fs generalizing t late with
  | nil => exact h.mono (fun _ _ hb => hb) (fun _ _ hl => ⟨hl, List.not_mem_nil⟩) fun _ ho => ho
  | cons f fs ih =>
      rw [List.foldl_cons]
      refine (ih (h.wake not_false)).mono (fun _ _ hb => hb) ?_ fun _ ho => ho
      rintro x - ⟨⟨hl, hne⟩, hx⟩
      refine ⟨hl, fun hmem => ?_⟩
      rcases List.mem_cons.mp hmem with heq | hmem
      · exact hne heq
      · exact hx hmem

end Alert

end TripleRules.Tabling
