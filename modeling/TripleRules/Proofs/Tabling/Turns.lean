import TripleRules.Proofs.Tabling.Wakeups

/-!
# Turns

Every move leaves the engine alert.  While a generator has its turn it need not be on the agenda,
and the readers of its new answers are woken when the turn ends.
-/

namespace TripleRules.Tabling

def Overdue (t : Tables) (id : GeneratorId) (before : Nat) (f : FrameId) : Prop :=
  (t.frame f).target = id ∧ before < (t.generator id).results.size

theorem Settles.overdue {S : List GeneratorId} {t t' : Tables} (h : Settles S t t')
    {id : GeneratorId} {before : Nat} {f : FrameId} :
    Overdue t' id before f ↔ Overdue t id before f := by
  rw [Overdue, Overdue, h.target, h.results]

namespace Alert

variable {t t' : Tables} {busy : GeneratorId → Prop} {late owed : FrameId → Prop}

/-! ## Ending turns and searches -/

theorem notifyReaders (hlinked : Linked t) {id : GeneratorId} {before : Nat}
    (h : Alert t busy (Overdue t id before) nobody) :
    Alert (t.notifyReaders id before) busy nobody nobody := by
  unfold Tables.notifyReaders
  dsimp only
  split
  · rename_i hle
    refine h.mono (fun _ _ hb => hb) ?_ fun _ ho => ho
    rintro f - ⟨-, hlt⟩
    exact absurd hle (Nat.not_le_of_lt hlt)
  · have hsettles := t.settles_wakeAll (t.generator id).consuming
      fun f hf => ((hlinked.consuming id f).mp hf).1
    refine (h.wakeAll _).mono (fun _ _ hb => hb) ?_ fun _ ho => ho
    rintro f hf ⟨⟨htarget, -⟩, hnot⟩
    rw [hsettles.frames] at hf
    exact hnot ((hlinked.consuming id f).mpr ⟨hf, htarget⟩)

theorem close (h : Alert t busy late nobody) (id : GeneratorId) :
    Alert (t.close id) busy (fun f => late f ∨ (t.frame f).target = id) nobody := by
  unfold Tables.close
  constructor
  · intro j hq
    have hqueued := t.modifyGenerator_keeps (·.queued) id
      (f := fun g => { g with search := none, generating := [] }) (fun _ => rfl) j
    rw [hqueued] at hq
    exact h.agenda j hq
  · intro j hwork
    rw [t.generator_modifyGenerator] at hwork ⊢
    split at hwork
    · cases hwork
    · rename_i hne
      rw [if_neg hne]
      exact h.turn j hwork
  · intro f hf hp hc
    rw [t.frame_modifyGenerator, t.generator_modifyGenerator] at hc ⊢
    split at hc
    · cases hc
    · rename_i hne
      rw [if_neg hne]
      exact h.pending f hf hp hc
  · intro f hf hfin hp
    rw [t.frame_modifyGenerator] at hfin hp ⊢
    by_cases htarget : (t.frame f).target = id
    · exact .inl (.inr htarget)
    · rw [t.generator_modifyGenerator_of_ne _ htarget]
      exact (h.waiting f hf hfin hp).imp_left .inl

theorem complete (hlinked : Linked t) (h : Alert t busy late nobody) (id : GeneratorId) :
    Alert (t.complete id) busy late nobody := by
  unfold Tables.complete
  dsimp only
  split
  · exact h
  · have hclose : Alert ((t.close id).count fun s =>
        { s with generatorsCompleted := s.generatorsCompleted + 1 }) busy
        (fun f => late f ∨ (t.frame f).target = id) nobody := (h.close id).of_eq rfl rfl rfl
    have hframes := hclose.finishFrames (t.generator id).generating
    have hsettles := Tables.settles_complete hlinked id
    unfold Tables.complete at hsettles
    dsimp only at hsettles
    rw [if_neg ‹_›] at hsettles
    refine (hframes.wakeAll (t.generator id).consuming).mono (fun _ _ hb => hb) ?_ fun _ ho => ho
    rintro f hf ⟨hl | htarget, hnot⟩
    · exact hl
    · have hlt : f < t.frames.size := hsettles.frames ▸ hf
      exact absurd ((hlinked.consuming id f).mpr ⟨hlt, htarget⟩) hnot

theorem completeAll (hlinked : Linked t) (h : Alert t busy late nobody)
    (ids : List GeneratorId) : Alert (ids.foldl Tables.complete t) busy late nobody := by
  induction ids generalizing t with
  | nil => exact h
  | cons id ids ih =>
      rw [List.foldl_cons]
      exact ih (hlinked.settles (Tables.settles_complete hlinked id)) (h.complete hlinked id)

theorem checkCompletion (hlinked : Linked t) (h : Alert t nobody nobody nobody)
    (target : GeneratorId) : Alert (t.checkCompletion target) nobody nobody nobody := by
  unfold Tables.checkCompletion
  split
  · exact (h.enqueue _).mono (fun _ _ hb => hb.1) (fun _ _ hl => hl) fun _ ho => ho
  · exact (h.wake not_false).mono (fun _ _ hb => hb) (fun _ _ hl => hl.1) fun _ ho => ho
  · rename_i ids _
    have hcount : Alert (t.count fun s =>
        { s with completionCascades := s.completionCascades + 1 }) nobody nobody nobody :=
      h.of_eq rfl rfl rfl
    exact hcount.completeAll (hlinked.settles (t.settles_count _)) ids

theorem beginTurn (h : Alert t nobody late owed) {id : GeneratorId} {agenda : List GeneratorId}
    (hagenda : t.agenda = id :: agenda) : Alert (t.beginTurn id agenda) (· = id) late owed := by
  have hkeeps : ∀ {β : Type} (part : Generator → β),
      (∀ g : Generator, part { g with queued := false } = part g) → ∀ j,
        part ((t.beginTurn id agenda).generator j) = part (t.generator j) := by
    intro β part hpart j
    have hstep := Tables.modifyGenerator_keeps { t with agenda := agenda } part id
      (f := ({ · with queued := false })) hpart j
    exact hstep
  have hcomplete := hkeeps (·.isComplete) fun _ => rfl
  have hresults := hkeeps (·.results) fun _ => rfl
  have hwork := hkeeps (·.hasWork) fun _ => rfl
  have hother : ∀ j, j ≠ id → (t.beginTurn id agenda).generator j = t.generator j :=
    fun j hj => Tables.generator_modifyGenerator_of_ne { t with agenda := agenda } _ hj
  constructor
  · intro j hq
    by_cases hj : j = id
    · subst hj
      by_cases hlt : j < t.size
      · have hself := Tables.generator_modifyGenerator_self { t with agenda := agenda }
          (fun g => { g with queued := false }) hlt
        rw [Tables.beginTurn, hself] at hq
        cases hq
      · have hsize := (t.settles_beginTurn j agenda).size
        rw [Tables.generator_of_size_le (by rw [hsize]; exact Nat.le_of_not_lt hlt)] at hq
        cases hq
    · rw [hother j hj] at hq
      have hmem := h.agenda j hq
      rw [hagenda] at hmem
      exact (List.mem_cons.mp hmem).resolve_left hj
  · intro j hw
    rw [hwork] at hw
    by_cases hj : j = id
    · exact .inr hj
    · rw [hother j hj]
      exact .inl ((h.turn j hw).resolve_right not_false)
  · intro f hf hp hc
    rw [hcomplete] at hc
    rw [hkeeps (·.Holds f) fun _ => rfl]
    exact h.pending f hf hp hc
  · intro f hf hfin hp
    rw [hcomplete, hresults]
    exact h.waiting f hf hfin hp

/-! ## New goals, frames and answers -/

theorem generatorFor (hlinked : Linked t) (h : Alert t busy late nobody) (ctx : Context)
    (goal : Triple) : Alert (t.generatorFor ctx goal).2 busy late nobody := by
  rcases t.generatorFor_cases ctx goal with ⟨id, f, -, heq⟩ | ⟨f, -, heq⟩
  · rw [heq]
    exact h.of_eq rfl rfl rfl
  · rw [heq]
    have hadd : Alert (t.addGenerator ctx goal.normalize) (fun j => busy j ∨ j = t.size) late
        nobody := by
      constructor
      · intro j hq
        rw [t.generator_addGenerator] at hq
        split at hq
        · cases hq
        · exact h.agenda j hq
      · intro j hw
        rw [t.generator_addGenerator] at hw ⊢
        split at hw
        · exact .inr (.inr ‹_›)
        · rename_i hne
          rw [if_neg hne]
          exact (h.turn j hw).imp_right .inl
      · intro x hx hp hc
        rw [t.frame_addGenerator, t.generator_addGenerator_of_lt ctx _ (hlinked.owner_lt x hx)]
          at hc ⊢
        exact h.pending x hx hp hc
      · intro x hx hfin hp
        rw [t.frame_addGenerator] at hfin hp ⊢
        rw [t.generator_addGenerator_of_lt ctx _ (hlinked.target_lt x hx)]
        exact h.waiting x hx hfin hp
    have hcount : Alert ((t.addGenerator ctx goal.normalize).count f)
        (fun j => busy j ∨ j = t.size) late nobody := hadd.of_eq rfl rfl rfl
    refine (hcount.enqueue t.size).mono ?_ (fun _ _ hl => hl) fun _ ho => ho
    rintro j - ⟨hj | hj, hne⟩
    · exact hj
    · exact absurd hj hne

theorem link (h : Alert t busy late nobody) (target owner : GeneratorId) (s : Suspension) :
    Alert (t.link target owner s) busy late
      (fun f => f = t.frames.size ∧ t.readable target = true) := by
  have hkeeps : ∀ {β : Type} (part : Generator → β),
      (∀ (g : Generator) l, part { g with consuming := l } = part g) →
      (∀ (g : Generator) l, part { g with generating := l } = part g) → ∀ j,
        part ((t.link target owner s).generator j) = part (t.generator j) :=
    fun part hconsuming hgenerating => t.link_keeps target owner s part hconsuming hgenerating
  have hcomplete := hkeeps (·.isComplete) (fun _ _ => rfl) (fun _ _ => rfl)
  have hresults := hkeeps (·.results) (fun _ _ => rfl) (fun _ _ => rfl)
  have hqueued := hkeeps (·.queued) (fun _ _ => rfl) (fun _ _ => rfl)
  have hwork := hkeeps (·.hasWork) (fun _ _ => rfl) (fun _ _ => rfl)
  constructor
  · intro j hq
    rw [hqueued] at hq
    exact h.agenda j hq
  · intro j hw
    rw [hwork] at hw
    rw [hqueued]
    exact h.turn j hw
  · intro f hf hp hc
    rcases (t.lt_frames_link_iff target owner s).mp hf with hlt | rfl
    · rw [t.frame_link_of_lt target owner s hlt] at hp hc ⊢
      rw [hcomplete] at hc
      rw [hkeeps (·.Holds f) (fun _ _ => rfl) (fun _ _ => rfl)]
      exact .inl ((h.pending f hlt hp hc).resolve_right not_false)
    · rw [t.frame_link_new] at hp
      exact .inr ⟨rfl, hp⟩
  · intro f hf hfin hp
    rw [hcomplete, hresults]
    rcases (t.lt_frames_link_iff target owner s).mp hf with hlt | rfl
    · rw [t.frame_link_of_lt target owner s hlt] at hfin hp ⊢
      exact h.waiting f hlt hfin hp
    · rw [t.frame_link_new] at hp ⊢
      have hempty : (t.generator target).results.isEmpty = true ∧
          (t.generator target).isComplete = false := by
        rw [Tables.readable, Bool.or_eq_false_iff, Bool.not_eq_false'] at hp
        exact hp
      have hsize : (t.generator target).results.size = 0 := by
        have hnil := Array.isEmpty_iff.mp hempty.1
        rw [hnil, Array.size_empty]
      exact .inr ⟨hempty.2, Nat.le_of_eq hsize⟩

theorem suspend (h : Alert t busy late nobody) (target : GeneratorId) {owner : GeneratorId}
    (s : Suspension) (hbusy : busy owner) (hc : (t.generator owner).isComplete = false) :
    Alert (t.suspend target owner s) busy late nobody := by
  obtain ⟨f, heq⟩ := t.suspend_eq target owner s
  have hcount : Alert ((t.link target owner s).count f) busy late
      (fun x => x = t.frames.size ∧ t.readable target = true) :=
    (h.link target owner s).of_eq rfl rfl rfl
  rw [heq]
  split
  · have howner : (((t.link target owner s).count f).frame t.frames.size).owner = owner := by
      exact congrArg Frame.owner (t.frame_link_new target owner s)
    have hcomplete : (((t.link target owner s).count f).generator owner).isComplete = false :=
      (t.isComplete_link target owner s owner).trans hc
    have hpush := hcount.pushReady (f := t.frames.size) (by rw [howner]; exact hbusy)
      (by rw [howner]; exact hcomplete)
    rw [howner] at hpush
    refine hpush.mono (fun _ _ hb => hb) (fun _ _ hl => hl) ?_
    rintro x ⟨⟨hx, -⟩, hne⟩
    exact hne hx
  · rename_i hready
    refine hcount.mono (fun _ _ hb => hb) (fun _ _ hl => hl) ?_
    rintro x ⟨-, hx⟩
    exact hready hx

theorem pushAnswer (h : Alert t busy late owed) (id : GeneratorId) (x : Triple) :
    Alert (t.pushAnswer id x) busy (fun f => late f ∨ (t.frame f).target = id) owed := by
  have hcomplete := t.isComplete_pushAnswer id x
  have hqueued := t.pushAnswer_keeps (·.queued) (fun _ _ _ _ => rfl) id x
  constructor
  · intro j hq
    rw [hqueued] at hq
    exact h.agenda j hq
  · intro j hw
    rw [Generator.hasWork_congr (t.stack_pushAnswer id x j) (t.ready_pushAnswer id x j)] at hw
    rw [hqueued]
    exact h.turn j hw
  · intro f hf hp hc
    rw [hcomplete] at hc
    rw [Generator.Holds, t.stack_pushAnswer, t.ready_pushAnswer]
    exact h.pending f hf hp hc
  · intro f hf hfin hp
    by_cases htarget : (t.frame f).target = id
    · exact .inl (.inr htarget)
    · have hsame : (t.pushAnswer id x).generator (t.frame f).target =
          t.generator (t.frame f).target := t.generator_modifyGenerator_of_ne _ htarget
      have hwaiting := (h.waiting f hf hfin hp).imp_left
        (.inl : late f → late f ∨ (t.frame f).target = id)
      rw [← hsame] at hwaiting
      exact hwaiting

theorem addResult (h : Alert t busy late owed) {id : GeneratorId} {x : Triple}
    (hnew : x ∉ (t.generator id).known) (d : Option Derivation) :
    Alert (t.addResult id x d).2 busy (fun f => late f ∨ (t.frame f).target = id) owed := by
  unfold Tables.addResult
  rw [if_neg (by rw [search_any_known]; exact hnew)]
  have hpush := h.pushAnswer id x
  cases d with
  | none => exact hpush.of_eq rfl rfl rfl
  | some d => exact hpush.of_eq rfl rfl rfl

/-! ## Working -/

theorem dropChoice (h : Alert t busy late owed) {id : GeneratorId} (hbusy : busy id)
    {c : ChoicePoint} {below : List ChoicePoint} (hstack : (t.generator id).stack = c :: below)
    (hc : ∀ f < t.frames.size, (t.frame f).pending → c ≠ .consume f) {g : Search → Search}
    (hready : ∀ s, (g s).ready = s.ready) (htail : ∀ s, s.stack.tail ⊆ (g s).stack) :
    Alert (t.modifySearch id g) busy late owed := by
  apply h.modifySearch hbusy
  intro s hs f hlt hp hf
  rw [Generator.stack_of_some hs] at hstack
  rcases hf with hf | hf
  · rw [hready]
    exact .inl hf
  · right
    rw [hstack] at hf
    have hbelow : .consume f ∈ below :=
      (List.mem_cons.mp hf).resolve_left fun heq => hc f hlt hp heq.symm
    apply htail
    rw [hstack]
    exact hbelow

theorem takes (h : Alert t busy late owed) {id : GeneratorId} (hbusy : busy id) {w : Option Way}
    (ht : Takes t id w t') : Alert t' busy late owed := by
  have htop : ∀ c c' below, (t.generator id).stack = c :: below → (∀ f, c ≠ .consume f) →
      Alert (t.replaceTop id c') busy late owed := by
    intro c c' below hstack hc
    apply h.dropChoice hbusy hstack (fun f _ _ => hc f)
    · exact fun _ => rfl
    · exact fun s => List.subset_cons_self _ _
  cases ht with
  | fact hstack => exact htop _ _ _ hstack fun _ => by simp
  | start hstack => exact htop _ _ _ hstack fun _ => by simp
  | data hstack => exact htop _ _ _ hstack fun _ => by simp
  | @read f =>
      apply h.modifyFrame f
      case htarget | howner => exact fun _ => rfl
      case hpending => exact .inl
      case howed => exact fun _ ho => ho
      case hlate => exact fun _ _ hl => hl
      case hwaiting =>
        intro hf hfin hp
        exact (h.waiting f hf hfin hp).imp_right fun hw => ⟨hw.1, Nat.le_succ_of_le hw.2⟩

theorem lands {ctx : Context} {id : GeneratorId} {w : Way} {before : Nat}
    (h : Alert t busy (Overdue t id before) nobody) (hbusy : busy id) (hlinked : Linked t)
    (hc : (t.generator id).isComplete = false)
    (hbefore : before ≤ (t.generator id).results.size) (hl : Lands ctx id w t t') :
    Alert t' busy (Overdue t' id before) nobody := by
  induction hl with
  | known | barren => exact h
  | @new x t d hnew =>
      have hid := Tables.lt_size_of_isComplete_eq_false hc
      have hsettles := Tables.settles_addResult hnew d
      refine (h.addResult hnew d).mono (fun _ _ hb => hb) ?_ fun _ ho => ho
      rintro f - hf
      have htarget : (t.frame f).target = id := by
        rcases hf with hf | hf
        · exact hf.1
        · exact hf
      rw [hsettles.overdue]
      refine ⟨htarget, ?_⟩
      rw [t.results_pushAnswer hid, if_pos rfl, Array.size_push]
      exact Nat.lt_succ_of_le hbefore
  | answer _ _ _ _ ih => exact ih h hlinked hc hbefore
  | holds _ _ ih => exact ih h hlinked hc hbefore
  | refused => exact h.of_eq rfl rfl rfl
  | @suspended r p rest env premises t htabled =>
      have hid := Tables.lt_size_of_isComplete_eq_false hc
      have hcomplete := (isComplete_generatorFor t ctx (env.instantiate p) hid).trans hc
      have hlate : ∀ f < t.frames.size, Overdue t id before f →
          Overdue ((t.generatorFor ctx (env.instantiate p)).2.suspend
            (t.generatorFor ctx (env.instantiate p)).1 id
            ⟨r, env, p, rest, premises⟩) id before f := by
        intro f hf hover
        rw [Overdue, frame_suspend, t.frames_generatorFor, if_neg (Nat.ne_of_lt hf),
          t.frame_generatorFor, results_suspend, results_generatorFor t ctx _ hid]
        exact hover
      have hstart := h.mono (fun _ _ hb => hb) hlate fun _ ho => ho
      exact (hstart.generatorFor hlinked ctx (env.instantiate p)).suspend _ _ hbusy hcomplete
  | @opened r p rest env premises t _ =>
      have hopen := h.modifySearch hbusy (g := fun s =>
        { s with
          stack := .data ⟨r, env, p, rest, premises⟩ (ctx.sources.find (env.instantiate p)) ::
            s.stack }) fun s _ f _ _ hf => hf.imp_right fun hf => List.mem_cons_of_mem _ hf
      refine hopen.mono (fun _ _ hb => hb) (fun f _ hover => ?_) fun _ ho => ho
      rw [Overdue, Tables.pushChoice, Tables.results_modifySearch]
      exact hover

theorem takeReady (h : Alert t busy late owed) {id : GeneratorId} (hbusy : busy id)
    {f : FrameId} {ready : List FrameId} (hstack : (t.generator id).stack = [])
    (hready : (t.generator id).ready = f :: ready) : Alert (t.takeReady id) busy late owed := by
  apply h.modifySearch hbusy
  intro s hs x _ _ hx
  rw [Generator.stack_of_some hs] at hstack
  rw [Generator.ready_of_some hs] at hready
  rw [hready] at hx ⊢
  rcases hx with hx | hx
  · rcases List.mem_cons.mp hx with rfl | hx
    · exact .inr (List.mem_singleton_self _)
    · exact .inl hx
  · rw [hstack] at hx
    exact absurd hx List.not_mem_nil

theorem retire (h : Alert t busy late owed) {id : GeneratorId} (hbusy : busy id) {f : FrameId}
    {below : List ChoicePoint} (hstack : (t.generator id).stack = .consume f :: below)
    (hread : (t.generator (t.frame f).target).results.size ≤ (t.frame f).nextResult) :
    Alert ((t.retire f).popChoice id) busy late owed := by
  have hretire : Alert (t.retire f) busy late owed := by
    apply h.modifyFrame f
    case htarget | howner => exact fun _ => rfl
    case hpending => exact fun hp => Bool.noConfusion hp
    case howed => exact fun _ ho => ho
    case hlate => exact fun _ _ hl => hl
    case hwaiting =>
      intro _ hfin _
      exact .inr ⟨(Bool.or_eq_false_iff.mp hfin).2, hread⟩
  apply hretire.dropChoice hbusy hstack
  · intro x hx hp heq
    rw [ChoicePoint.consume.injEq] at heq
    subst heq
    rw [Tables.retire, t.size_frames_modifyFrame] at hx
    rw [Tables.retire, t.frame_modifyFrame_self _ hx] at hp
    cases hp
  · exact fun _ => rfl
  · exact fun s => List.Subset.refl _

end Alert

theorem Takes.overdue {t t' : Tables} {id : GeneratorId} {w : Option Way} (h : Takes t id w t')
    {before : Nat} {f : FrameId} : Overdue t' id before f ↔ Overdue t id before f := by
  have htarget : (t'.frame f).target = (t.frame f).target := by
    cases h with
    | fact | start | data => rfl
    | @read x =>
        apply t.modifyFrame_keeps (·.target) x
        exact fun _ => rfl
  rw [Overdue, Overdue, htarget, h.results]

/-! ## Moves -/

/-- Between two steps everybody is alert, but for the generator that has its turn and the readers of
the answers that it has found in it. -/
structure Attentive (t : Tables) (turn : Option Turn) : Prop where
  alert : Alert t (fun id => ∃ u ∈ turn, u.id = id)
    (fun f => ∃ u ∈ turn, Overdue t u.id u.before f) nobody
  counted : ∀ u ∈ turn, u.before + u.produced = (t.generator u.id).results.size
  idle : ∀ u ∈ turn, (t.generator u.id).isComplete → u.produced = 0

namespace Attentive

variable {t t' : Tables} {u : Turn}

theorem none_iff : Attentive t none ↔ Alert t nobody nobody nobody := by
  have hnobody : ∀ {α : Type} {P : Turn → α → Prop} (a : α),
      (∃ u ∈ (none : Option Turn), P u a) → False := by
    rintro α P a ⟨u, hu, -⟩
    cases hu
  constructor
  · intro h
    exact h.alert.mono (fun id _ hid => hnobody id hid) (fun f _ hf => hnobody f hf) fun _ ho => ho
  · intro h
    refine ⟨h.mono (fun _ _ => False.elim) (fun _ _ => False.elim) fun _ ho => ho, ?_, ?_⟩
    · rintro u ⟨⟩
    · rintro u ⟨⟩

theorem some_iff : Attentive t (some u) ↔ Alert t (· = u.id) (Overdue t u.id u.before) nobody ∧
    u.before + u.produced = (t.generator u.id).results.size ∧
      ((t.generator u.id).isComplete → u.produced = 0) := by
  constructor
  · intro h
    refine ⟨h.alert.mono ?_ ?_ fun _ ho => ho, h.counted u rfl, h.idle u rfl⟩
    · rintro id - ⟨v, ⟨⟩, rfl⟩
      rfl
    · rintro f - ⟨v, ⟨⟩, hover⟩
      exact hover
  · rintro ⟨halert, hcounted, hidle⟩
    refine ⟨halert.mono ?_ ?_ fun _ ho => ho, ?_, ?_⟩
    · rintro id - rfl
      exact ⟨u, rfl, rfl⟩
    · intro f _ hover
      exact ⟨u, rfl, hover⟩
    · rintro v ⟨⟩
      exact hcounted
    · rintro v ⟨⟩
      exact hidle

theorem of_alert (h : Attentive t (some u))
    (halert : Alert t' (· = u.id) (Overdue t u.id u.before) nobody)
    (htarget : ∀ f, (t'.frame f).target = (t.frame f).target)
    (hresults : (t'.generator u.id).results = (t.generator u.id).results)
    (hcomplete : (t'.generator u.id).isComplete = (t.generator u.id).isComplete) :
    Attentive t' (some u) := by
  obtain ⟨-, hcounted, hidle⟩ := some_iff.mp h
  refine some_iff.mpr ⟨halert.mono (fun _ _ hb => hb) ?_ fun _ ho => ho, ?_, ?_⟩
  · intro f _ hover
    rw [Overdue, htarget, hresults]
    exact hover
  · rw [hresults]
    exact hcounted
  · rw [hcomplete]
    exact hidle

theorem start (h : Attentive t none) {id : GeneratorId} {agenda : List GeneratorId}
    (hagenda : t.agenda = id :: agenda) :
    Attentive (t.beginTurn id agenda) (some ⟨id, (t.generator id).results.size, 0⟩) := by
  have hsettles := t.settles_beginTurn id agenda
  have hbegin := (none_iff.mp h).beginTurn hagenda
  refine some_iff.mpr ⟨hbegin.mono (fun _ _ hb => hb) (fun _ _ => False.elim) fun _ ho => ho,
    ?_, ?_⟩
  · exact congrArg Array.size (hsettles.results id).symm
  · exact fun _ => rfl

theorem notify (hlinked : Linked t) (h : Alert t nobody (Overdue t u.id u.before) nobody) :
    Attentive (t.notifyReaders u.id u.before) none :=
  none_iff.mpr (h.notifyReaders hlinked)

theorem leave (h : Attentive t (some u)) (hc : (t.generator u.id).isComplete) :
    Attentive t none := by
  obtain ⟨halert, hcounted, hidle⟩ := some_iff.mp h
  have hproduced := hidle hc
  refine none_iff.mpr (halert.mono ?_ ?_ fun _ ho => ho)
  · rintro id hwork rfl
    rw [Generator.hasWork_of_isComplete hc] at hwork
    cases hwork
  · rintro f - ⟨-, hlt⟩
    omega

theorem yieldTurn (hlinked : Linked t) (h : Attentive t (some u)) :
    Attentive (t.yieldTurn u) none := by
  have hsettles := t.settles_enqueue u.id
  have henqueue : Alert (t.enqueue u.id) nobody (Overdue (t.enqueue u.id) u.id u.before) nobody :=
    ((some_iff.mp h).1.enqueue u.id).mono (fun _ _ hb => hb.2 hb.1)
      (fun _ _ hover => hsettles.overdue.mpr hover) fun _ ho => ho
  exact notify (hlinked.settles hsettles) henqueue

theorem blockTurn (hlinked : Linked t) (h : Attentive t (some u))
    (hwork : (t.generator u.id).hasWork = false) : Attentive (t.blockTurn u) none := by
  have hsettles : Settles [] t (t.modifySearch u.id ({ · with blocked := true })) :=
    .modifySearch t u.id (fun _ => rfl) (fun _ => rfl) fun _ _ => .inl
  have hblocked : Alert (t.modifySearch u.id ({ · with blocked := true })) (· = u.id)
      (Overdue t u.id u.before) nobody :=
    (some_iff.mp h).1.modifySearch rfl fun s _ f _ _ hf => hf
  have hwork' : ((t.modifySearch u.id ({ · with blocked := true })).generator
      u.id).hasWork = false := by
    refine (Generator.hasWork_congr (t.stack_modifySearch u.id ?_ u.id)
      (t.ready_modifySearch u.id ?_ u.id)).trans hwork
    · exact fun _ => rfl
    · exact fun _ => rfl
  have hrest : Alert (t.modifySearch u.id ({ · with blocked := true })) nobody
      (Overdue (t.modifySearch u.id ({ · with blocked := true })) u.id u.before) nobody :=
    (hblocked.rest hwork').mono (fun _ _ hb => hb.2 hb.1)
      (fun _ _ hover => hsettles.overdue.mpr hover) fun _ ho => ho
  exact notify (hlinked.settles hsettles) hrest

theorem finishTurn (hlinked : Linked t) (h : Attentive t (some u))
    (hwork : (t.generator u.id).hasWork = false) : Attentive (t.finishTurn u) none := by
  have hrest : Alert t nobody (Overdue t u.id u.before) nobody :=
    ((some_iff.mp h).1.rest hwork).mono (fun _ _ hb => hb.2 hb.1) (fun _ _ hl => hl) fun _ ho => ho
  have hsettles := Tables.settles_notifyReaders hlinked u.id u.before
  exact none_iff.mpr ((hrest.notifyReaders hlinked).complete (hlinked.settles hsettles) u.id)

theorem land {ctx : Context} (hlinked : Linked t) (h : Attentive t (some u)) {t₁ : Tables}
    {u' : Turn} {w : Way} (ht : Takes t u.id (some w) t₁) (hl : Lands ctx u.id w t₁ t')
    (hid : u'.id = u.id) (hbefore : u'.before = u.before)
    (hproduced : u'.produced + (t.generator u.id).results.size =
      u.produced + (t'.generator u.id).results.size) : Attentive t' (some u') := by
  obtain ⟨halert, hcounted, hidle⟩ := some_iff.mp h
  have hlt := Tables.lt_size_of_isComplete_eq_false ht.isComplete
  have hc := (ht.isComplete_eq u.id).trans ht.isComplete
  have htake : Alert t₁ (· = u.id) (Overdue t₁ u.id u.before) nobody :=
    (halert.takes rfl ht).mono (fun _ _ hb => hb) (fun _ _ hover => ht.overdue.mpr hover)
      fun _ ho => ho
  have hle : u.before ≤ (t₁.generator u.id).results.size := by
    rw [ht.results]
    omega
  have hland := htake.lands rfl (hlinked.takes ht) hc hle hl
  refine some_iff.mpr ⟨?_, ?_, ?_⟩
  · rw [hid, hbefore]
    exact hland
  · rw [hid, hbefore]
    omega
  · rw [hid, hl.isComplete_eq (ht.size ▸ hlt), hc]
    exact fun hcomplete => Bool.noConfusion hcomplete

theorem move {ctx : Context} {turn turn' : Option Turn} (hlinked : Linked t)
    (h : Attentive t turn) (hm : Move ctx t turn t' turn') : Attentive t' turn' := by
  cases hm with
  | start hagenda => exact h.start hagenda
  | idle hc => exact h.leave hc
  | yield => exact h.yieldTurn hlinked
  | block _ hwork => exact h.blockTurn hlinked hwork
  | finish _ hwork => exact h.finishTurn hlinked hwork
  | @take turn f ready hstack hready =>
      have htake := (some_iff.mp h).1.takeReady rfl hstack hready
      exact h.of_alert htake (fun _ => rfl) (t.results_modifySearch _ _ _)
        (t.isComplete_modifySearch _ _ _)
  | @drop turn c below hstack hc =>
      have hne : ∀ f, c ≠ .consume f := by
        rintro f rfl
        rcases hc with hc | ⟨s, hc⟩ <;> cases hc
      have hdrop : Alert (t.popChoice turn.id) (· = turn.id) (Overdue t turn.id turn.before)
          nobody :=
        (some_iff.mp h).1.dropChoice rfl hstack (fun f _ _ => hne f) (fun _ => rfl)
          fun _ => List.Subset.refl _
      exact h.of_alert hdrop (fun _ => rfl) (t.results_modifySearch _ _ _)
        (t.isComplete_modifySearch _ _ _)
  | @retire turn f below hstack hread =>
      have hretire := (some_iff.mp h).1.retire rfl hstack hread
      refine h.of_alert hretire ?_ ((t.retire f).results_modifySearch _ _ _)
        ((t.retire f).isComplete_modifySearch _ _ _)
      apply t.modifyFrame_keeps (·.target) f
      exact fun _ => rfl
  | pass ht =>
      obtain ⟨halert, hcounted, hidle⟩ := some_iff.mp h
      refine some_iff.mpr ⟨?_, ?_, ?_⟩
      · exact (halert.takes rfl ht).mono (fun _ _ hb => hb)
          (fun _ _ hover => ht.overdue.mpr hover) fun _ ho => ho
      · rw [ht.results]
        exact hcounted
      · rw [ht.isComplete_eq]
        exact hidle
  | land ht hl hid hbefore hproduced => exact h.land hlinked ht hl hid hbefore hproduced
  | check => exact none_iff.mpr ((none_iff.mp h).checkCompletion hlinked _)

end Attentive

/-! ## An engine without work -/

/-- Nobody has anything to do, and nobody could read on. -/
structure AtRest (t : Tables) : Prop where
  work : ∀ id, (t.generator id).hasWork = false
  unread : ∀ f < t.frames.size, (t.frame f).finished = false →
    (t.generator (t.frame f).owner).isComplete = false → t.hasUnread f = false

/-- When no turn is left to be taken, the engine is at rest. -/
theorem Attentive.atRest {t : Tables} (h : Attentive t none) (hagenda : t.agenda = []) :
    AtRest t := by
  have halert := none_iff.mp h
  have hwork : ∀ id, (t.generator id).hasWork = false := by
    intro id
    by_contra hw
    rw [Bool.not_eq_false] at hw
    have hqueued := (halert.turn id hw).resolve_right not_false
    have hmem := halert.agenda id hqueued
    rw [hagenda] at hmem
    exact List.not_mem_nil hmem
  refine ⟨hwork, fun f hf hfin hc => ?_⟩
  by_cases hp : (t.frame f).pending
  · -- a pending frame would be work for its owner
    have hholds := (halert.pending f hf hp hc).resolve_right not_false
    have hw := Generator.hasWork_of_holds hholds
    rw [hwork] at hw
    cases hw
  · rw [Bool.not_eq_true] at hp
    have hwaiting := (halert.waiting f hf hfin hp).resolve_left not_false
    unfold Tables.hasUnread
    rw [Bool.or_eq_false_iff, decide_eq_false_iff_not]
    exact ⟨Nat.not_lt_of_le hwaiting.2, hwaiting.1⟩

theorem AtRest.survey {t : Tables} (h : AtRest t) (hlinked : Linked t) (fuel : Nat)
    (stack visited : List GeneratorId) : ∃ ids, t.survey fuel stack visited = .complete ids := by
  induction fuel generalizing stack visited with
  | zero => exact ⟨visited, by rw [Tables.survey]⟩
  | succ fuel ih =>
      cases stack with
      | nil => exact ⟨visited, by rw [Tables.survey]; exact Nat.succ_ne_zero fuel⟩
      | cons id stack =>
          rw [Tables.survey]
          dsimp only
          split
          · exact ih stack visited
          · rename_i hvisit
            rw [Bool.or_eq_true, not_or, Bool.not_eq_true] at hvisit
            rw [h.work id, if_neg Bool.false_ne_true]
            have hnone : (t.live id).find? t.hasUnread = none := by
              rw [List.find?_eq_none]
              intro f hf
              obtain ⟨hlt, howner, hfin⟩ := (Tables.mem_live hlinked hvisit.1 f).mp hf
              have hunread := h.unread f hlt hfin (by rw [howner]; exact hvisit.1)
              rw [hunread]
              exact Bool.false_ne_true
            unfold Tables.live at hnone
            rw [hnone]
            exact ih _ _

/-- A goal that is looked through when the engine is at rest is completed. -/
theorem AtRest.checkCompletion {t : Tables} (h : AtRest t) (hlinked : Linked t)
    {target : GeneratorId} (hc : (t.generator target).isComplete = false) :
    ∃ S, target ∈ S ∧ Settles S t (t.checkCompletion target) := by
  obtain ⟨ids, hsurvey⟩ := h.survey hlinked (t.frames.size + 1) [target] []
  have hcompletes := Tables.survey_target hlinked hsurvey
  have htarget : target ∈ ids := by
    have hstack := hcompletes.stack target (List.mem_singleton_self target)
    rw [hc] at hstack
    exact hstack.resolve_left Bool.false_ne_true
  refine ⟨ids, htarget, ?_⟩
  have hcount := t.settles_count fun s =>
    { s with completionCascades := s.completionCascades + 1 }
  unfold Tables.checkCompletion
  rw [hsurvey]
  exact hcount.trans (Tables.settles_completeAll (hlinked.settles hcount) ids)

end TripleRules.Tabling
