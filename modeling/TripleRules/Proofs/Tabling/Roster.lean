import Mathlib.Data.List.Nodup
import TripleRules.Proofs.Tabling.Runs

/-!
# The roster

The cache lists the goals of all generators in the order in which they were created, each once.  The
agenda lists the generators that are marked as queued, each once.
-/

namespace TripleRules.Tabling

/-- The cache and the agenda list just what the generators say. -/
structure Listed (t : Tables) : Prop where
  cache : t.cache = (List.range t.size).map fun id => ((t.generator id).goal, id)
  queued : ∀ id, (t.generator id).queued ↔ id ∈ t.agenda
  agenda : t.agenda.Nodup

namespace Listed

variable {t t' : Tables}

theorem blank (h : t.Blank) : Listed t := by
  have hsize : t.size = 0 := by rw [Tables.size, h.generators, Array.size_empty]
  have hg : ∀ id, t.generator id = default := fun id =>
    Tables.generator_of_size_le (by rw [hsize]; exact Nat.zero_le id)
  refine ⟨by rw [h.cache, hsize]; rfl, fun id => ?_, by rw [h.agenda]; exact List.nodup_nil⟩
  rw [hg, h.agenda]
  exact ⟨fun hq => Bool.noConfusion hq, fun hmem => absurd hmem List.not_mem_nil⟩

theorem congr (h : Listed t) (hsize : t'.size = t.size) (hcache : t'.cache = t.cache)
    (hagenda : t'.agenda = t.agenda)
    (hgoal : ∀ id, (t'.generator id).goal = (t.generator id).goal)
    (hqueued : ∀ id, (t'.generator id).queued = (t.generator id).queued) : Listed t' := by
  refine ⟨?_, fun id => ?_, hagenda ▸ h.agenda⟩
  · rw [hcache, hsize, h.cache]
    exact List.map_congr_left fun id _ => by rw [hgoal]
  · rw [hqueued, hagenda]
    exact h.queued id

theorem of_eq (h : Listed t) (hgenerators : t'.generators = t.generators)
    (hcache : t'.cache = t.cache) (hagenda : t'.agenda = t.agenda) : Listed t' := by
  have hg : t'.generator = t.generator := Tables.generator_congr hgenerators
  exact h.congr (congrArg Array.size hgenerators) hcache hagenda (fun id => by rw [hg])
    fun id => by rw [hg]

theorem count (h : Listed t) (f : Stats → Stats) : Listed (t.count f) := h.of_eq rfl rfl rfl

theorem modifyGenerator (h : Listed t) (id : GeneratorId) {f : Generator → Generator}
    (hgoal : ∀ g, (f g).goal = g.goal) (hqueued : ∀ g, (f g).queued = g.queued) :
    Listed (t.modifyGenerator id f) :=
  h.congr (t.size_modifyGenerator id f) rfl rfl (t.modifyGenerator_keeps _ id hgoal)
    (t.modifyGenerator_keeps _ id hqueued)

theorem modifySearch (h : Listed t) (id : GeneratorId) (f : Search → Search) :
    Listed (t.modifySearch id f) := by
  apply h.modifyGenerator id
  all_goals exact fun _ => rfl

theorem modifyFrame (h : Listed t) (id : FrameId) (f : Frame → Frame) :
    Listed (t.modifyFrame id f) :=
  h.congr rfl rfl rfl (fun _ => rfl) fun _ => rfl

/-! ## Scheduling -/

theorem enqueue (h : Listed t) (id : GeneratorId) : Listed (t.enqueue id) := by
  rcases t.enqueue_cases id with ⟨-, heq⟩ | ⟨⟨hcomplete, hqueued⟩, heq⟩ <;> rw [heq]
  · exact h
  · have hid := Tables.lt_size_of_isComplete_eq_false hcomplete
    have hnew : id ∉ t.agenda := fun hmem => by
      rw [(h.queued id).mpr hmem] at hqueued
      cases hqueued
    refine ⟨?_, fun j => ?_, ?_⟩
    · change t.cache = (List.range (t.modifyGenerator id Generator.marked).size).map
        fun j => (((t.modifyGenerator id Generator.marked).generator j).goal, j)
      rw [t.size_modifyGenerator, h.cache]
      refine List.map_congr_left fun j _ => ?_
      rw [t.modifyGenerator_keeps (·.goal) id (f := Generator.marked) fun _ => rfl]
    · change ((t.modifyGenerator id Generator.marked).generator j).queued ↔ j ∈ t.agenda ++ [id]
      rw [List.mem_append, List.mem_singleton]
      by_cases hj : j = id
      · rw [hj, t.generator_modifyGenerator_self _ hid]
        exact ⟨fun _ => .inr rfl, fun _ => rfl⟩
      · rw [t.generator_modifyGenerator_of_ne _ hj, h.queued]
        exact ⟨.inl, fun hmem => hmem.resolve_right hj⟩
    · change (t.agenda ++ [id]).Nodup
      rw [List.nodup_append]
      refine ⟨h.agenda, List.pairwise_singleton _ _, fun a ha b hb => ?_⟩
      rw [List.mem_singleton.mp hb]
      rintro rfl
      exact hnew ha

theorem wake (h : Listed t) (f : FrameId) : Listed (t.wake f) := by
  unfold Tables.wake
  dsimp only
  split
  · exact h
  · split
    · exact h.modifyFrame f _
    · exact ((h.modifyFrame f _).modifySearch _ _).enqueue _

theorem wakeAll (h : Listed t) (fs : List FrameId) : Listed (fs.foldl Tables.wake t) := by
  induction fs generalizing t with
  | nil => exact h
  | cons f fs ih => exact ih (h.wake f)

theorem notifyReaders (h : Listed t) (id : GeneratorId) (before : Nat) :
    Listed (t.notifyReaders id before) := by
  unfold Tables.notifyReaders
  dsimp only
  split
  · exact h
  · exact h.wakeAll _

theorem finishFrames (h : Listed t) (fs : List FrameId) :
    Listed (fs.foldl (fun t f => t.modifyFrame f fun f => { f with finished := true }) t) := by
  induction fs generalizing t with
  | nil => exact h
  | cons f fs ih => exact ih (h.modifyFrame f _)

theorem complete (h : Listed t) (id : GeneratorId) : Listed (t.complete id) := by
  unfold Tables.complete
  dsimp only
  split
  · exact h
  · have hclose : Listed (t.close id) := by
      apply h.modifyGenerator id
      all_goals exact fun _ => rfl
    have hcount : Listed ((t.close id).count fun s =>
        { s with generatorsCompleted := s.generatorsCompleted + 1 }) := hclose.count _
    exact (hcount.finishFrames _).wakeAll _

theorem completeAll (h : Listed t) (ids : List GeneratorId) :
    Listed (ids.foldl Tables.complete t) := by
  induction ids generalizing t with
  | nil => exact h
  | cons id ids ih => exact ih (h.complete id)

theorem checkCompletion (h : Listed t) (target : GeneratorId) :
    Listed (t.checkCompletion target) := by
  unfold Tables.checkCompletion
  split
  · exact h.enqueue _
  · exact h.wake _
  · exact (h.count _).completeAll _

theorem beginTurn (h : Listed t) {id : GeneratorId} {agenda : List GeneratorId}
    (hagenda : t.agenda = id :: agenda) : Listed (t.beginTurn id agenda) := by
  have hnodup := h.agenda
  rw [hagenda, List.nodup_cons] at hnodup
  have hs := t.settles_beginTurn id agenda
  refine ⟨?_, fun j => ?_, hnodup.2⟩
  · rw [hs.cache, hs.size, h.cache]
    exact List.map_congr_left fun j _ => by rw [hs.goal]
  · change _ ↔ j ∈ agenda
    have hgenerator := Tables.generator_modifyGenerator { t with agenda := agenda } id
      (fun g => { g with queued := false }) j
    have hqueued := h.queued j
    rw [hagenda, List.mem_cons] at hqueued
    rw [Tables.beginTurn, hgenerator]
    by_cases hj : j = id
    · subst hj
      have hnot : ¬ ((if j = j ∧ j < Tables.size { t with agenda := agenda } then
          { (t.generator j) with queued := false } else t.generator j).queued) := by
        split
        · exact Bool.false_ne_true
        · rename_i hlt
          rw [Tables.generator_of_size_le (by simpa [Tables.size] using hlt)]
          exact Bool.false_ne_true
      exact ⟨fun hq => absurd hq hnot, fun hmem => absurd hmem hnodup.1⟩
    · rw [if_neg fun h => hj h.1]
      exact ⟨fun hq => (hqueued.mp hq).resolve_left hj, fun hmem => hqueued.mpr (.inr hmem)⟩

/-! ## New goals, frames and answers -/

theorem generatorFor (h : Listed t) (ctx : Context) (goal : Triple) :
    Listed (t.generatorFor ctx goal).2 := by
  rcases t.generatorFor_cases ctx goal with ⟨id, f, -, heq⟩ | ⟨f, -, heq⟩
  · rw [heq]
    exact h.of_eq rfl rfl rfl
  · rw [heq]
    have hadd : Listed (t.addGenerator ctx goal.normalize) := by
      refine ⟨?_, fun id => ?_, h.agenda⟩
      · rw [t.size_addGenerator, List.range_succ, List.map_append]
        change t.cache ++ [(goal.normalize, t.size)] = _
        rw [h.cache, List.map_singleton, t.generator_addGenerator, if_pos rfl]
        congr 1
        refine List.map_congr_left fun id hid => ?_
        rw [t.generator_addGenerator_of_lt ctx _ (List.mem_range.mp hid)]
      · change _ ↔ id ∈ t.agenda
        rw [t.generator_addGenerator, ← h.queued]
        split
        · rename_i hid
          rw [Tables.generator_of_size_le (Nat.le_of_eq hid.symm)]
          rfl
        · rfl
    exact (hadd.count f).enqueue _

theorem suspend (h : Listed t) (target owner : GeneratorId) (s : Suspension) :
    Listed (t.suspend target owner s) := by
  have hlink : Listed (t.link target owner s) :=
    h.congr (t.size_link target owner s) rfl rfl
      (t.goal_link target owner s)
      (t.link_keeps target owner s (·.queued) (fun _ _ => rfl) fun _ _ => rfl)
  obtain ⟨f, heq⟩ := t.suspend_eq target owner s
  have hcount : Listed ((t.link target owner s).count f) := hlink.count f
  rw [heq]
  split
  · exact hcount.modifySearch owner _
  · exact hcount

theorem addResult (h : Listed t) (id : GeneratorId) (x : Triple) (d : Option Derivation) :
    Listed (t.addResult id x d).2 := by
  unfold Tables.addResult
  split
  · exact h
  · have hpush : Listed (t.pushAnswer id x) := by
      apply h.modifyGenerator id
      all_goals exact fun _ => rfl
    cases d with
    | none => exact hpush.of_eq rfl rfl rfl
    | some d => exact hpush.of_eq rfl rfl rfl

/-! ## Moves -/

theorem takes (h : Listed t) {id : GeneratorId} {w : Option Way} (ht : Takes t id w t') :
    Listed t' := by
  cases ht with
  | fact | start | data => exact h.modifySearch id _
  | read => exact h.modifyFrame _ _

theorem lands (h : Listed t) {ctx : Context} {id : GeneratorId} {w : Way}
    (hl : Lands ctx id w t t') : Listed t' := by
  induction hl with
  | known | barren => exact h
  | new => exact h.addResult id _ _
  | answer _ _ _ _ ih | holds _ _ ih => exact ih h
  | refused => exact h.of_eq rfl rfl rfl
  | suspended => exact (h.generatorFor ctx _).suspend _ _ _
  | opened => exact h.modifySearch id _

theorem move (h : Listed t) {ctx : Context} {turn turn' : Option Turn}
    (hm : Move ctx t turn t' turn') : Listed t' := by
  cases hm with
  | start hagenda => exact h.beginTurn hagenda
  | idle => exact h
  | yield => exact (h.enqueue _).notifyReaders _ _
  | block => exact (h.modifySearch _ _).notifyReaders _ _
  | finish => exact (h.notifyReaders _ _).complete _
  | take | drop => exact h.modifySearch _ _
  | @retire turn f => exact (h.modifyFrame f _).modifySearch _ _
  | pass ht => exact h.takes ht
  | land ht hl => exact (h.takes ht).lands hl
  | check => exact h.checkCompletion _

theorem nodup_keys (h : Listed t) (hlinked : Linked t) : (t.cache.map (·.1)).Nodup := by
  rw [h.cache, List.map_map]
  refine List.Nodup.map_on (fun i hi j hj heq => ?_) List.nodup_range
  have hi' := (hlinked.cache _ i).mpr ⟨List.mem_range.mp hi, rfl⟩
  have hj' := (hlinked.cache _ j).mpr ⟨List.mem_range.mp hj, rfl⟩
  change (t.generator i).goal = (t.generator j).goal at heq
  rw [heq, hj', Option.some.injEq] at hi'
  exact hi'.symm

end Listed

end TripleRules.Tabling
