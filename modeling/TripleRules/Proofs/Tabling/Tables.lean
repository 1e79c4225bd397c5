import Mathlib.Data.List.Basic
import TripleRules.Tabling.Engine

/-!
# Reading the tables

What a generator and a frame look like after each operation that writes them.  Generators and frames
that an operation does not name stay as they are; beyond the end of the tables there are only
default entries, and their searches are over.
-/

namespace TripleRules.Tabling

namespace Generator

def stack (g : Generator) : List ChoicePoint := (g.search.map (·.stack)).getD []

def ready (g : Generator) : List FrameId := (g.search.map (·.ready)).getD []

def known (g : Generator) : List Triple := (g.search.map (·.known)).getD []

theorem isComplete_iff (g : Generator) : g.isComplete ↔ g.search = none := by
  simp [isComplete]

theorem isComplete_of_some {g : Generator} {s : Search} (h : g.search = some s) :
    g.isComplete = false := by
  simp [isComplete, h]

theorem exists_search {g : Generator} (h : g.isComplete = false) : ∃ s, g.search = some s := by
  rw [isComplete, Option.isNone_eq_false_iff] at h
  exact Option.isSome_iff_exists.mp h

theorem stack_of_some {g : Generator} {s : Search} (h : g.search = some s) : g.stack = s.stack := by
  rw [stack, h, Option.map_some, Option.getD_some]

theorem ready_of_some {g : Generator} {s : Search} (h : g.search = some s) : g.ready = s.ready := by
  rw [ready, h, Option.map_some, Option.getD_some]

theorem stack_of_isComplete {g : Generator} (h : g.isComplete) : g.stack = [] := by
  rw [stack, (isComplete_iff g).mp h]
  rfl

theorem ready_of_isComplete {g : Generator} (h : g.isComplete) : g.ready = [] := by
  rw [ready, (isComplete_iff g).mp h]
  rfl

theorem hasWork_eq_false_iff (g : Generator) : g.hasWork = false ↔ g.stack = [] ∧ g.ready = [] := by
  unfold hasWork Search.hasWork stack ready
  cases g.search with
  | none => simp
  | some s => simp

theorem isComplete_of_stack_ne_nil {g : Generator} (h : g.stack ≠ []) : g.isComplete = false := by
  by_contra hc
  rw [Bool.not_eq_false] at hc
  exact h (stack_of_isComplete hc)

theorem isComplete_of_ready_ne_nil {g : Generator} (h : g.ready ≠ []) : g.isComplete = false := by
  by_contra hc
  rw [Bool.not_eq_false] at hc
  exact h (ready_of_isComplete hc)

theorem isComplete_of_mem_stack {g : Generator} {c : ChoicePoint} (h : c ∈ g.stack) :
    g.isComplete = false := isComplete_of_stack_ne_nil (List.ne_nil_of_mem h)

theorem exists_search_of_stack_eq_cons {g : Generator} {c : ChoicePoint}
    {below : List ChoicePoint} (h : g.stack = c :: below) :
    ∃ s, g.search = some s ∧ s.stack = c :: below := by
  have hopen : g.isComplete = false := isComplete_of_stack_ne_nil (h ▸ List.cons_ne_nil c below)
  obtain ⟨s, hs⟩ := exists_search hopen
  exact ⟨s, hs, stack_of_some hs ▸ h⟩

theorem exists_search_of_ready_eq_cons {g : Generator} {f : FrameId} {ready : List FrameId}
    (h : g.ready = f :: ready) : ∃ s, g.search = some s ∧ s.ready = f :: ready := by
  have hopen : g.isComplete = false := isComplete_of_ready_ne_nil (h ▸ List.cons_ne_nil f ready)
  obtain ⟨s, hs⟩ := exists_search hopen
  exact ⟨s, hs, ready_of_some hs ▸ h⟩

@[simp] theorem isComplete_default : (default : Generator).isComplete = true := rfl

def marked (g : Generator) : Generator :=
  { g with queued := true, search := g.search.map ({ · with blocked := false }) }

@[simp] theorem queued_marked (g : Generator) : g.marked.queued = true := rfl

@[simp] theorem isComplete_marked (g : Generator) : g.marked.isComplete = g.isComplete := by
  simp [marked, isComplete]

@[simp] theorem stack_marked (g : Generator) : g.marked.stack = g.stack := by
  cases hs : g.search <;> simp [marked, stack, hs]

@[simp] theorem ready_marked (g : Generator) : g.marked.ready = g.ready := by
  cases hs : g.search <;> simp [marked, ready, hs]

@[simp] theorem known_marked (g : Generator) : g.marked.known = g.known := by
  cases hs : g.search <;> simp [marked, known, hs]

end Generator

namespace Tables

variable (t : Tables)

/-! ## Equal entries -/

theorem generator_congr {t t' : Tables} (h : t'.generators = t.generators) :
    t'.generator = t.generator := by
  funext id
  rw [generator, h, generator]

theorem frame_congr {t t' : Tables} (h : t'.frames = t.frames) : t'.frame = t.frame := by
  funext f
  rw [frame, h, frame]

/-! ## Beyond the end -/

theorem generator_of_size_le {t : Tables} {id : GeneratorId} (h : t.size ≤ id) :
    t.generator id = default := by
  rw [generator, Array.getD_eq_getD_getElem?, Array.getElem?_eq_none h, Option.getD_none]

theorem lt_size_of_isComplete_eq_false {t : Tables} {id : GeneratorId}
    (h : (t.generator id).isComplete = false) : id < t.size := by
  by_contra hlt
  rw [generator_of_size_le (Nat.le_of_not_lt hlt), Generator.isComplete_default] at h
  cases h

/-! ## Writing a generator -/

theorem generator_modifyGenerator (id : GeneratorId) (f : Generator → Generator)
    (j : GeneratorId) :
    (t.modifyGenerator id f).generator j =
      if j = id ∧ id < t.size then f (t.generator j) else t.generator j := by
  simp only [generator, modifyGenerator, size, Array.getD_eq_getD_getElem?, Array.getElem?_modify]
  by_cases hj : id = j
  · subst hj
    by_cases hlt : id < t.generators.size
    · simp [hlt]
    · simp [hlt]
  · simp [hj, Ne.symm hj]

theorem generator_modifyGenerator_of_ne {id j : GeneratorId} (f : Generator → Generator)
    (h : j ≠ id) : (t.modifyGenerator id f).generator j = t.generator j := by
  rw [generator_modifyGenerator, if_neg fun hj => h hj.1]

theorem generator_modifyGenerator_self {id : GeneratorId} (f : Generator → Generator)
    (h : id < t.size) : (t.modifyGenerator id f).generator id = f (t.generator id) := by
  rw [generator_modifyGenerator, if_pos ⟨rfl, h⟩]

theorem modifyGenerator_keeps {β : Type} (part : Generator → β) (id : GeneratorId)
    {f : Generator → Generator} (hf : ∀ g, part (f g) = part g) (j : GeneratorId) :
    part ((t.modifyGenerator id f).generator j) = part (t.generator j) := by
  rw [generator_modifyGenerator]
  split
  · exact hf _
  · rfl

@[simp] theorem size_modifyGenerator (id : GeneratorId) (f : Generator → Generator) :
    (t.modifyGenerator id f).size = t.size := by
  simp [modifyGenerator, size]

@[simp] theorem frames_modifyGenerator (id : GeneratorId) (f : Generator → Generator) :
    (t.modifyGenerator id f).frames = t.frames := rfl

@[simp] theorem frame_modifyGenerator (id : GeneratorId) (f : Generator → Generator)
    (j : FrameId) : (t.modifyGenerator id f).frame j = t.frame j := rfl

@[simp] theorem cache_modifyGenerator (id : GeneratorId) (f : Generator → Generator) :
    (t.modifyGenerator id f).cache = t.cache := rfl

@[simp] theorem agenda_modifyGenerator (id : GeneratorId) (f : Generator → Generator) :
    (t.modifyGenerator id f).agenda = t.agenda := rfl

/-! ## Writing a search -/

theorem search_modifySearch (id : GeneratorId) (f : Search → Search) (j : GeneratorId) :
    ((t.modifySearch id f).generator j).search =
      if j = id then (t.generator j).search.map f else (t.generator j).search := by
  rw [modifySearch, generator_modifyGenerator]
  by_cases hj : j = id
  · rw [if_pos hj]
    split
    · rfl
    · rename_i h
      have hsize : t.size ≤ j := by
        rw [not_and] at h
        rw [hj]
        exact Nat.le_of_not_lt (h hj)
      rw [generator_of_size_le hsize]
      rfl
  · rw [if_neg hj, if_neg fun h => hj h.1]

theorem modifySearch_keeps {β : Type} (part : Generator → β)
    (hpart : ∀ (g : Generator) (s : Option Search), part { g with search := s } = part g)
    (id : GeneratorId) (f : Search → Search) (j : GeneratorId) :
    part ((t.modifySearch id f).generator j) = part (t.generator j) := by
  rw [modifySearch]
  exact t.modifyGenerator_keeps part id (fun g => hpart g _) j

@[simp] theorem goal_modifySearch (id : GeneratorId) (f : Search → Search) (j : GeneratorId) :
    ((t.modifySearch id f).generator j).goal = (t.generator j).goal :=
  t.modifySearch_keeps (·.goal) (fun _ _ => rfl) id f j

@[simp] theorem results_modifySearch (id : GeneratorId) (f : Search → Search) (j : GeneratorId) :
    ((t.modifySearch id f).generator j).results = (t.generator j).results :=
  t.modifySearch_keeps (·.results) (fun _ _ => rfl) id f j

@[simp] theorem generating_modifySearch (id : GeneratorId) (f : Search → Search)
    (j : GeneratorId) :
    ((t.modifySearch id f).generator j).generating = (t.generator j).generating :=
  t.modifySearch_keeps (·.generating) (fun _ _ => rfl) id f j

@[simp] theorem consuming_modifySearch (id : GeneratorId) (f : Search → Search)
    (j : GeneratorId) :
    ((t.modifySearch id f).generator j).consuming = (t.generator j).consuming :=
  t.modifySearch_keeps (·.consuming) (fun _ _ => rfl) id f j

@[simp] theorem queued_modifySearch (id : GeneratorId) (f : Search → Search) (j : GeneratorId) :
    ((t.modifySearch id f).generator j).queued = (t.generator j).queued :=
  t.modifySearch_keeps (·.queued) (fun _ _ => rfl) id f j

@[simp] theorem isComplete_modifySearch (id : GeneratorId) (f : Search → Search)
    (j : GeneratorId) :
    ((t.modifySearch id f).generator j).isComplete = (t.generator j).isComplete := by
  apply t.modifyGenerator_keeps (·.isComplete) id
  intro g
  simp [Generator.isComplete]

theorem search_modifySearch_self {t : Tables} {id : GeneratorId} {s : Search}
    (h : (t.generator id).search = some s) (f : Search → Search) :
    ((t.modifySearch id f).generator id).search = some (f s) := by
  rw [search_modifySearch, if_pos rfl, h, Option.map_some]

theorem search_modifySearch_of_ne {id j : GeneratorId} (f : Search → Search) (h : j ≠ id) :
    ((t.modifySearch id f).generator j).search = (t.generator j).search := by
  rw [search_modifySearch, if_neg h]

theorem stack_modifySearch_self {t : Tables} {id : GeneratorId} {s : Search}
    (h : (t.generator id).search = some s) (f : Search → Search) :
    ((t.modifySearch id f).generator id).stack = (f s).stack :=
  Generator.stack_of_some (search_modifySearch_self h f)

theorem ready_modifySearch_self {t : Tables} {id : GeneratorId} {s : Search}
    (h : (t.generator id).search = some s) (f : Search → Search) :
    ((t.modifySearch id f).generator id).ready = (f s).ready :=
  Generator.ready_of_some (search_modifySearch_self h f)

theorem stack_modifySearch_of_ne {id j : GeneratorId} (f : Search → Search) (h : j ≠ id) :
    ((t.modifySearch id f).generator j).stack = (t.generator j).stack := by
  rw [Generator.stack, search_modifySearch_of_ne t f h, Generator.stack]

theorem ready_modifySearch_of_ne {id j : GeneratorId} (f : Search → Search) (h : j ≠ id) :
    ((t.modifySearch id f).generator j).ready = (t.generator j).ready := by
  rw [Generator.ready, search_modifySearch_of_ne t f h, Generator.ready]

theorem mem_part_modifySearch {α : Type} (part : Search → List α) {t : Tables} {id j : GeneratorId}
    {f : Search → Search} {x : α}
    (h : x ∈ (((t.modifySearch id f).generator j).search.map part).getD []) :
    j ≠ id ∧ x ∈ ((t.generator j).search.map part).getD [] ∨
      j = id ∧ ∃ s, (t.generator id).search = some s ∧ x ∈ part (f s) := by
  rw [search_modifySearch] at h
  by_cases hj : j = id
  · rw [if_pos hj, hj] at h
    cases hs : (t.generator id).search with
    | none =>
        rw [hs] at h
        exact absurd h List.not_mem_nil
    | some s =>
        rw [hs] at h
        exact .inr ⟨hj, s, rfl, h⟩
  · rw [if_neg hj] at h
    exact .inl ⟨hj, h⟩

theorem mem_stack_modifySearch {t : Tables} {id j : GeneratorId} {f : Search → Search}
    {c : ChoicePoint} (h : c ∈ ((t.modifySearch id f).generator j).stack) :
    j ≠ id ∧ c ∈ (t.generator j).stack ∨
      j = id ∧ ∃ s, (t.generator id).search = some s ∧ c ∈ (f s).stack :=
  mem_part_modifySearch (·.stack) h

theorem mem_ready_modifySearch {t : Tables} {id j : GeneratorId} {f : Search → Search}
    {x : FrameId} (h : x ∈ ((t.modifySearch id f).generator j).ready) :
    j ≠ id ∧ x ∈ (t.generator j).ready ∨
      j = id ∧ ∃ s, (t.generator id).search = some s ∧ x ∈ (f s).ready :=
  mem_part_modifySearch (·.ready) h

theorem stack_modifySearch (id : GeneratorId) {f : Search → Search}
    (hf : ∀ s, (f s).stack = s.stack) (j : GeneratorId) :
    ((t.modifySearch id f).generator j).stack = (t.generator j).stack := by
  apply t.modifyGenerator_keeps (·.stack) id
  intro g
  cases hs : g.search with
  | none => simp [Generator.stack, hs]
  | some s => simp [Generator.stack, hs, hf]

theorem ready_modifySearch (id : GeneratorId) {f : Search → Search}
    (hf : ∀ s, (f s).ready = s.ready) (j : GeneratorId) :
    ((t.modifySearch id f).generator j).ready = (t.generator j).ready := by
  apply t.modifyGenerator_keeps (·.ready) id
  intro g
  cases hs : g.search with
  | none => simp [Generator.ready, hs]
  | some s => simp [Generator.ready, hs, hf]

theorem known_modifySearch (id : GeneratorId) {f : Search → Search}
    (hf : ∀ s, (f s).known = s.known) (j : GeneratorId) :
    ((t.modifySearch id f).generator j).known = (t.generator j).known := by
  apply t.modifyGenerator_keeps (·.known) id
  intro g
  cases hs : g.search with
  | none => simp [Generator.known, hs]
  | some s => simp [Generator.known, hs, hf]

@[simp] theorem size_modifySearch (id : GeneratorId) (f : Search → Search) :
    (t.modifySearch id f).size = t.size := t.size_modifyGenerator id _

@[simp] theorem frames_modifySearch (id : GeneratorId) (f : Search → Search) :
    (t.modifySearch id f).frames = t.frames := rfl

@[simp] theorem frame_modifySearch (id : GeneratorId) (f : Search → Search) (j : FrameId) :
    (t.modifySearch id f).frame j = t.frame j := rfl

@[simp] theorem cache_modifySearch (id : GeneratorId) (f : Search → Search) :
    (t.modifySearch id f).cache = t.cache := rfl

@[simp] theorem agenda_modifySearch (id : GeneratorId) (f : Search → Search) :
    (t.modifySearch id f).agenda = t.agenda := rfl

/-! ## Writing a frame -/

theorem frame_modifyFrame (id : FrameId) (f : Frame → Frame) (j : FrameId) :
    (t.modifyFrame id f).frame j =
      if j = id ∧ id < t.frames.size then f (t.frame j) else t.frame j := by
  simp only [frame, modifyFrame, Array.getD_eq_getD_getElem?, Array.getElem?_modify]
  by_cases hj : id = j
  · subst hj
    by_cases hlt : id < t.frames.size
    · simp [hlt]
    · simp [hlt]
  · simp [hj, Ne.symm hj]

theorem frame_modifyFrame_of_ne {id j : FrameId} (f : Frame → Frame) (h : j ≠ id) :
    (t.modifyFrame id f).frame j = t.frame j := by
  rw [frame_modifyFrame, if_neg fun hj => h hj.1]

theorem frame_modifyFrame_self {id : FrameId} (f : Frame → Frame) (h : id < t.frames.size) :
    (t.modifyFrame id f).frame id = f (t.frame id) := by
  rw [frame_modifyFrame, if_pos ⟨rfl, h⟩]

theorem modifyFrame_keeps {β : Type} (part : Frame → β) (id : FrameId) {f : Frame → Frame}
    (hf : ∀ x, part (f x) = part x) (j : FrameId) :
    part ((t.modifyFrame id f).frame j) = part (t.frame j) := by
  rw [frame_modifyFrame]
  split
  · exact hf _
  · rfl

@[simp] theorem size_frames_modifyFrame (id : FrameId) (f : Frame → Frame) :
    (t.modifyFrame id f).frames.size = t.frames.size := by
  simp [modifyFrame]

@[simp] theorem generator_modifyFrame (id : FrameId) (f : Frame → Frame) (j : GeneratorId) :
    (t.modifyFrame id f).generator j = t.generator j := rfl

@[simp] theorem size_modifyFrame (id : FrameId) (f : Frame → Frame) :
    (t.modifyFrame id f).size = t.size := rfl

@[simp] theorem cache_modifyFrame (id : FrameId) (f : Frame → Frame) :
    (t.modifyFrame id f).cache = t.cache := rfl

@[simp] theorem agenda_modifyFrame (id : FrameId) (f : Frame → Frame) :
    (t.modifyFrame id f).agenda = t.agenda := rfl

/-! ## New generators -/

def addGenerator (t : Tables) (ctx : Context) (key : Triple) : Tables :=
  { t with
    generators := t.generators.push
      (.new key (ctx.sources.find key) (ctx.rules.candidates key))
    cache := t.cache ++ [(key, t.size)] }

theorem generator_addGenerator (ctx : Context) (key : Triple) (j : GeneratorId) :
    (t.addGenerator ctx key).generator j =
      if j = t.size then .new key (ctx.sources.find key) (ctx.rules.candidates key)
      else t.generator j := by
  simp only [generator, addGenerator, size, Array.getD_eq_getD_getElem?, Array.getElem?_push]
  split
  · rw [Option.getD_some]
  · rfl

theorem generator_addGenerator_of_lt (ctx : Context) (key : Triple) {j : GeneratorId}
    (h : j < t.size) : (t.addGenerator ctx key).generator j = t.generator j := by
  rw [generator_addGenerator, if_neg (Nat.ne_of_lt h)]

@[simp] theorem size_addGenerator (ctx : Context) (key : Triple) :
    (t.addGenerator ctx key).size = t.size + 1 := by
  simp [addGenerator, size]

@[simp] theorem frames_addGenerator (ctx : Context) (key : Triple) :
    (t.addGenerator ctx key).frames = t.frames := rfl

@[simp] theorem frame_addGenerator (ctx : Context) (key : Triple) (j : FrameId) :
    (t.addGenerator ctx key).frame j = t.frame j := rfl

theorem generatorFor_cases (ctx : Context) (goal : Triple) :
    (∃ id f, t.cache.lookup goal.normalize = some id ∧
      t.generatorFor ctx goal = (id, t.count f)) ∨
    ∃ f, t.cache.lookup goal.normalize = none ∧
      t.generatorFor ctx goal =
        (t.size, ((t.addGenerator ctx goal.normalize).count f).enqueue t.size) := by
  unfold generatorFor
  dsimp only
  split
  · rename_i id hget
    exact .inl ⟨id, _, hget, rfl⟩
  · rename_i hget
    exact .inr ⟨_, hget, rfl⟩

theorem enqueue_cases (id : GeneratorId) :
    ((t.generator id).isComplete ∨ (t.generator id).queued) ∧ t.enqueue id = t ∨
    ((t.generator id).isComplete = false ∧ (t.generator id).queued = false) ∧
      t.enqueue id =
        { t.modifyGenerator id Generator.marked with agenda := t.agenda ++ [id] } := by
  unfold enqueue
  dsimp only
  split
  · rename_i hskip
    rw [Bool.or_eq_true] at hskip
    exact .inl ⟨hskip, rfl⟩
  · rename_i hskip
    rw [Bool.or_eq_true, not_or, Bool.not_eq_true, Bool.not_eq_true] at hskip
    exact .inr ⟨hskip, rfl⟩

theorem frames_enqueue (id : GeneratorId) : (t.enqueue id).frames = t.frames := by
  unfold enqueue
  dsimp only
  split <;> rfl

theorem frames_generatorFor (ctx : Context) (goal : Triple) :
    (t.generatorFor ctx goal).2.frames = t.frames := by
  rcases t.generatorFor_cases ctx goal with ⟨id, f, -, heq⟩ | ⟨f, -, heq⟩
  · rw [heq]
    rfl
  · rw [heq]
    exact frames_enqueue _ _

theorem frame_generatorFor (ctx : Context) (goal : Triple) (f : FrameId) :
    (t.generatorFor ctx goal).2.frame f = t.frame f := by
  rw [frame, frames_generatorFor, frame]

/-! ## New frames -/

/-- Suspends a rule of `owner` on the answers of `target`, and has it resumed at once if that is
possible. -/
def suspend (t : Tables) (target owner : GeneratorId) (s : Suspension) : Tables :=
  let (frame, ready, t) := t.addFrame target owner s
  if ready then t.modifySearch owner fun s => { s with ready := s.ready ++ [frame] } else t

variable (target owner : GeneratorId) (s : Suspension)

def readable (t : Tables) (target : GeneratorId) : Bool :=
  !(t.generator target).results.isEmpty || (t.generator target).isComplete

def addReader (t : Tables) (target owner : GeneratorId) (s : Suspension) : Tables :=
  { t with
    frames := t.frames.push ⟨target, owner, s, 0, t.readable target, false⟩ }.modifyGenerator
    target fun g => { g with consuming := g.consuming ++ [t.frames.size] }

def link (t : Tables) (target owner : GeneratorId) (s : Suspension) : Tables :=
  (t.addReader target owner s).modifyGenerator owner fun g =>
    { g with generating := g.generating ++ [t.frames.size] }

theorem frame_link (j : FrameId) :
    (t.link target owner s).frame j =
      if j = t.frames.size then ⟨target, owner, s, 0, t.readable target, false⟩
      else t.frame j := by
  simp only [link, addReader, frame_modifyGenerator]
  simp only [frame, Array.getD_eq_getD_getElem?, Array.getElem?_push]
  split
  · rw [Option.getD_some]
  · rfl

theorem frame_link_of_lt {j : FrameId} (h : j < t.frames.size) :
    (t.link target owner s).frame j = t.frame j := by
  rw [frame_link, if_neg (Nat.ne_of_lt h)]

theorem frame_link_new : (t.link target owner s).frame t.frames.size =
    ⟨target, owner, s, 0, t.readable target, false⟩ := by
  rw [frame_link, if_pos rfl]

theorem link_keeps {β : Type} (part : Generator → β)
    (hconsuming : ∀ (g : Generator) (l : List FrameId), part { g with consuming := l } = part g)
    (hgenerating : ∀ (g : Generator) (l : List FrameId), part { g with generating := l } = part g)
    (j : GeneratorId) : part ((t.link target owner s).generator j) = part (t.generator j) := by
  rw [link, modifyGenerator_keeps _ part _ fun g => hgenerating g _, addReader,
    modifyGenerator_keeps _ part _ fun g => hconsuming g _]
  rfl

theorem goal_link (j : GeneratorId) :
    ((t.link target owner s).generator j).goal = (t.generator j).goal :=
  link_keeps t target owner s (·.goal) (fun _ _ => rfl) (fun _ _ => rfl) j

theorem results_link (j : GeneratorId) :
    ((t.link target owner s).generator j).results = (t.generator j).results :=
  link_keeps t target owner s (·.results) (fun _ _ => rfl) (fun _ _ => rfl) j

theorem isComplete_link (j : GeneratorId) :
    ((t.link target owner s).generator j).isComplete = (t.generator j).isComplete :=
  link_keeps t target owner s (·.isComplete) (fun _ _ => rfl) (fun _ _ => rfl) j

theorem stack_link (j : GeneratorId) :
    ((t.link target owner s).generator j).stack = (t.generator j).stack :=
  link_keeps t target owner s (·.stack) (fun _ _ => rfl) (fun _ _ => rfl) j

theorem size_addReader : (t.addReader target owner s).size = t.size := by
  rw [addReader, size_modifyGenerator]
  rfl

theorem size_link : (t.link target owner s).size = t.size := by
  rw [link, size_modifyGenerator, size_addReader]

theorem frames_link : (t.link target owner s).frames.size = t.frames.size + 1 := by
  simp [link, addReader]

theorem lt_frames_link_iff {j : FrameId} :
    j < (t.link target owner s).frames.size ↔ j < t.frames.size ∨ j = t.frames.size := by
  rw [frames_link, Nat.lt_succ_iff_lt_or_eq]

theorem generating_addReader (j : GeneratorId) :
    ((t.addReader target owner s).generator j).generating = (t.generator j).generating := by
  unfold addReader
  refine (modifyGenerator_keeps _ (·.generating) _ ?_ j).trans rfl
  exact fun _ => rfl

theorem consuming_link {target : GeneratorId} (h : target < t.size) (j : GeneratorId) :
    ((t.link target owner s).generator j).consuming =
      (t.generator j).consuming ++ if j = target then [t.frames.size] else [] := by
  unfold link
  refine (modifyGenerator_keeps _ (·.consuming) _ ?_ j).trans ?_
  · exact fun _ => rfl
  rw [addReader, generator_modifyGenerator]
  by_cases hj : j = target
  · rw [if_pos ⟨hj, h⟩, if_pos hj]
    rfl
  · rw [if_neg fun h => hj h.1, if_neg hj, List.append_nil]
    rfl

theorem generating_link {owner : GeneratorId} (h : owner < t.size) (j : GeneratorId) :
    ((t.link target owner s).generator j).generating =
      (t.generator j).generating ++ if j = owner then [t.frames.size] else [] := by
  rw [link, generator_modifyGenerator, size_addReader]
  by_cases hj : j = owner
  · rw [if_pos ⟨hj, h⟩, if_pos hj, ← generating_addReader t target owner s]
  · rw [if_neg fun h => hj h.1, if_neg hj, List.append_nil, generating_addReader]

theorem suspend_eq :
    ∃ f, t.suspend target owner s =
      if t.readable target then
        ((t.link target owner s).count f).modifySearch owner fun s =>
          { s with ready := s.ready ++ [t.frames.size] }
      else (t.link target owner s).count f :=
  ⟨_, rfl⟩

end Tables

end TripleRules.Tabling
