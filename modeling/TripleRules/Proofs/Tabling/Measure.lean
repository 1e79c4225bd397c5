import Mathlib.Algebra.Order.BigOperators.Ring.Finset
import TripleRules.Proofs.Tabling.Turns

/-!
# A measure of the work left

Every move either brings the search nearer to its bounds, with a new goal, a new answer or the end
of a search, or it leaves these as they are and spends some of the work that is waiting.  The bounds
are the number of goals that there can be and a width, which no list of answers exceeds.
-/

namespace TripleRules.Tabling

open Finset

theorem sum_range_add {n i : Nat} (hi : i < n) {f g : Nat → Nat} (h : ∀ j, j ≠ i → g j = f j) :
    (∑ j ∈ range n, g j) + f i = (∑ j ∈ range n, f j) + g i := by
  have hmem : i ∈ range n := mem_range.mpr hi
  have hrest : ∑ j ∈ (range n).erase i, g j = ∑ j ∈ (range n).erase i, f j :=
    sum_congr rfl fun j hj => h j (ne_of_mem_erase hj)
  have hg := add_sum_erase (range n) g hmem
  have hf := add_sum_erase (range n) f hmem
  omega

/-! ## Room -/

/-- What a place in the tables can still bring: a generator, its answers and its end. -/
def Tables.prospect (t : Tables) (width : Nat) (id : GeneratorId) : Nat :=
  (if id < t.size then if (t.generator id).isComplete then 0 else 1 else 2) +
    2 * (width - (t.generator id).results.size)

def Tables.room (t : Tables) (width count : Nat) : Nat :=
  ∑ id ∈ range count, t.prospect width id

def Turn.gain (t : Tables) (u : Turn) : Nat :=
  if u.before < (t.generator u.id).results.size then 1 else 0

section

variable {t t' : Tables} {width count : Nat}

theorem room_le (h : ∀ id, t'.prospect width id ≤ t.prospect width id) :
    t'.room width count ≤ t.room width count :=
  sum_le_sum fun id _ => h id

theorem room_add_le (h : ∀ id, t'.prospect width id ≤ t.prospect width id) {id : GeneratorId}
    (hid : id < count) {k : Nat} (hk : t'.prospect width id + k ≤ t.prospect width id) :
    t'.room width count + k ≤ t.room width count := by
  have hmem : id ∈ range count := mem_range.mpr hid
  have hrest : ∑ j ∈ (range count).erase id, t'.prospect width j ≤
      ∑ j ∈ (range count).erase id, t.prospect width j := sum_le_sum fun j _ => h j
  have hnew := add_sum_erase (range count) (t'.prospect width) hmem
  have hold := add_sum_erase (range count) (t.prospect width) hmem
  unfold Tables.room
  omega

theorem Settles.prospect_le {S : List GeneratorId} (h : Settles S t t') (id : GeneratorId) :
    t'.prospect width id ≤ t.prospect width id := by
  unfold Tables.prospect
  rw [h.size, h.results]
  by_cases hid : id < t.size
  · rw [if_pos hid, if_pos hid]
    by_cases hc : (t.generator id).isComplete
    · rw [if_pos hc, if_pos (h.isComplete_mono hc)]
    · rw [if_neg hc]
      split <;> omega
  · rw [if_neg hid, if_neg hid]

theorem Settles.room_le {S : List GeneratorId} (h : Settles S t t') :
    t'.room width count ≤ t.room width count :=
  Tabling.room_le fun id => h.prospect_le id

theorem Settles.room_lt {S : List GeneratorId} (h : Settles S t t') {id : GeneratorId}
    (hid : id ∈ S) (hc : (t.generator id).isComplete = false) (hcount : t.size ≤ count) :
    t'.room width count < t.room width count := by
  have hlt := Tables.lt_size_of_isComplete_eq_false hc
  have hend : (t'.generator id).isComplete := (h.isComplete id).mpr (.inr hid)
  have hone : t'.prospect width id + 1 ≤ t.prospect width id := by
    unfold Tables.prospect
    rw [h.size, h.results, if_pos hlt, if_pos hlt, if_pos hend, hc]
    simp only [Bool.false_eq_true, if_false]
    omega
  exact room_add_le (fun id => h.prospect_le id) (Nat.lt_of_lt_of_le hlt hcount) hone

theorem room_addGenerator (t : Tables) (ctx : Context) (key : Triple) (hcount : t.size < count) :
    (t.addGenerator ctx key).room width count + 1 ≤ t.room width count := by
  have hnew : (t.addGenerator ctx key).prospect width t.size + 1 ≤ t.prospect width t.size := by
    unfold Tables.prospect
    rw [t.size_addGenerator, t.generator_addGenerator, if_pos (Nat.lt_succ_self _), if_pos rfl,
      if_neg (Nat.lt_irrefl _), Tables.generator_of_size_le (Nat.le_refl t.size)]
    have hopen : (Generator.new key (ctx.sources.find key) (ctx.rules.candidates key)).isComplete =
        false := rfl
    have hempty : (Generator.new key (ctx.sources.find key)
        (ctx.rules.candidates key)).results.size = 0 := rfl
    have hdefault : (default : Generator).results.size = 0 := rfl
    rw [hopen, hempty, hdefault]
    simp only [Bool.false_eq_true, if_false]
    omega
  refine room_add_le (fun id => ?_) hcount hnew
  by_cases hid : id = t.size
  · rw [hid]
    omega
  · unfold Tables.prospect
    rw [t.size_addGenerator, t.generator_addGenerator, if_neg hid]
    by_cases hlt : id < t.size
    · rw [if_pos hlt, if_pos (Nat.lt_succ_of_lt hlt)]
    · have hge : ¬ id < t.size + 1 := by
        intro h
        exact hlt (Nat.lt_of_le_of_ne (Nat.lt_succ_iff.mp h) hid)
      rw [if_neg hlt, if_neg hge]

theorem room_pushAnswer (t : Tables) {id : GeneratorId} (hid : id < t.size)
    (hcount : t.size ≤ count) (x : Triple)
    (hwidth : ((t.pushAnswer id x).generator id).results.size ≤ width) :
    (t.pushAnswer id x).room width count + 2 ≤ t.room width count := by
  have hsize : (t.pushAnswer id x).size = t.size := t.size_modifyGenerator id _
  have hprospect : ∀ j, (t.pushAnswer id x).prospect width j + (if j = id then 2 else 0) ≤
      t.prospect width j := by
    intro j
    unfold Tables.prospect
    rw [hsize, t.isComplete_pushAnswer]
    by_cases hj : j = id
    · rw [t.results_pushAnswer hid, if_pos rfl, Array.size_push] at hwidth
      rw [t.results_pushAnswer hid, if_pos hj, if_pos hj, Array.size_push, hj]
      omega
    · rw [t.results_pushAnswer hid, if_neg hj, if_neg hj, Nat.add_zero]
  have hself := hprospect id
  rw [if_pos rfl] at hself
  refine room_add_le (fun j => ?_) (Nat.lt_of_lt_of_le hid hcount) hself
  exact (Nat.le_add_right _ _).trans (hprospect j)

end

/-! ## Waiting work -/

/-- The work that a rule can still cause: a pattern may be suspended, and its frame queued and read
once for every answer. -/
def bodyCost (width : Nat) : List Premise → Nat
  | [] => 0
  | .call _ _ :: rest => bodyCost width rest
  | .pattern _ :: rest => 3 + width * (1 + bodyCost width rest)

def Way.cost (width : Nat) : Way → Nat
  | .fact _ => 0
  | .cursor _ rest _ => bodyCost width rest

def ChoicePoint.cost (width : Nat) : ChoicePoint → Nat
  | .alternatives facts rules =>
    1 + facts.length + (rules.map fun r => 1 + bodyCost width r.body).sum
  | .data s left => 1 + left.length * (1 + bodyCost width s.rest)
  | .consume _ => 1

def Search.cost (width : Nat) (s : Search) : Nat :=
  (s.stack.map (ChoicePoint.cost width)).sum + 2 * s.ready.length

def Generator.cost (width : Nat) (g : Generator) : Nat :=
  (g.search.map (Search.cost width)).getD 0

def Frame.cost (width : Nat) (f : Frame) : Nat :=
  (width - f.nextResult) * (1 + bodyCost width f.continuation.rest)

def Tables.load (t : Tables) (width count : Nat) : Nat :=
  ∑ id ∈ range count, (t.generator id).cost width +
    ∑ f ∈ range t.frames.size, (t.frame f).cost width

section

variable {t t' : Tables} {width count : Nat}

theorem Generator.cost_of_some {g : Generator} {s : Search} (h : g.search = some s) :
    g.cost width = s.cost width := by
  rw [cost, h, Option.map_some, Option.getD_some]

theorem load_congr (hcost : ∀ id, (t'.generator id).cost width = (t.generator id).cost width)
    (hframes : t'.frames = t.frames) : t'.load width count = t.load width count := by
  have hframe : t'.frame = t.frame := Tables.frame_congr hframes
  unfold Tables.load
  rw [hframes, hframe, sum_congr rfl fun id _ => hcost id]

theorem load_modifySearch {id : GeneratorId} {s : Search} (hs : (t.generator id).search = some s)
    (hcount : t.size ≤ count) (g : Search → Search) :
    (t.modifySearch id g).load width count + s.cost width =
      t.load width count + (g s).cost width := by
  have hlt := Tables.lt_size_of_isComplete_eq_false (Generator.isComplete_of_some hs)
  have hsum := sum_range_add (Nat.lt_of_lt_of_le hlt hcount)
    (f := fun j => (t.generator j).cost width)
    (g := fun j => ((t.modifySearch id g).generator j).cost width) (fun j hj => by
      rw [Generator.cost, t.search_modifySearch_of_ne g hj, Generator.cost])
  rw [Generator.cost_of_some hs,
    Generator.cost_of_some (Tables.search_modifySearch_self hs g)] at hsum
  have hframes : ∑ f ∈ range (t.modifySearch id g).frames.size,
      ((t.modifySearch id g).frame f).cost width =
        ∑ f ∈ range t.frames.size, (t.frame f).cost width := rfl
  unfold Tables.load
  omega

theorem load_modifyFrame {f : FrameId} (hf : f < t.frames.size) (g : Frame → Frame) :
    (t.modifyFrame f g).load width count + (t.frame f).cost width =
      t.load width count + (g (t.frame f)).cost width := by
  have hsum := sum_range_add hf (f := fun j => (t.frame j).cost width)
    (g := fun j => ((t.modifyFrame f g).frame j).cost width) (fun j hj => by
      rw [t.frame_modifyFrame_of_ne g hj])
  rw [t.frame_modifyFrame_self g hf] at hsum
  have hgenerators : ∑ id ∈ range count, ((t.modifyFrame f g).generator id).cost width =
      ∑ id ∈ range count, (t.generator id).cost width := rfl
  unfold Tables.load
  rw [t.size_frames_modifyFrame]
  omega

theorem load_suspend (t : Tables) (target : GeneratorId) {owner : GeneratorId} (s : Suspension)
    (hc : (t.generator owner).isComplete = false) (hcount : t.size ≤ count) :
    (t.suspend target owner s).load width count ≤
      t.load width count + (2 + width * (1 + bodyCost width s.rest)) := by
  have hlink : (t.link target owner s).load width count =
      t.load width count + width * (1 + bodyCost width s.rest) := by
    have hcost : ∀ id, ((t.link target owner s).generator id).cost width =
        (t.generator id).cost width :=
      t.link_keeps target owner s (·.cost width) (fun _ _ => rfl) (fun _ _ => rfl)
    have hold : ∑ f ∈ range t.frames.size, ((t.link target owner s).frame f).cost width =
        ∑ f ∈ range t.frames.size, (t.frame f).cost width := by
      apply sum_congr rfl
      intro f hf
      rw [t.frame_link_of_lt target owner s (mem_range.mp hf)]
    have hnew : ((t.link target owner s).frame t.frames.size).cost width =
        width * (1 + bodyCost width s.rest) := by
      rw [t.frame_link_new]
      rfl
    have hgenerators : ∑ id ∈ range count, ((t.link target owner s).generator id).cost width =
        ∑ id ∈ range count, (t.generator id).cost width := sum_congr rfl fun id _ => hcost id
    unfold Tables.load
    rw [t.frames_link, sum_range_succ, hold, hnew, hgenerators]
    omega
  obtain ⟨f, heq⟩ := t.suspend_eq target owner s
  have hcountload : ((t.link target owner s).count f).load width count =
      (t.link target owner s).load width count := rfl
  rw [heq]
  split
  · have hopen : (((t.link target owner s).count f).generator owner).isComplete = false :=
      (t.isComplete_link target owner s owner).trans hc
    obtain ⟨s', hs'⟩ := Generator.exists_search hopen
    have hsize : ((t.link target owner s).count f).size ≤ count := by
      have hlinksize := t.size_link target owner s
      exact hlinksize ▸ hcount
    have hready : (((t.link target owner s).count f).modifySearch owner fun s =>
        { s with ready := s.ready ++ [t.frames.size] }).load width count + s'.cost width =
          ((t.link target owner s).count f).load width count +
            Search.cost width { s' with ready := s'.ready ++ [t.frames.size] } :=
      load_modifySearch hs' hsize _
    have hcost : Search.cost width { s' with ready := s'.ready ++ [t.frames.size] } =
        s'.cost width + 2 := by
      simp only [Search.cost, List.length_append, List.length_singleton]
      omega
    omega
  · omega

end

end TripleRules.Tabling
