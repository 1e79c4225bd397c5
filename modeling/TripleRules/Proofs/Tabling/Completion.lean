import TripleRules.Proofs.Tabling.Steps

/-!
# Looking goals through

When a look through dependent goals finds no work, the goals it visited can be completed together:
none of them has an open choice, and every rule that waits for one of their frames has read all the
answers of a goal that is complete or visited too.
-/

namespace TripleRules.Tabling

/-- The goals in `S` have nothing to do, and their rules wait only for complete goals and for one
another. -/
structure Closed (t : Tables) (S : List GeneratorId) : Prop where
  idle : ∀ id ∈ S, (t.generator id).hasWork = false
  read : ∀ f < t.frames.size, (t.frame f).owner ∈ S → (t.frame f).finished = false →
    (t.generator (t.frame f).target).results.size ≤ (t.frame f).nextResult ∧
      ((t.generator (t.frame f).target).isComplete ∨ (t.frame f).target ∈ S)

theorem closed_nil (t : Tables) : Closed t [] :=
  ⟨fun _ h => absurd h List.not_mem_nil, fun _ _ h => absurd h List.not_mem_nil⟩

namespace Tables

def unvisited (t : Tables) (visited : List GeneratorId) : Nat :=
  (List.range t.frames.size).countP fun f => (t.frame f).owner ∉ visited

theorem unvisited_add {t : Tables} {visited : List GeneratorId} {id : GeneratorId}
    (h : id ∉ visited) :
    t.unvisited (visited ++ [id]) +
      (List.range t.frames.size).countP (fun f => (t.frame f).owner = id) =
        t.unvisited visited := by
  unfold unvisited
  generalize List.range t.frames.size = fs
  induction fs with
  | nil => rfl
  | cons f fs ih =>
      simp only [List.countP_cons, List.mem_append, List.mem_singleton, not_or] at ih ⊢
      by_cases hid : (t.frame f).owner = id
      · simp only [hid, h, not_true_eq_false, and_false, decide_false, decide_true,
          not_false_eq_true, if_true, Bool.false_eq_true, if_false]
        omega
      · by_cases hv : (t.frame f).owner ∈ visited
        · simp only [hid, hv, not_true_eq_false, false_and, decide_false, Bool.false_eq_true,
            if_false]
          omega
        · simp only [hid, hv, not_false_eq_true, true_and, decide_true, decide_false,
            Bool.false_eq_true, if_true, if_false]
          omega

def live (t : Tables) (id : GeneratorId) : List FrameId :=
  (t.generator id).generating.filter fun f => !(t.frame f).finished

theorem mem_live {t : Tables} (h : Linked t) {id : GeneratorId}
    (hc : (t.generator id).isComplete = false) (f : FrameId) :
    f ∈ t.live id ↔
      f < t.frames.size ∧ (t.frame f).owner = id ∧ (t.frame f).finished = false := by
  rw [live, List.mem_filter, Bool.not_eq_true']
  constructor
  · rintro ⟨hf, hfin⟩
    exact ⟨(h.owner id f hf).1, (h.owner id f hf).2, hfin⟩
  · rintro ⟨hlt, rfl, hfin⟩
    exact ⟨h.generating f hlt hc, hfin⟩

theorem length_live_le {t : Tables} (h : Linked t) (id : GeneratorId) :
    (t.live id).length ≤
      (List.range t.frames.size).countP fun f => (t.frame f).owner = id := by
  rw [List.countP_eq_length_filter]
  apply List.Nodup.length_le_of_subset
  · exact (h.nodup id).filter _
  · intro f hf
    have hgen := h.owner id f (List.mem_filter.mp hf).1
    simpa using hgen

theorem closed_of_not_hasLiveFrames {t : Tables} (h : Linked t) {id : GeneratorId}
    (hc : (t.generator id).isComplete = false) (hwork : (t.generator id).hasWork = false)
    (hlive : t.hasLiveFrames id = false) : Closed t [id] := by
  refine ⟨fun j hj => ?_, fun f hf ho hfin => ?_⟩
  · rw [List.mem_singleton] at hj
    rw [hj, hwork]
  · rw [List.mem_singleton] at ho
    have hgen : f ∈ (t.generator id).generating := by
      rw [← ho]
      exact h.generating f hf (ho ▸ hc)
    have hall := List.any_eq_false.mp hlive f hgen
    rw [hfin] at hall
    exact absurd rfl hall

/-- What is known of the goals that a look through has visited when those on the stack are still to
be looked at. -/
structure Surveyed (t : Tables) (stack visited : List GeneratorId) : Prop where
  open_ : ∀ id ∈ visited, (t.generator id).isComplete = false
  idle : ∀ id ∈ visited, (t.generator id).hasWork = false
  read : ∀ f < t.frames.size, (t.frame f).owner ∈ visited → (t.frame f).finished = false →
    (t.generator (t.frame f).target).results.size ≤ (t.frame f).nextResult ∧
      ((t.generator (t.frame f).target).isComplete ∨ (t.frame f).target ∈ visited ∨
        (t.frame f).target ∈ stack)

theorem Surveyed.closed {t : Tables} {visited : List GeneratorId} (h : t.Surveyed [] visited) :
    Closed t visited := by
  refine ⟨h.idle, fun f hf ho hfin => ?_⟩
  obtain ⟨hread, htarget⟩ := h.read f hf ho hfin
  simp only [List.not_mem_nil, or_false] at htarget
  exact ⟨hread, htarget⟩

theorem Surveyed.skip {t : Tables} {id : GeneratorId} {stack visited : List GeneratorId}
    (h : t.Surveyed (id :: stack) visited)
    (hid : (t.generator id).isComplete ∨ id ∈ visited) : t.Surveyed stack visited := by
  refine ⟨h.open_, h.idle, fun f hf ho hfin => ?_⟩
  obtain ⟨hread, htarget⟩ := h.read f hf ho hfin
  refine ⟨hread, ?_⟩
  rcases htarget with htarget | htarget | htarget
  · exact .inl htarget
  · exact .inr (.inl htarget)
  · rcases List.mem_cons.mp htarget with heq | htarget
    · rw [heq]
      exact hid.imp_right .inl
    · exact .inr (.inr htarget)

theorem Surveyed.visit {t : Tables} (hlinked : Linked t) {id : GeneratorId}
    {stack visited : List GeneratorId} (h : t.Surveyed (id :: stack) visited)
    (hc : (t.generator id).isComplete = false) (hwork : (t.generator id).hasWork = false)
    (hread : ∀ f ∈ t.live id, t.hasUnread f = false) :
    t.Surveyed (((t.live id).map fun f => (t.frame f).target).reverse ++ stack)
      (visited ++ [id]) := by
  refine ⟨?_, ?_, fun f hf ho hfin => ?_⟩
  · intro j hj
    rcases List.mem_append.mp hj with hj | hj
    · exact h.open_ j hj
    · rw [List.mem_singleton.mp hj, hc]
  · intro j hj
    rcases List.mem_append.mp hj with hj | hj
    · exact h.idle j hj
    · rw [List.mem_singleton.mp hj, hwork]
  · rw [List.mem_append, List.mem_append, List.mem_singleton]
    rcases List.mem_append.mp ho with ho | ho
    · obtain ⟨hsize, htarget⟩ := h.read f hf ho hfin
      refine ⟨hsize, ?_⟩
      rcases htarget with htarget | htarget | htarget
      · exact .inl htarget
      · exact .inr (.inl (.inl htarget))
      · rcases List.mem_cons.mp htarget with htarget | htarget
        · exact .inr (.inl (.inr htarget))
        · exact .inr (.inr (.inr htarget))
    · have hlive := (mem_live hlinked hc f).mpr ⟨hf, List.mem_singleton.mp ho, hfin⟩
      have hunread := hread f hlive
      unfold hasUnread at hunread
      rw [Bool.or_eq_false_iff, decide_eq_false_iff_not] at hunread
      refine ⟨Nat.le_of_not_lt hunread.1, .inr (.inr (.inl ?_))⟩
      rw [List.mem_reverse]
      exact List.mem_map_of_mem hlive

/-- What a look through brings that finds no work: goals that can be completed together, and all
that were on the stack are complete or among them. -/
structure Completes (t : Tables) (stack visited ids : List GeneratorId) : Prop where
  closed : Closed t ids
  visited : visited ⊆ ids
  open_ : ∀ id ∈ ids, (t.generator id).isComplete = false
  stack : ∀ id ∈ stack, (t.generator id).isComplete ∨ id ∈ ids

theorem Surveyed.completes {t : Tables} {visited : List GeneratorId}
    (h : t.Surveyed [] visited) : t.Completes [] visited visited :=
  ⟨h.closed, List.Subset.refl _, h.open_, fun _ h => absurd h List.not_mem_nil⟩

theorem survey_completes {t : Tables} (hlinked : Linked t) {fuel : Nat}
    {stack visited ids : List GeneratorId} (h : t.survey fuel stack visited = .complete ids)
    (hfuel : stack.length + t.unvisited visited ≤ fuel) (hs : t.Surveyed stack visited) :
    t.Completes stack visited ids := by
  induction fuel generalizing stack visited with
  | zero =>
      have hnil : stack = [] := List.eq_nil_of_length_eq_zero (by omega)
      subst hnil
      rw [survey] at h
      cases h
      exact hs.completes
  | succ fuel ih =>
      cases stack with
      | nil =>
          rw [survey] at h
          · cases h
            exact hs.completes
          · simp
      | cons id stack =>
          rw [survey] at h
          dsimp only at h
          rw [List.length_cons] at hfuel
          split at h
          · rename_i hskip
            rw [Bool.or_eq_true, List.contains_iff_mem] at hskip
            have hrest := ih h (by omega) (hs.skip hskip)
            refine ⟨hrest.closed, hrest.visited, hrest.open_, fun j hj => ?_⟩
            rcases List.mem_cons.mp hj with rfl | hj
            · exact hskip.imp_right fun hv => hrest.visited hv
            · exact hrest.stack j hj
          · rename_i hvisit
            rw [Bool.or_eq_true, List.contains_iff_mem, not_or, Bool.not_eq_true] at hvisit
            split at h
            · cases h
            · rename_i hwork
              split at h
              · split at h <;> cases h
              · rename_i hfind
                have hs' := hs.visit hlinked hvisit.1 (by simpa using hwork) fun f hf => by
                  simpa using List.find?_eq_none.mp hfind f hf
                have hcount := unvisited_add (t := t) hvisit.2
                have hlive := length_live_le hlinked id
                have hlength : (((t.live id).map fun f => (t.frame f).target).reverse ++
                    stack).length + t.unvisited (visited ++ [id]) ≤ fuel := by
                  rw [List.length_append, List.length_reverse, List.length_map]
                  omega
                have hrest := ih h hlength hs'
                refine ⟨hrest.closed, fun j hj => hrest.visited (List.mem_append_left _ hj),
                  hrest.open_, fun j hj => ?_⟩
                rcases List.mem_cons.mp hj with rfl | hj
                · exact .inr (hrest.visited (List.mem_append_right _ (List.mem_singleton_self _)))
                · exact hrest.stack j (List.mem_append_right _ hj)

theorem survey_wake {t : Tables} (hlinked : Linked t) {fuel : Nat}
    {stack visited : List GeneratorId} {f : FrameId}
    (h : t.survey fuel stack visited = .wake f) : f < t.frames.size := by
  induction fuel generalizing stack visited with
  | zero =>
      rw [survey] at h
      cases h
  | succ fuel ih =>
      cases stack with
      | nil =>
          rw [survey] at h
          · cases h
          · simp
      | cons id stack =>
          rw [survey] at h
          dsimp only at h
          split at h
          · exact ih h
          · split at h
            · cases h
            · split at h
              · rename_i f' hfind
                split at h
                · cases h
                · cases h
                  have hlive := List.mem_of_find?_eq_some hfind
                  exact (hlinked.owner id f (List.mem_filter.mp hlive).1).1
              · exact ih h

theorem surveyed_start (t : Tables) (target : GeneratorId) : t.Surveyed [target] [] :=
  ⟨fun _ h => absurd h List.not_mem_nil, fun _ h => absurd h List.not_mem_nil,
    fun _ _ h => absurd h List.not_mem_nil⟩

/-- The look through of a goal that ends without finding work. -/
theorem survey_target {t : Tables} (hlinked : Linked t) {target : GeneratorId}
    {ids : List GeneratorId}
    (h : t.survey (t.frames.size + 1) [target] [] = .complete ids) :
    t.Completes [target] [] ids := by
  refine survey_completes hlinked h ?_ (t.surveyed_start target)
  have hcount : t.unvisited [] ≤ (List.range t.frames.size).length := List.countP_le_length
  rw [List.length_range] at hcount
  rw [List.length_singleton]
  omega

/-- A look for completed goals arranges work, or it ends the search for goals that depend only on
one another. -/
theorem checkCompletion_settles {t : Tables} (hlinked : Linked t) (target : GeneratorId) :
    ∃ S, Closed t S ∧ Settles S t (t.checkCompletion target) := by
  unfold checkCompletion
  split
  · exact ⟨[], closed_nil t, t.settles_enqueue _⟩
  · rename_i f hsurvey
    exact ⟨[], closed_nil t, t.settles_wake (survey_wake hlinked hsurvey)⟩
  · rename_i ids hsurvey
    have hcount := t.settles_count fun s =>
      { s with completionCascades := s.completionCascades + 1 }
    exact ⟨ids, (survey_target hlinked hsurvey).closed,
      hcount.trans (settles_completeAll (hlinked.settles hcount) ids)⟩

end Tables

/-! ## Arranging and working -/

inductive Work (ctx : Context) (t : Tables) (id : GeneratorId) : Tables → Prop where
  | take {f : FrameId} {ready : List FrameId} (hstack : (t.generator id).stack = [])
      (h : (t.generator id).ready = f :: ready) : Work ctx t id (t.takeReady id)
  | drop {c : ChoicePoint} {below : List ChoicePoint} (h : (t.generator id).stack = c :: below)
      (hc : c = .alternatives [] [] ∨ ∃ s, c = .data s []) : Work ctx t id (t.popChoice id)
  | retire {f : FrameId} {below : List ChoicePoint}
      (h : (t.generator id).stack = .consume f :: below)
      (hread : (t.generator (t.frame f).target).results.size ≤ (t.frame f).nextResult) :
      Work ctx t id ((t.retire f).popChoice id)
  | pass {t' : Tables} (h : Takes t id none t') : Work ctx t id t'
  | land {t₁ t' : Tables} {w : Way} (h : Takes t id (some w) t₁) (hland : Lands ctx id w t₁ t') :
      Work ctx t id t'

/-- A move arranges turns, ends searches of goals that nothing more can come of, or works. -/
theorem Move.settles_or_work {ctx : Context} {t t' : Tables} {turn turn' : Option Turn}
    (hlinked : Linked t) (h : Move ctx t turn t' turn') :
    (∃ S, Closed t S ∧ Settles S t t') ∨ ∃ id, Work ctx t id t' := by
  cases h with
  | start => exact .inl ⟨[], closed_nil t, t.settles_beginTurn _ _⟩
  | idle => exact .inl ⟨[], closed_nil t, .refl t⟩
  | yield => exact .inl ⟨[], closed_nil t, Tables.settles_yieldTurn hlinked _⟩
  | block => exact .inl ⟨[], closed_nil t, Tables.settles_blockTurn hlinked _⟩
  | finish hc hwork hlive =>
      exact .inl ⟨_, Tables.closed_of_not_hasLiveFrames hlinked hc hwork hlive,
        Tables.settles_finishTurn hlinked _⟩
  | take hstack h => exact .inr ⟨_, .take hstack h⟩
  | drop h hc => exact .inr ⟨_, .drop h hc⟩
  | retire h hread => exact .inr ⟨_, .retire h hread⟩
  | pass h => exact .inr ⟨_, .pass h⟩
  | land h hland => exact .inr ⟨_, .land h hland⟩
  | check => exact .inl (Tables.checkCompletion_settles hlinked _)

end TripleRules.Tabling
