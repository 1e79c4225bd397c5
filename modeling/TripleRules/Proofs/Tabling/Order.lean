import TripleRules.Proofs.Tabling.Answers

/-!
# The order of answers

A generator keeps its goal, and each of its answers keeps its place; new answers come behind.  The
triples at hand are the first: as long as some of them are left, no rule of the goal has been
started.
-/

namespace TripleRules.Tabling

variable {ctx : Context} {t₀ t t' : Tables} {id : GeneratorId}

/-! ## Generators over time -/

/-- A generator at a later time: its goal is the same, its answers are still in their places, and a
search that is over stays so. -/
structure Later (t₀ : Tables) (id : GeneratorId) (t : Tables) : Prop where
  size : id < t.size
  goal : (t.generator id).goal = (t₀.generator id).goal
  results : ∀ (i : Nat) x, (t₀.generator id).results[i]? = some x →
    (t.generator id).results[i]? = some x
  isComplete : (t₀.generator id).isComplete → (t.generator id).isComplete

theorem Later.refl (h : id < t.size) : Later t id t :=
  ⟨h, rfl, fun _ _ hx => hx, fun hc => hc⟩

theorem Later.trans (h : Later t₀ id t) (h' : Later t id t') : Later t₀ id t' :=
  ⟨h'.size, h'.goal.trans h.goal, fun i x hx => h'.results i x (h.results i x hx),
    fun hc => h'.isComplete (h.isComplete hc)⟩

theorem Later.size_results_le (h : Later t₀ id t) :
    (t₀.generator id).results.size ≤ (t.generator id).results.size := by
  by_contra hlt
  have hget := h.results (t.generator id).results.size _
    (Array.getElem?_eq_getElem (Nat.lt_of_not_le hlt))
  rw [Array.getElem?_eq_none (Nat.le_refl _)] at hget
  cases hget

theorem Later.prefix_results (h : Later t₀ id t) :
    (t₀.generator id).results.toList <+: (t.generator id).results.toList := by
  rw [List.prefix_iff_getElem?]
  intro i hi
  rw [Array.getElem?_toList, Array.getElem_toList]
  exact h.results i _ (Array.getElem?_eq_getElem hi)

theorem Later.of_eq (hid : id < t.size) (hsize : t.size ≤ t'.size)
    (hgoal : (t'.generator id).goal = (t.generator id).goal)
    (hresults : (t'.generator id).results = (t.generator id).results)
    (hcomplete : (t'.generator id).isComplete = (t.generator id).isComplete) : Later t id t' where
  size := Nat.lt_of_lt_of_le hid hsize
  goal := hgoal
  results i x hx := by
    rw [hresults]
    exact hx
  isComplete hc := by
    rw [hcomplete]
    exact hc

theorem Settles.later {S : List GeneratorId} (h : Settles S t t') (hid : id < t.size) :
    Later t id t' where
  size := h.size ▸ hid
  goal := h.goal id
  results i x hx := by
    rw [h.results]
    exact hx
  isComplete hc := h.isComplete_mono hc

theorem later_modifySearch (hid : id < t.size) (j : GeneratorId) (f : Search → Search) :
    Later t id (t.modifySearch j f) :=
  .of_eq hid (Nat.le_of_eq (t.size_modifySearch j f).symm) (t.goal_modifySearch j f id)
    (t.results_modifySearch j f id) (t.isComplete_modifySearch j f id)

theorem later_generatorFor (hid : id < t.size) (ctx : Context) (goal : Triple) :
    Later t id (t.generatorFor ctx goal).2 :=
  .of_eq hid (size_le_generatorFor t ctx goal) (goal_generatorFor t ctx goal hid)
    (results_generatorFor t ctx goal hid) (isComplete_generatorFor t ctx goal hid)

theorem later_suspend (hid : id < t.size) (target owner : GeneratorId) (s : Suspension) :
    Later t id (t.suspend target owner s) := by
  obtain ⟨f, heq⟩ := t.suspend_eq target owner s
  have hlink : Later t id ((t.link target owner s).count f) :=
    .of_eq hid (Nat.le_of_eq (t.size_link target owner s).symm) (t.goal_link target owner s id)
      (t.results_link target owner s id) (t.isComplete_link target owner s id)
  rw [heq]
  split
  · exact hlink.trans (later_modifySearch hlink.size owner _)
  · exact hlink

theorem later_pushAnswer (hid : id < t.size) {j : GeneratorId} (hj : j < t.size) (x : Triple) :
    Later t id (t.pushAnswer j x) where
  size := by
    rw [Tables.pushAnswer, Tables.size_modifyGenerator]
    exact hid
  goal := t.goal_pushAnswer j x id
  results i y hy := by
    have hlt : i < (t.generator id).results.size := (Array.getElem?_eq_some_iff.mp hy).1
    rw [t.results_pushAnswer hj]
    split
    · rw [Array.getElem?_push, if_neg (Nat.ne_of_lt hlt)]
      exact hy
    · exact hy
  isComplete hc := by
    rw [t.isComplete_pushAnswer]
    exact hc

theorem Takes.later {j : GeneratorId} {w : Option Way} (h : Takes t j w t') (hid : id < t.size) :
    Later t id t' :=
  .of_eq hid (Nat.le_of_eq h.size.symm) (h.goal id).symm (h.results id) (h.isComplete_eq id)

theorem Lands.later {j : GeneratorId} {w : Way} (h : Lands ctx j w t t') (hid : id < t.size)
    (hj : j < t.size) : Later t id t' := by
  induction h with
  | known | barren => exact .refl hid
  | @new x _ _ hnew =>
      have hpush := later_pushAnswer hid hj x
      exact hpush.trans ((Tables.settles_addResult hnew _).later hpush.size)
  | answer _ _ _ _ ih => exact ih hid hj
  | holds _ _ ih => exact ih hid hj
  | refused => exact .of_eq hid (Nat.le_refl _) rfl rfl rfl
  | @suspended _ p _ env =>
      have hask := later_generatorFor hid ctx (env.instantiate p)
      exact hask.trans (later_suspend hask.size _ _ _)
  | opened => exact later_modifySearch hid j _

theorem Work.later {j : GeneratorId} (h : Work ctx t j t') (hid : id < t.size) : Later t id t' := by
  cases h with
  | take | drop => exact later_modifySearch hid j _
  | @retire f =>
      have hretire : Later t id (t.retire f) := .of_eq hid (Nat.le_refl _) rfl rfl rfl
      exact hretire.trans (later_modifySearch hretire.size j _)
  | pass ht => exact ht.later hid
  | land ht hl =>
      have hj := Tables.lt_size_of_isComplete_eq_false ht.isComplete
      have htaken := ht.later hid
      exact htaken.trans (hl.later htaken.size (ht.size ▸ hj))

theorem Move.later {turn turn' : Option Turn} (h : Move ctx t turn t' turn') (hlinked : Linked t)
    (hid : id < t.size) : Later t id t' := by
  rcases h.settles_or_work hlinked with ⟨S, -, hs⟩ | ⟨j, hw⟩
  · exact hs.later hid
  · exact hw.later hid

theorem Sustained.withLater {I : Tables → Option Turn → Prop} {J : Tables → Prop}
    (h : Sustained ctx I J) (hlinked : ∀ t turn, I t turn → Linked t) (t₀ : Tables)
    (id : GeneratorId) :
    Sustained ctx (fun t turn => I t turn ∧ Later t₀ id t) fun t => J t ∧ Later t₀ id t where
  enqueue t j ht hc :=
    ⟨h.enqueue t j ht.1 hc, ht.2.trans ((t.settles_enqueue j).later ht.2.size)⟩
  move t t' turn turn' ht hm :=
    ⟨h.move t t' turn turn' ht.1 hm, ht.2.trans (hm.later (hlinked t turn ht.1) ht.2.size)⟩
  fault t t' turn r rest env premises fresh f ht htakes hfault :=
    ⟨h.fault t t' turn r rest env premises fresh f ht.1 htakes hfault,
      ht.2.trans (htakes.later ht.2.size)⟩

theorem Persistent.withLater {I : Tables → Option Turn → Prop} {J : Tables → Prop}
    (h : Persistent ctx I J) (hlinked : ∀ t turn, I t turn → Linked t) (t₀ : Tables)
    (id : GeneratorId) :
    Persistent ctx (fun t turn => I t turn ∧ Later t₀ id t) fun t => J t ∧ Later t₀ id t where
  toSustained := h.toSustained.withLater hlinked t₀ id
  ask t goal ht := ⟨h.ask t goal ht.1, ht.2.trans (later_generatorFor ht.2.size ctx goal)⟩

theorem Invariant.withLater {I : Tables → Option Turn → Prop} (h : Invariant ctx I)
    (hlinked : ∀ t turn, I t turn → Linked t) (t₀ : Tables) (id : GeneratorId) :
    Invariant ctx fun t turn => I t turn ∧ Later t₀ id t where
  ask := (h.persistent.withLater hlinked t₀ id).ask
  enqueue := (h.persistent.withLater hlinked t₀ id).enqueue
  move := (h.persistent.withLater hlinked t₀ id).move
  safe t t' turn r rest env premises fresh f ht :=
    h.safe t t' turn r rest env premises fresh f ht.1

/-! ## Triples at hand -/

/-- The triples at hand are the first answers.  As long as some are left, they are next, and nothing
else has been answered. -/
def Generator.FactsFirst (s : Sources) (g : Generator) : Prop :=
  s.find g.goal <+: g.results.toList ∨
    ∃ x facts rules, s.find g.goal = g.results.toList ++ x :: facts ∧
      g.stack = [.alternatives (x :: facts) rules]

namespace Generator.FactsFirst

variable {s : Sources} {g g' : Generator}

theorem new (s : Sources) (goal : Triple) (rules : List CheckedRule) :
    (Generator.new goal (s.find goal) rules).FactsFirst s := by
  unfold Generator.FactsFirst
  cases hfacts : s.find goal with
  | nil => exact .inl (by simp [Generator.new, hfacts])
  | cons x facts => exact .inr ⟨x, facts, rules, by simp [Generator.new, hfacts], rfl⟩

theorem congr (h : g.FactsFirst s) (hgoal : g'.goal = g.goal) (hresults : g'.results = g.results)
    (hstack : g'.stack = g.stack) : g'.FactsFirst s := by
  unfold Generator.FactsFirst at h ⊢
  rw [hgoal, hresults, hstack]
  exact h

theorem prefix_results (h : g.FactsFirst s)
    (hstack : ∀ x facts rules, g.stack ≠ [.alternatives (x :: facts) rules]) :
    s.find g.goal <+: g.results.toList :=
  h.resolve_right fun ⟨x, facts, rules, _, heq⟩ => hstack x facts rules heq

theorem prefix_of_isComplete (h : g.FactsFirst s) (hc : g.isComplete) :
    s.find g.goal <+: g.results.toList := by
  apply h.prefix_results
  intro x facts rules heq
  rw [stack_of_isComplete hc] at heq
  cases heq

theorem of_next {x : Triple} {facts : List Triple} {rules : List CheckedRule}
    (hfind : s.find g.goal = g.results.toList ++ x :: facts) (hgoal : g'.goal = g.goal)
    (hresults : g'.results = g.results.push x) (hstack : g'.stack = [.alternatives facts rules]) :
    g'.FactsFirst s := by
  have hfind' : s.find g'.goal = g'.results.toList ++ facts := by
    rw [hgoal, hresults, hfind, Array.toList_push, List.append_assoc, List.singleton_append]
  cases facts with
  | nil =>
      rw [List.append_nil] at hfind'
      exact .inl ⟨[], by rw [List.append_nil, hfind']⟩
  | cons y facts => exact .inr ⟨y, facts, rules, hfind', hstack⟩

theorem prefix_or (h : g.FactsFirst s) :
    g.results.toList <+: s.find g.goal ∨ s.find g.goal <+: g.results.toList := by
  rcases h with h | ⟨x, facts, -, heq, -⟩
  · exact .inr h
  · exact .inl ⟨x :: facts, heq.symm⟩

end Generator.FactsFirst

theorem Takes.fact_or {w : Option Way} (h : Takes t id w t') :
    (∃ x facts rules below, w = some (.fact x) ∧
      (t.generator id).stack = .alternatives (x :: facts) rules :: below ∧
      t' = t.replaceTop id (.alternatives facts rules)) ∨
    ∀ x facts rules below, (t.generator id).stack ≠ .alternatives (x :: facts) rules :: below := by
  cases h with
  | fact hstack => exact .inl ⟨_, _, _, _, rfl, hstack, rfl⟩
  | start hstack | data hstack | read hstack =>
      right
      simp [hstack]

def FactsFirst (ctx : Context) (t : Tables) : Prop :=
  ∀ id < t.size, (t.generator id).FactsFirst ctx.sources

namespace FactsFirst

theorem blank (h : t.Blank) : FactsFirst ctx t := by
  intro id hid
  rw [Tables.size, h.generators, Array.size_empty] at hid
  exact absurd hid (Nat.not_lt_zero id)

theorem congr (h : FactsFirst ctx t) (hsize : t'.size = t.size)
    (hgoal : ∀ id, (t'.generator id).goal = (t.generator id).goal)
    (hresults : ∀ id, (t'.generator id).results = (t.generator id).results)
    (hstack : ∀ id, (t'.generator id).stack = (t.generator id).stack) : FactsFirst ctx t' :=
  fun id hid => (h id (hsize ▸ hid)).congr (hgoal id) (hresults id) (hstack id)

theorem modifySearch (h : FactsFirst ctx t)
    (hall : ctx.sources.find (t.generator id).goal <+: (t.generator id).results.toList)
    (f : Search → Search) : FactsFirst ctx (t.modifySearch id f) := by
  intro j hj
  have hgoal := t.goal_modifySearch id f j
  have hresults := t.results_modifySearch id f j
  rw [t.size_modifySearch] at hj
  by_cases hid : j = id
  · subst hid
    left
    rw [hgoal, hresults]
    exact hall
  · exact (h j hj).congr hgoal hresults (t.stack_modifySearch_of_ne f hid)

theorem settles {S : List GeneratorId} (h : FactsFirst ctx t) (hclosed : Closed t S)
    (hs : Settles S t t') : FactsFirst ctx t' := by
  intro id hid
  rw [hs.size] at hid
  by_cases hc : (t'.generator id).isComplete
  · -- A search that ends has no choices left, so no triple at hand is left either.
    have hstack : (t.generator id).stack = [] := by
      rcases (hs.isComplete id).mp hc with hc | hmem
      · exact Generator.stack_of_isComplete hc
      · exact ((Generator.hasWork_eq_false_iff _).mp (hclosed.idle id hmem)).1
    left
    rw [hs.goal, hs.results]
    apply (h id hid).prefix_results
    intro x facts rules heq
    rw [hstack] at heq
    cases heq
  · rw [Bool.not_eq_true] at hc
    exact (h id hid).congr (hs.goal id) (hs.results id) (hs.stack id hc)

theorem generatorFor (h : FactsFirst ctx t) (goal : Triple) :
    FactsFirst ctx (t.generatorFor ctx goal).2 := by
  rcases t.settles_generatorFor ctx goal with hs | ⟨-, hs⟩
  · exact h.settles (closed_nil t) hs
  · refine settles (fun id hid => ?_) (closed_nil _) hs
    rw [t.generator_addGenerator]
    split
    · exact .new ctx.sources _ _
    · rename_i hne
      rw [t.size_addGenerator] at hid
      exact h id (Nat.lt_of_le_of_ne (Nat.lt_succ_iff.mp hid) hne)

theorem suspend (h : FactsFirst ctx t) (target owner : GeneratorId) (s : Suspension) :
    FactsFirst ctx (t.suspend target owner s) := by
  obtain ⟨f, heq⟩ := t.suspend_eq target owner s
  have hlink : FactsFirst ctx ((t.link target owner s).count f) :=
    h.congr (t.size_link target owner s) (t.goal_link target owner s)
      (t.results_link target owner s) (t.stack_link target owner s)
  rw [heq]
  split
  · refine hlink.congr (Tables.size_modifySearch _ _ _) (Tables.goal_modifySearch _ _ _)
      (Tables.results_modifySearch _ _ _) ?_
    exact Tables.stack_modifySearch _ _ fun _ => rfl
  · exact hlink

theorem pushAnswer (h : FactsFirst ctx t) (hid : id < t.size)
    (hall : ctx.sources.find (t.generator id).goal <+: (t.generator id).results.toList)
    (x : Triple) : FactsFirst ctx (t.pushAnswer id x) := by
  intro j hj
  have hgoal := t.goal_pushAnswer id x j
  have hresults := t.results_pushAnswer hid x j
  rw [Tables.pushAnswer, Tables.size_modifyGenerator] at hj
  by_cases heq : j = id
  · subst heq
    rw [if_pos rfl] at hresults
    left
    rw [hgoal, hresults, Array.toList_push]
    exact hall.trans (List.prefix_append _ _)
  · rw [if_neg heq] at hresults
    exact (h j hj).congr hgoal hresults (t.stack_pushAnswer id x j)

theorem lands {w : Way} (h : FactsFirst ctx t) (hid : id < t.size)
    (hall : ctx.sources.find (t.generator id).goal <+: (t.generator id).results.toList)
    (hl : Lands ctx id w t t') : FactsFirst ctx t' := by
  induction hl with
  | known | barren => exact h
  | new hnew =>
      exact (h.pushAnswer hid hall _).settles (closed_nil _) (Tables.settles_addResult hnew _)
  | answer _ _ _ _ ih => exact ih h hid hall
  | holds _ _ ih => exact ih h hid hall
  | refused => exact h.congr rfl (fun _ => rfl) (fun _ => rfl) fun _ => rfl
  | suspended => exact (h.generatorFor _).suspend _ _ _
  | opened => exact h.modifySearch hall _

theorem land_fact (h : FactsFirst ctx t) (hrecorded : Recorded t)
    (hnodup : (ctx.sources.find (t.generator id).goal).Nodup) {x : Triple} {facts : List Triple}
    {rules : List CheckedRule} {below : List ChoicePoint}
    (hstack : (t.generator id).stack = .alternatives (x :: facts) rules :: below)
    (hl : Lands ctx id (.fact x) (t.replaceTop id (.alternatives facts rules)) t') :
    FactsFirst ctx t' := by
  have ht : Takes t id (some (.fact x))
      (t.replaceTop id (.alternatives facts rules)) := .fact hstack
  have hopen := ht.isComplete
  have hid := Tables.lt_size_of_isComplete_eq_false hopen
  rcases h id hid with hall | ⟨y, ys, rules', hfind, hstack'⟩
  · refine (h.modifySearch hall _).lands (ht.size ▸ hid) ?_ hl
    rw [Tables.goal_modifySearch, Tables.results_modifySearch]
    exact hall
  · rw [hstack] at hstack'
    cases hstack'
    cases hl with
    | known hx =>
        -- A triple is at hand once, so this one has not been answered before.
        rw [t.known_replaceTop, hrecorded.known id hopen] at hx
        rw [hfind, List.nodup_append] at hnodup
        exact absurd rfl (hnodup.2.2 x (Array.mem_toList_iff.mpr hx) x List.mem_cons_self)
    | new hx =>
        refine settles (fun j hj => ?_) (closed_nil _) (Tables.settles_addResult hx _)
        rw [Tables.pushAnswer, Tables.size_modifyGenerator, ht.size] at hj
        have hgoal := (Tables.goal_pushAnswer _ id x j).trans (ht.goal j).symm
        have hresults := Tables.results_pushAnswer _ (ht.size ▸ hid) x j
        have hstack' := Tables.stack_pushAnswer (t.replaceTop id (.alternatives facts rules)) id x j
        by_cases heq : j = id
        · subst heq
          obtain ⟨s, hs⟩ := Generator.exists_search hopen
          rw [Generator.stack_of_some hs] at hstack
          rw [if_pos rfl, ht.results] at hresults
          rw [Tables.replaceTop, Tables.stack_modifySearch_self hs, hstack,
            List.tail_cons] at hstack'
          exact .of_next hfind hgoal hresults hstack'
        · rw [if_neg heq, ht.results] at hresults
          exact (h j hj).congr hgoal hresults (hstack'.trans (t.stack_modifySearch_of_ne _ heq))

theorem takes (h : FactsFirst ctx t) {w : Option Way} (ht : Takes t id w t')
    (hall : ctx.sources.find (t.generator id).goal <+: (t.generator id).results.toList) :
    FactsFirst ctx t' := by
  cases ht with
  | fact | start | data => exact h.modifySearch hall _
  | read => exact h.congr rfl (fun _ => rfl) (fun _ => rfl) fun _ => rfl

theorem work (h : FactsFirst ctx t) (hrecorded : Recorded t)
    (hnodup : ∀ goal, (ctx.sources.find goal).Nodup) (hw : Work ctx t id t') :
    FactsFirst ctx t' := by
  have hall : (t.generator id).isComplete = false →
      (∀ x facts rules below, (t.generator id).stack ≠ .alternatives (x :: facts) rules :: below) →
        ctx.sources.find (t.generator id).goal <+: (t.generator id).results.toList := by
    intro hopen hstack
    apply (h id (Tables.lt_size_of_isComplete_eq_false hopen)).prefix_results
    exact fun x facts rules => hstack x facts rules []
  cases hw with
  | take hstack hready =>
      refine h.modifySearch (hall ?_ ?_) _
      · exact Generator.isComplete_of_ready_ne_nil (by rw [hready]; exact List.cons_ne_nil _ _)
      · simp [hstack]
  | drop hstack hc =>
      refine h.modifySearch (hall ?_ ?_) _
      · exact Generator.isComplete_of_stack_ne_nil (by rw [hstack]; exact List.cons_ne_nil _ _)
      · rcases hc with rfl | ⟨s, rfl⟩ <;> simp [hstack]
  | @retire f below hstack hread =>
      have hretire : FactsFirst ctx (t.retire f) :=
        h.congr rfl (fun _ => rfl) (fun _ => rfl) fun _ => rfl
      refine hretire.modifySearch (hall ?_ ?_) _
      · exact Generator.isComplete_of_stack_ne_nil (by rw [hstack]; exact List.cons_ne_nil _ _)
      · simp [hstack]
  | pass ht =>
      obtain ⟨x, facts, rules, below, hw, -⟩ | htop := ht.fact_or
      · cases hw
      · exact h.takes ht (hall ht.isComplete htop)
  | land ht hl =>
      obtain ⟨x, facts, rules, below, hw, hstack, rfl⟩ | htop := ht.fact_or
      · cases hw
        exact h.land_fact hrecorded (hnodup _) hstack hl
      · have hfirst := hall ht.isComplete htop
        have hid := Tables.lt_size_of_isComplete_eq_false ht.isComplete
        refine (h.takes ht hfirst).lands (ht.size ▸ hid) ?_ hl
        rw [← ht.goal, ht.results]
        exact hfirst

theorem move (h : FactsFirst ctx t) (hlinked : Linked t) (hrecorded : Recorded t)
    (hnodup : ∀ goal, (ctx.sources.find goal).Nodup) {turn turn' : Option Turn}
    (hm : Move ctx t turn t' turn') : FactsFirst ctx t' := by
  rcases hm.settles_or_work hlinked with ⟨S, hclosed, hs⟩ | ⟨id, hw⟩
  · exact h.settles hclosed hs
  · exact h.work hrecorded hnodup hw

end FactsFirst

end TripleRules.Tabling
