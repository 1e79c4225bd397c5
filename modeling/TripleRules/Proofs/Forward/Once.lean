import TripleRules.Proofs.Forward.Assignments
import TripleRules.Proofs.Forward.Minting
import TripleRules.Proofs.Forward.Trials

/-!
# How often rules fire

An assignment of triples to the patterns of a rule may be completed from each of its triples in
turn, since later ones are at hand when the first is tried.  From any one clause it is completed at
most once: a triple is taken from the agenda once, and no triple is found twice for a pattern.  So a
rule fires for an assignment at most as often as the assignment has triples that were asserted or
deduced, and a rule without patterns once.
-/

namespace TripleRules.Forward

/-! ## Visits -/

inductive Visit.Enters (b : RuleBase) (record : Bool) : Visit → Prop where
  | front {n : Nat} {r : CheckedRule} (hr : b.forward[n]? = some r) (hplain : r.rule.isAxiom) :
      Enters b record (.front r n)
  | trigger {n i : Nat} {r : CheckedRule} {p t : Triple} {env : Bindings}
      (hr : b.forward[n]? = some r) (hp : r.body[i]? = some (.pattern p))
      (hmatch : (Bindings.empty r.slots).match? p t = some env) :
      Enters b record ⟨n, some (i, t), ⟨r, env, r.body.eraseIdx i, if record then [t] else []⟩⟩

def Visit.mark (v : Visit) : Nat × Option (Nat × Triple) := (v.ruleIndex, v.entry)

section Visits

variable {b : RuleBase} {record : Bool} {t : Triple} {v : Visit}

theorem enters_of_mem_frontVisits (hv : v ∈ frontVisits b) : v.Enters b record := by
  obtain ⟨⟨r, n⟩, hmem, rfl⟩ := List.mem_map.mp hv
  obtain ⟨hr, hplain⟩ := List.mem_filter.mp hmem
  exact .front (List.mem_zipIdx_iff_getElem?.mp hr) hplain

theorem enters_of_mem_visitsOf (hb : b.Lists) (hv : v ∈ visitsOf b record t) :
    v.Enters b record := by
  obtain ⟨tr, htr, hvisit⟩ := List.mem_filterMap.mp hv
  obtain ⟨env, hmatch, rfl⟩ := Option.map_eq_some_iff.mp hvisit
  obtain ⟨n, r, hr, hof⟩ := RuleBase.mem_allTriggers.mp (hb.of_mem_triggersFor htr)
  obtain ⟨rfl, hp, hrest⟩ := CheckedRule.isOf_of_mem_triggers hof
  rw [hrest, CheckedRule.ruleIndex_of_mem_triggers hof]
  exact .trigger hr hp hmatch

theorem mem_visitsOf (hb : b.Lists) {n i : Nat} {r : CheckedRule} {p : Triple} {env : Bindings}
    (hr : b.forward[n]? = some r) (hp : r.body[i]? = some (.pattern p)) (ht : p.matches? t)
    (hmatch : (Bindings.empty r.slots).match? p t = some env) :
    ⟨n, some (i, t), ⟨r, env, r.body.eraseIdx i, if record then [t] else []⟩⟩ ∈
      visitsOf b record t := by
  have honly := hb.filter_triggersFor hr hp ht
  have hmem : ⟨n, i, r, p, r.body.eraseIdx i⟩ ∈ b.triggersFor t.predicate :=
    List.mem_of_mem_filter (honly ▸ List.mem_singleton_self _)
  refine List.mem_filterMap.mpr ⟨_, hmem, ?_⟩
  rw [Visit.trigger?, hmatch, Option.map_some]

theorem pairwise_frontVisits (b : RuleBase) :
    (frontVisits b).Pairwise fun v w => v.mark ≠ w.mark := by
  refine List.pairwise_map.mpr (((pairwise_snd_zipIdx b.forward).filter _).imp ?_)
  rintro ⟨r, n⟩ ⟨q, m⟩ hne heq
  exact hne (Prod.mk.inj heq).1

theorem pairwise_visitsOf (hb : b.Lists) (record : Bool) (t : Triple) :
    (visitsOf b record t).Pairwise fun v w => v.mark ≠ w.mark := by
  have hplaces : (b.triggersFor t.predicate).Pairwise fun x y => x.place ≠ y.place :=
    List.pairwise_map.mp (Index.Sorts.nodup_get hb b.nodup_allTriggers t.predicate)
  refine List.Pairwise.filterMap _ (fun x y hne v hv w hw heq => hne ?_) hplaces
  obtain ⟨_, -, rfl⟩ := Option.map_eq_some_iff.mp hv
  obtain ⟨_, -, rfl⟩ := Option.map_eq_some_iff.mp hw
  simp only [Visit.mark, Prod.mk.injEq, Option.some.injEq] at heq
  exact Prod.ext heq.1 heq.2.1

/-- No rule is visited twice in front, and no clause twice with the same triple. -/
theorem pairwise_visits (hb : b.Lists) (record : Bool) {taken : List Triple}
    (htaken : taken.Nodup) : (frontVisits b ++ taken.flatMap (visitsOf b record)).Pairwise
      fun v w => v.mark ≠ w.mark := by
  refine List.pairwise_append.mpr ⟨pairwise_frontVisits b, List.pairwise_flatMap.mpr ⟨?_, ?_⟩, ?_⟩
  · exact fun t _ => pairwise_visitsOf hb record t
  · refine htaken.imp fun hne v hv w hw heq => hne ?_
    obtain ⟨i, hi⟩ := entry_of_mem_visitsOf hv
    obtain ⟨j, hj⟩ := entry_of_mem_visitsOf hw
    rw [Visit.mark, Visit.mark, hi, hj] at heq
    simp only [Prod.mk.injEq, Option.some.injEq] at heq
    exact heq.2.2
  · intro v hv w hw heq
    obtain ⟨⟨r, n⟩, -, rfl⟩ := List.mem_map.mp hv
    obtain ⟨t, -, hw⟩ := List.mem_flatMap.mp hw
    obtain ⟨i, hi⟩ := entry_of_mem_visitsOf hw
    rw [Visit.mark, Visit.mark, hi] at heq
    cases (Prod.mk.inj heq).2

end Visits

/-! ## Bodies that are applied -/

/-- A body that has been completed and fired, with the visit in which it was. -/
structure Applied where
  visit : Visit
  firing : Firing

namespace Applied

def assignment (a : Applied) : List (Nat × Triple) := a.firing.rule.assignment a.firing.env

def clause? (a : Applied) : Option Nat := a.visit.entry.map (·.1)

/-- The rule, the clause at which it was entered, and the assignment. -/
def key (a : Applied) : Nat × Option Nat × List (Nat × Triple) :=
  (a.visit.ruleIndex, a.clause?, a.assignment)

/-- A rule of the base has been applied to triples at hand, one of which it was entered with. -/
structure IsOf (a : Applied) (b : RuleBase) (sources : Sources) : Prop where
  rule : b.forward[a.visit.ruleIndex]? = some a.firing.rule
  known : ∀ q ∈ a.assignment, sources.contains q.2
  entry : ∀ q, a.visit.entry = some q → q ∈ a.assignment
  front : a.visit.entry = none → a.firing.rule.rule.isAxiom

end Applied

def Trial.applied (record : Bool) (x : Trial) : List Applied :=
  (x.matching record).firings.map fun f => ⟨x.visit, f⟩

structure Trial.IsSound (x : Trial) (b : RuleBase) (record : Bool) : Prop where
  enters : x.visit.Enters b record
  built : x.sources.Built
  at_hand : ∀ i t, x.visit.entry = some (i, t) → x.sources.contains t

theorem pattern_eraseIdx {body : List Premise} {i : Nat} {p q : Triple}
    (hp : body[i]? = some (.pattern p)) (hq : .pattern q ∈ body) :
    q = p ∨ .pattern q ∈ body.eraseIdx i := by
  rcases List.mem_cons.mp ((perm_cons_eraseIdx hp).mem_iff.mpr hq) with heq | hq
  · rw [Premise.pattern.injEq] at heq
    exact .inl heq
  · exact .inr hq

namespace Trial.IsSound

variable {b : RuleBase} {record : Bool} {x y : Trial}

/-- What is completed in a trial are instances of the rule, no two with the same assignment. -/
theorem finds (h : x.IsSound b record) : Matching.Finds
    (fun f => (Applied.mk x.visit f).IsOf b x.sources) (fun f => f.rule.assignment f.env)
      (.start x.fresh) (x.matching record) := by
  obtain ⟨v, sources, fresh⟩ := x
  have hfinds : Matching.Finds (·.Fits sources v.cursor.rule v.cursor.rest v.cursor.env)
      (fun f => (patternsOf v.cursor.rest).map f.env.instantiate) (.start fresh)
      (Trial.matching record ⟨v, sources, fresh⟩) := complete_finds h.built _ _
  have hrest : ∀ q ∈ patternsOf v.cursor.rest, .pattern q ∈ v.cursor.rule.body := by
    intro q hq
    have hmem : .pattern q ∈ v.cursor.rest := mem_patternsOf.mp hq
    cases h.enters with
    | front => exact hmem
    | trigger => exact List.mem_of_mem_eraseIdx hmem
  refine (hfinds.refine fun f g hf hg hkey => List.map_congr_left fun q hq => ?_).imp fun f hf => ?_
  · rw [hf.rule, hg.rule] at hkey
    exact CheckedRule.instantiate_eq_of_assignment_eq hkey (hrest q hq)
  · obtain ⟨hrule, hkeeps, hknown⟩ := hf
    cases h.enters with
    | @front n r hr hplain =>
        obtain rfl : f.rule = r := hrule
        refine ⟨hr, fun q hq => ?_, fun _ hq => (by cases hq), fun _ => hplain⟩
        obtain ⟨p, hp, hinst⟩ := CheckedRule.mem_assignment.mp hq
        rw [← hinst]
        exact hknown p (List.mem_of_getElem? hp)
    | @trigger n i r p t env hr hp hmatch =>
        obtain rfl : f.rule = r := hrule
        obtain ⟨-, hinst, hground⟩ := Bindings.match?_some hmatch
        have hentry : f.env.instantiate p = t := by
          rw [hkeeps.instantiate_eq (hinst ▸ hground), hinst]
        refine ⟨hr, fun q hq => ?_, fun q hq => ?_, fun hnone => by cases hnone⟩
        · obtain ⟨p', hp', hinst'⟩ := CheckedRule.mem_assignment.mp hq
          rw [← hinst']
          rcases pattern_eraseIdx hp (List.mem_of_getElem? hp') with rfl | hmem
          · rw [hentry]
            exact h.at_hand i t rfl
          · exact hknown p' hmem
        · cases hq
          exact CheckedRule.mem_assignment.mpr ⟨p, hp, hentry⟩

theorem isOf (h : x.IsSound b record) {a : Applied} (ha : a ∈ x.applied record) :
    a.IsOf b x.sources ∧ a.visit = x.visit := by
  obtain ⟨fs, hfirings, hall, -⟩ := h.finds
  obtain ⟨f, hf, rfl⟩ := List.mem_map.mp ha
  rw [hfirings] at hf
  exact ⟨hall f hf, rfl⟩

theorem nodup_key (h : x.IsSound b record) : ((x.applied record).map Applied.key).Nodup := by
  obtain ⟨fs, hfirings, -, hnodup⟩ := h.finds
  have hall : (x.matching record).firings = fs := hfirings
  refine .of_map (·.2.2) ?_
  rw [applied, List.map_map, List.map_map, hall]
  exact hnodup

theorem key_ne (hx : x.IsSound b record) (hy : y.IsSound b record)
    (hne : x.visit.mark ≠ y.visit.mark) {a a' : Applied} (ha : a ∈ x.applied record)
    (ha' : a' ∈ y.applied record) : a.key ≠ a'.key := by
  intro heq
  obtain ⟨hof, hvisit⟩ := hx.isOf ha
  obtain ⟨hof', hvisit'⟩ := hy.isOf ha'
  simp only [Applied.key, Prod.mk.injEq] at heq
  obtain ⟨hrule, hclause, hassignment⟩ := heq
  refine hne (Prod.ext (by rw [← hvisit, ← hvisit']; exact hrule) ?_)
  rw [← hvisit, ← hvisit']
  have hentry := hof.entry
  have hentry' := hof'.entry
  rw [Applied.clause?, Applied.clause?] at hclause
  cases hq : a.visit.entry with
  | none =>
      rw [hq, Option.map_none, eq_comm, Option.map_eq_none_iff] at hclause
      simp only [Visit.mark, hq, hclause]
  | some q =>
      rw [hq, Option.map_some, eq_comm, Option.map_eq_some_iff] at hclause
      obtain ⟨q', hq', hplace⟩ := hclause
      obtain ⟨i, t⟩ := q
      obtain ⟨j, u⟩ := q'
      obtain rfl : j = i := hplace
      have hmem := hentry _ hq
      have hmem' := hentry' _ hq'
      rw [← hassignment] at hmem'
      obtain ⟨p, hp, hinst⟩ := CheckedRule.mem_assignment.mp hmem
      obtain ⟨p', hp', hinst'⟩ := CheckedRule.mem_assignment.mp hmem'
      obtain rfl : p = p' := by
        rw [hp] at hp'
        simpa using hp'
      simp only [Visit.mark, hq, hq', ← hinst, ← hinst']

/-- A call that mints nodes mints one for each way to pass the clauses before it that leaves its
argument open; and if nothing stands behind it, one for each body that is completed. -/
theorem mints (h : x.IsSound b record) (hb : b.Built) {before rest : List Premise} {a : Term}
    (hcursor : x.visit.cursor.rest = before ++ .call .makeTemp [a] :: rest)
    (hbefore : FunctionalCalls before) (hrest : FunctionalCalls rest) :
    (x.matching record).fresh = x.fresh + (solutions x.sources x.visit.cursor.rule before
        x.visit.cursor.env).countP (fun env => (env.resolve a).isVar) ∧
      (rest = [] → GroundCalls before →
        (x.matching record).fresh = x.fresh + (x.matching record).firings.length) := by
  obtain ⟨v, sources, fresh⟩ := x
  dsimp only at hcursor
  rw [Trial.matching]
  dsimp only
  rw [hcursor]
  refine ⟨fresh_complete_makeTemp hbefore hrest rfl, ?_⟩
  rintro rfl hgrounds
  have hentered : v.cursor.env.Values (·.isGround) ∧ v.cursor.env.size = v.cursor.rule.slots ∧
      v.cursor.rule.IsChecked ∧ .call .makeTemp [a] ∈ v.cursor.rule.body := by
    have hcall : .call .makeTemp [a] ∈ v.cursor.rest :=
      hcursor ▸ List.mem_append_right _ (List.mem_singleton_self _)
    cases h.enters with
    | front hr =>
        exact ⟨Bindings.values_empty _ _, Bindings.size_empty _,
          hb.consistent.forward _ (List.mem_of_getElem? hr), hcall⟩
    | trigger hr hp hmatch =>
        have hext := (Bindings.match?_some hmatch).1
        exact ⟨hext.values (Bindings.values_empty _ _),
          hext.size_eq.trans (Bindings.size_empty _),
          hb.consistent.forward _ (List.mem_of_getElem? hr), List.mem_of_mem_eraseIdx hcall⟩
  obtain ⟨hvalues, hsize, hchecked, hbody⟩ := hentered
  have hslots : ∀ w ∈ a.occurrences, w.slot < v.cursor.env.size := fun w hw => by
    rw [hsize]
    exact hchecked.slot_lt (CheckedRule.mem_vars_iff.mpr
      ⟨_, hbody, List.mem_flatMap.mpr ⟨a, List.mem_singleton_self a, hw⟩⟩)
  exact fresh_eq_length_makeTemp h.built hbefore hgrounds hvalues hslots fresh

end Trial.IsSound

/-! ## Sequences of trials -/

def applied (record : Bool) (xs : List Trial) : List Applied := xs.flatMap (Trial.applied record)

theorem map_firing_applied (record : Bool) (xs : List Trial) :
    (applied record xs).map Applied.firing =
      xs.flatMap fun x => (x.matching record).firings := by
  rw [applied, List.map_flatMap]
  simp [Trial.applied, Function.comp_def]

section Sequences

variable {b : RuleBase} {record : Bool} {xs : List Trial} {taken : List Triple}

theorem nodup_keys (hsound : ∀ x ∈ xs, x.IsSound b record)
    (hmarks : xs.Pairwise fun x y => x.visit.mark ≠ y.visit.mark) :
    ((applied record xs).map Applied.key).Nodup := by
  refine List.pairwise_map.mpr (List.pairwise_flatMap.mpr ⟨fun x hx => ?_, ?_⟩)
  · exact List.pairwise_map.mp (hsound x hx).nodup_key
  · exact hmarks.imp_of_mem fun hx hy hne _ ha _ ha' =>
      (hsound _ hx).key_ne (hsound _ hy) hne ha ha'

/-- Among the bodies for one assignment, the clauses of entry tell them apart. -/
theorem nodup_clauses {as : List Applied} (hkeys : (as.map Applied.key).Nodup) (n : Nat)
    (ts : List (Nat × Triple)) :
    ((as.filter fun a => a.visit.ruleIndex = n ∧ a.assignment = ts).map Applied.clause?).Nodup := by
  have hsame : (as.filter fun a => a.visit.ruleIndex = n ∧ a.assignment = ts).map Applied.key =
      ((as.filter fun a => a.visit.ruleIndex = n ∧ a.assignment = ts).map Applied.clause?).map
        fun c => (n, c, ts) := by
    rw [List.map_map]
    refine List.map_congr_left fun a ha => ?_
    rw [List.mem_filter, decide_eq_true_eq] at ha
    rw [Applied.key, ha.2.1, ha.2.2]
    rfl
  refine .of_map (fun c => (n, c, ts)) ?_
  rw [← hsame]
  exact hkeys.sublist (List.filter_sublist.map _)

/-- A rule is applied to an assignment at most as often as there are triples of it with which the
rule may be entered. -/
theorem length_filter_assignment_le {as : List Applied} (hkeys : (as.map Applied.key).Nodup)
    {sources : Sources} (hof : ∀ a ∈ as, a.IsOf b sources)
    (htaken : ∀ a ∈ as, ∀ q, a.visit.entry = some q → q.2 ∈ taken) {n : Nat} {r : CheckedRule}
    (hr : b.forward[n]? = some r) (hchecked : r.IsChecked) (ts : List (Nat × Triple)) :
    (as.filter fun a => a.visit.ruleIndex = n ∧ a.assignment = ts).length ≤
      if r.rule.isAxiom then 1 else ts.countP (·.2 ∈ taken) := by
  have hmem : ∀ a ∈ as.filter (fun a => a.visit.ruleIndex = n ∧ a.assignment = ts),
      a ∈ as ∧ a.visit.ruleIndex = n ∧ a.assignment = ts := fun a ha => by
    rw [List.mem_filter, decide_eq_true_eq] at ha
    exact ha
  have hrule : ∀ a ∈ as.filter (fun a => a.visit.ruleIndex = n ∧ a.assignment = ts),
      a.firing.rule = r := fun a ha => by
    have hget := (hof a (hmem a ha).1).rule
    rw [(hmem a ha).2.1, hr] at hget
    exact (Option.some.inj hget).symm
  have hclauses := nodup_clauses hkeys n ts
  rw [← List.length_map (f := Applied.clause?)]
  split
  · rename_i hplain
    suffices hfront : (as.filter fun a => a.visit.ruleIndex = n ∧ a.assignment = ts).map
        Applied.clause? ⊆ [none] from (List.subperm_of_subset hclauses hfront).length_le
    intro c hc
    obtain ⟨a, ha, rfl⟩ := List.mem_map.mp hc
    rw [List.mem_singleton, Applied.clause?, Option.map_eq_none_iff]
    by_contra hsome
    obtain ⟨⟨i, t⟩, hentry⟩ := Option.ne_none_iff_exists'.mp hsome
    obtain ⟨p, hp, -⟩ := CheckedRule.mem_assignment.mp ((hof a (hmem a ha).1).entry _ hentry)
    rw [hrule a ha] at hp
    exact hchecked.isAxiom_iff.mp hplain p (List.mem_of_getElem? hp)
  · rename_i hpatterns
    rw [List.countP_eq_length_filter, ← List.length_map (f := fun q : Nat × Triple => some q.1)]
    refine (List.subperm_of_subset hclauses fun c hc => ?_).length_le
    obtain ⟨a, ha, rfl⟩ := List.mem_map.mp hc
    obtain ⟨ha', -, hts⟩ := hmem a ha
    cases hentry : a.visit.entry with
    | none => exact absurd (hrule a ha ▸ (hof a ha').front hentry) hpatterns
    | some q =>
        have hq : q ∈ ts := hts ▸ (hof a ha').entry q hentry
        rw [Applied.clause?, hentry]
        exact List.mem_map.mpr ⟨q, List.mem_filter.mpr
          ⟨hq, decide_eq_true (htaken a ha' q hentry)⟩, rfl⟩

end Sequences

/-! ## First passes -/

theorem exists_last {α : Type} {P : α → Prop} {l : List α} (h : ∃ x ∈ l, P x) :
    ∃ earlier x later, l = earlier ++ x :: later ∧ P x ∧ ∀ y ∈ later, ¬ P y := by
  induction l with
  | nil => simp at h
  | cons x l ih =>
      by_cases hlater : ∃ y ∈ l, P y
      · obtain ⟨earlier, y, later, rfl, hy⟩ := ih hlater
        exact ⟨x :: earlier, y, later, rfl, hy⟩
      · have hx : P x := by
          obtain ⟨y, hy, hP⟩ := h
          rcases List.mem_cons.mp hy with rfl | hy
          · exact hP
          · exact absurd ⟨y, hy, hP⟩ hlater
        exact ⟨[], x, l, rfl, hx, fun y hy hP => hlater ⟨y, hy, hP⟩⟩

namespace Engine.FirstPass

variable {d : Data} {e e' : Engine} {start fresh : Nat} {taken : List Triple} {xs : List Trial}

theorem isSound (h : FirstPass d e start taken xs e' fresh) (hb : e.base.Built)
    (hs : (e.sources d).Built) : ∀ x ∈ xs, x.IsSound e.base e.record := by
  intro x hx
  refine ⟨?_, h.tries.built hs x hx, h.at_hand x hx⟩
  have hvisit : x.visit ∈ frontVisits e.base ++ taken.flatMap (visitsOf e.base e.record) :=
    h.visits ▸ List.mem_map_of_mem hx
  rcases List.mem_append.mp hvisit with hvisit | hvisit
  · exact enters_of_mem_frontVisits hvisit
  · obtain ⟨t, -, hvisit⟩ := List.mem_flatMap.mp hvisit
    exact enters_of_mem_visitsOf hb.lists hvisit

theorem pairwise_mark (h : FirstPass d e start taken xs e' fresh) (hb : e.base.Built)
    (htaken : taken.Nodup) : xs.Pairwise fun x y => x.visit.mark ≠ y.visit.mark := by
  have hvisits := pairwise_visits hb.lists e.record htaken
  rw [← h.visits] at hvisits
  exact (List.pairwise_map (f := Trial.visit)).mp hvisits

theorem mem_taken (h : FirstPass d e start taken xs e' fresh) :
    ∀ a ∈ applied e.record xs, ∀ q, a.visit.entry = some q → q.2 ∈ taken := by
  intro a ha q hq
  obtain ⟨x, hx, ha⟩ := List.mem_flatMap.mp ha
  obtain ⟨f, -, rfl⟩ := List.mem_map.mp ha
  have hvisit : x.visit ∈ frontVisits e.base ++ taken.flatMap (visitsOf e.base e.record) :=
    h.visits ▸ List.mem_map_of_mem hx
  rcases List.mem_append.mp hvisit with hvisit | hvisit
  · obtain ⟨⟨r, n⟩, -, hfront⟩ := List.mem_map.mp hvisit
    rw [← hfront] at hq
    cases hq
  · obtain ⟨t, ht, hvisit⟩ := List.mem_flatMap.mp hvisit
    obtain ⟨i, hi⟩ := entry_of_mem_visitsOf hvisit
    obtain rfl : (i, t) = q := Option.some.inj (hi.symm.trans hq)
    exact ht

theorem isOf (h : FirstPass d e start taken xs e' fresh) (hb : e.base.Built)
    (hs : (e.sources d).Built) :
    ∀ a ∈ applied e.record xs, a.IsOf e.base (e'.sources d) := by
  intro a ha
  obtain ⟨x, hx, ha⟩ := List.mem_flatMap.mp ha
  obtain ⟨hof, -⟩ := (h.isSound hb hs x hx).isOf ha
  exact ⟨hof.rule, fun q hq => (h.tries.known x hx q.2).2 (hof.known q hq), hof.entry, hof.front⟩

theorem firings_eq (h : FirstPass d e start taken xs e' fresh) :
    e'.stats.firings = e.stats.firings + (applied e.record xs).length := by
  have hwork := congrArg (·.stats.firings) h.tries.work
  have hfires := fires_fireEach e d (xs.flatMap fun x => (x.matching e.record).firings)
  rw [← map_firing_applied, List.length_map] at hfires
  rw [← map_firing_applied] at hwork
  exact hwork.trans hfires.firings

theorem exists_applied (h : FirstPass d e start taken xs e' fresh) (hb : e.base.Built)
    (hs : (e.sources d).Built) (hs' : (e'.sources d).Built)
    (hsplit : ∀ t, (e'.sources d).contains t → t ∈ taken ∨ (e.sources d).contains t)
    {n : Nat} {r : CheckedRule} (hr : e.base.forward[n]? = some r) (htests : r.OnlyTests)
    (hguard : ∀ i, r.GuardedAt i) {env : Bindings}
    (henv : env ∈ plain (e'.sources d) r e.record start r.body)
    (hsome : ∃ q ∈ r.assignment env, q.2 ∈ taken) :
    ∃ a ∈ applied e.record xs, a.visit.ruleIndex = n ∧ a.firing.env = env := by
  have hchecked : r.IsChecked := hb.consistent.forward r (List.mem_of_getElem? hr)
  have hbody : ∀ c ∈ r.body, c ∈ r.body := fun _ hc => hc
  have hcalls : GroundCalls r.body := groundCalls_of_subset htests hbody
  have hcarries := (mem_plain_iff hs' htests e.record start hbody env).mp henv
  obtain ⟨earlier, t, later, htaken, ⟨i, hq⟩, hlast⟩ :=
    exists_last (P := fun t => ∃ i, (i, t) ∈ r.assignment env)
      (have ⟨q, hq, ht⟩ := hsome; ⟨q.2, ht, q.1, hq⟩)
  obtain ⟨p, hp, hinst⟩ := CheckedRule.mem_assignment.mp hq
  have htrigger := CheckedRule.isOf_of_mem_triggers (CheckedRule.mem_triggers n hp)
  have hat_hand : (e'.sources d).contains t :=
    hinst ▸ hcarries.known hcalls p (List.mem_of_getElem? hp)
  -- The triple matches its clause, and the clause is visited.
  obtain ⟨begun, hbegun, -⟩ : env ∈ triggered (e'.sources d) e.record start t _ := by
    rw [triggered_eq_plain hchecked hs' htests hat_hand e.record start htrigger (hguard i)]
    exact ⟨henv, hinst⟩
  obtain ⟨x, hx, hvisit, hbefore⟩ := h.before earlier t later htaken _
    (mem_visitsOf hb.lists hr hp ((Triple.matches?_iff p t).mpr ⟨_, hinst⟩) hbegun)
  -- By then the other triples are known, since those that have been taken were so before.
  have hknown : ∀ p', .pattern p' ∈ r.body → x.sources.contains (env.instantiate p') := by
    intro p' hp'
    rcases hsplit _ (hcarries.known hcalls p' hp') with htake | hold
    · obtain ⟨j, hj⟩ := List.mem_iff_getElem?.mp hp'
      refine hbefore _ ?_
      rw [htaken, List.append_cons] at htake
      refine (List.mem_append.mp htake).resolve_right fun hlater => hlast _ hlater ⟨j, ?_⟩
      exact CheckedRule.mem_assignment.mpr ⟨p', hj, rfl⟩
    · exact (h.tries.known x hx _).1 hold
  have hbuilt : x.sources.Built := h.tries.built hs x hx
  have hfound : env ∈ triggered x.sources e.record x.fresh t
      ⟨n, i, r, p, r.body.eraseIdx i⟩ := by
    rw [triggered_eq_plain hchecked hbuilt htests (hinst ▸ hknown p (List.mem_of_getElem? hp))
      e.record x.fresh htrigger (hguard i)]
    exact ⟨(mem_plain_iff hbuilt htests e.record x.fresh hbody env).mpr
      (hcarries.of_known hcalls hknown), hinst⟩
  obtain ⟨begun', hbegun', hcompleted⟩ := hfound
  obtain rfl : begun = begun' := Option.some.inj (hbegun.symm.trans hbegun')
  obtain ⟨f, hf, rfl⟩ := List.mem_map.mp hcompleted
  refine ⟨⟨x.visit, f⟩, List.mem_flatMap.mpr ⟨x, hx, List.mem_map.mpr ⟨f, ?_, rfl⟩⟩, ?_, rfl⟩
  · rw [Trial.matching, hvisit]
    exact hf
  · rw [hvisit]

end Engine.FirstPass

/-- How often rules are applied in trials, when these triples have been taken from the agenda and
all that is known in the end lies in the sources. -/
structure OncePerClause (b : RuleBase) (record : Bool) (sources : Sources) (taken : List Triple)
    (xs : List Trial) : Prop where
  /-- No rule is applied twice to one assignment from one clause. -/
  once : ((applied record xs).map Applied.key).Nodup
  /-- Rules are applied to what is known in the end, and entered with a triple that was taken. -/
  genuine : ∀ a ∈ applied record xs, a.IsOf b sources ∧
    ∀ q, a.visit.entry = some q → q.2 ∈ taken
  /-- A rule is applied to an assignment at most as often as triples of it were taken, and a rule
  without patterns at most once. -/
  atMost : ∀ n r, b.forward[n]? = some r → ∀ ts : List (Nat × Triple),
    ((applied record xs).filter fun a => a.visit.ruleIndex = n ∧ a.assignment = ts).length ≤
      if r.rule.isAxiom then 1 else ts.countP (·.2 ∈ taken)
  /-- A rule whose calls are tests, none of which minds the order, is applied to every match of its
  body that has a triple that was taken. -/
  atLeast : ∀ n r, b.forward[n]? = some r → r.OnlyTests → (∀ i, r.GuardedAt i) →
    ∀ fresh, ∀ env ∈ plain sources r record fresh r.body,
      (∃ q ∈ r.assignment env, q.2 ∈ taken) →
        ∃ a ∈ applied record xs, a.visit.ruleIndex = n ∧ a.firing.env = env
  /-- A rule that calls the minting builtin once, and besides it functions only, mints a node for
  each way to pass the clauses before the call that leaves its argument open.  If the call is the
  last clause, these are the bodies that are completed. -/
  mints : ∀ x ∈ xs, ∀ before rest a,
    x.visit.cursor.rest = before ++ .call .makeTemp [a] :: rest → FunctionalCalls before →
      FunctionalCalls rest →
        (x.matching record).fresh = x.fresh + (solutions x.sources x.visit.cursor.rule before
          x.visit.cursor.env).countP (fun env => (env.resolve a).isVar) ∧
        (rest = [] → GroundCalls before →
          (x.matching record).fresh = x.fresh + (x.matching record).firings.length)

namespace Engine

variable {b : RuleBase} {d : Data} {start : Nat} {taken : List Triple} {xs : List Trial}
  {o : Outcome}

theorem nodup_of_perm {settings : ReasoningSettings} {installed : RuleSet} {e' : Engine}
    {fresh : Nat} (hraw : d.raw.Built)
    (h : Tries d (.new b settings installed) start xs e' fresh)
    (htaken : taken.Perm (d.raw.triples ++ e'.deductions.triples)) : taken.Nodup := by
  obtain ⟨ts, hdeduces⟩ := h.deduces
  have hall : e'.deductions.triples = ts := hdeduces.deductions
  rw [htaken.nodup_iff, hall]
  refine hraw.consistent.nodup.append hdeduces.nodup fun t ht hts => hdeduces.apart t hts ?_
  exact (Sources.contains_iff _ t).mpr (.inl ht)

/-- In a first pass that does not meet the limit, no rule fires twice for an assignment of triples
to its patterns from one clause.  Every asserted and every deduced triple is taken from the agenda
once, so a rule fires for an assignment at most as often as it has such triples; and what is counted
are the pairs of an assignment that is completed and a clause from which it is. -/
theorem fires_once_per_clause (hb : b.Built) (hcalls : b.NeverFatal) (hraw : d.raw.Built)
    (hschema : d.schema.Built) (settings : ReasoningSettings) (installed : RuleSet) {fuel : Nat}
    (ho : (Engine.new b settings installed).run fuel d start = some o)
    (hroom : o.engine.stats.thresholdExceeded = false) :
    o.fault = none ∧ ∃ taken xs,
      FirstPass d (.new b settings installed) start taken xs o.engine o.fresh ∧
      taken.Perm (d.raw.triples ++ o.engine.deductions.triples) ∧ taken.Nodup ∧
      o.engine.stats.firings = (applied settings.derivationLogging xs).length ∧
      OncePerClause b settings.derivationLogging (o.engine.sources d) taken xs := by
  have hs : ((Engine.new b settings installed).sources d).Built := ⟨hraw, hschema, .empty⟩
  obtain ⟨hfault, taken, xs, hpass, htaken⟩ :=
    firstPass_run (e := .new b settings installed) hb hcalls rfl rfl ho hroom
  have hnodup : taken.Nodup := nodup_of_perm hraw hpass.tries htaken
  have hsound := hpass.isSound hb hs
  have hs' : (o.engine.sources d).Built :=
    ⟨hraw, hschema, hpass.tries.chained.deductions_built .empty⟩
  have hsplit : ∀ t, (o.engine.sources d).contains t →
      t ∈ taken ∨ ((Engine.new b settings installed).sources d).contains t := by
    intro t ht
    rcases (Sources.contains_iff _ t).mp ht with hin | hin | hin
    · exact .inl (htaken.mem_iff.mpr (List.mem_append_left _ hin))
    · exact .inr ((Sources.contains_iff _ t).mpr (.inr (.inl hin)))
    · exact .inl (htaken.mem_iff.mpr (List.mem_append_right _ hin))
  have honce := nodup_keys hsound (hpass.pairwise_mark hb hnodup)
  have hof := hpass.isOf hb hs
  refine ⟨hfault, taken, xs, hpass, htaken, hnodup, ?_, honce, ?_, ?_, ?_, ?_⟩
  · exact hpass.firings_eq.trans (Nat.zero_add _)
  · exact fun a ha => ⟨hof a ha, hpass.mem_taken a ha⟩
  · exact fun n r hr => length_filter_assignment_le honce hof hpass.mem_taken hr
      (hb.consistent.forward r (List.mem_of_getElem? hr))
  · intro n r hr htests hguard fresh env henv
    have hsame : env ∈ plain (o.engine.sources d) r settings.derivationLogging start r.body := by
      rw [mem_plain_iff hs' htests _ _ fun _ hc => hc] at henv ⊢
      exact henv
    exact hpass.exists_applied hb hs hs' hsplit hr htests hguard hsame
  · exact fun x hx before rest a hcursor hbefore hrest =>
      (hsound x hx).mints hb hcursor hbefore hrest

/-! ## Instances -/

def kinshipRule : Rule :=
  .make
    [.pattern ⟨.named "x", .iri "parent", .named "y"⟩,
      .pattern ⟨.named "y", .iri "parent", .named "z"⟩, .call "makeTemp" [.named "t"]]
    [.pattern ⟨.named "x", .iri "kinship", .named "t"⟩] .forward

def kinship : CheckedRule :=
  ⟨kinshipRule,
    [.pattern ⟨.var ⟨"x", 0⟩, .iri "parent", .var ⟨"y", 1⟩⟩,
      .pattern ⟨.var ⟨"y", 1⟩, .iri "parent", .var ⟨"z", 2⟩⟩,
      .call .makeTemp [.var ⟨"t", 3⟩]]⟩

theorem check_kinshipRule : kinshipRule.check .standard = .ok kinship := by rfl

def kinshipBase : RuleBase := (RuleBase.empty .standard).add kinship

theorem built_kinshipBase : kinshipBase.Built :=
  .add (.empty .standard) ⟨_, _, _, none, rfl⟩ check_kinshipRule

theorem neverFatal_kinshipBase : kinshipBase.NeverFatal := by
  intro r hr f args hcall
  have hforward : kinshipBase.forward = [kinship] := rfl
  obtain rfl : r = kinship := List.mem_singleton.mp (hforward ▸ hr)
  obtain rfl : f = .makeTemp := by simp_all [kinship]
  exact Builtin.neverFatal_makeTemp

def lineage : Data where
  raw := .ofList [⟨.iri "ann", .iri "parent", .iri "bob"⟩, ⟨.iri "bob", .iri "parent", .iri "cid"⟩]
  schema := .empty

theorem run_lineage : ∃ o, (Engine.new kinshipBase {} .empty).run 10 lineage 0 = some o ∧
    o.engine.stats.thresholdExceeded = false ∧ o.engine.stats.firings = 2 ∧ o.fresh = 2 ∧
      o.engine.deductions.triples = [⟨.iri "ann", .iri "kinship", .blank (.fresh 0)⟩,
        ⟨.iri "ann", .iri "kinship", .blank (.fresh 1)⟩] ∧
      (complete (o.engine.sources lineage) kinship false kinship.body (.empty 4) []
        (.start 0)).firings.length = 1 := by
  have hrun : ((Engine.new kinshipBase {} .empty).run 10 lineage 0).any fun o =>
      o.engine.stats.thresholdExceeded = false ∧ o.engine.stats.firings = 2 ∧ o.fresh = 2 ∧
        o.engine.deductions.triples = [⟨.iri "ann", .iri "kinship", .blank (.fresh 0)⟩,
          ⟨.iri "ann", .iri "kinship", .blank (.fresh 1)⟩] ∧
        (complete (o.engine.sources lineage) kinship false kinship.body (.empty 4) []
          (.start 0)).firings.length = 1 := by
    decide +kernel
  rw [Option.any_eq_true] at hrun
  obtain ⟨o, ho, hstats⟩ := hrun
  exact ⟨o, ho, of_decide_eq_true hstats⟩

theorem built_lineage : lineage.raw.Built := Store.built_ofList (by decide)

/-- The rule fires twice, once from each clause. -/
theorem kinship_fires_once_per_clause :
    ∃ o, (Engine.new kinshipBase {} .empty).run 10 lineage 0 = some o ∧
      o.engine.stats.firings = 2 ∧ ∃ taken xs,
        FirstPass lineage (.new kinshipBase {} .empty) 0 taken xs o.engine o.fresh ∧
        (applied false xs).length = 2 ∧
        OncePerClause kinshipBase false (o.engine.sources lineage) taken xs := by
  obtain ⟨o, ho, hroom, hfirings, -⟩ := run_lineage
  obtain ⟨-, taken, xs, hpass, -, -, hcount, honce⟩ :=
    fires_once_per_clause built_kinshipBase neverFatal_kinshipBase built_lineage .empty {} .empty
      ho hroom
  exact ⟨o, ho, hfirings, taken, xs, hpass, hcount.symm.trans hfirings, honce⟩

theorem assignment_kinship {o : Outcome} (hdeductions : o.engine.deductions.triples =
      [⟨.iri "ann", .iri "kinship", .blank (.fresh 0)⟩,
        ⟨.iri "ann", .iri "kinship", .blank (.fresh 1)⟩])
    {a : Applied} (ha : a.IsOf kinshipBase (o.engine.sources lineage)) :
    a.visit.ruleIndex = 0 ∧ a.assignment =
      [(0, ⟨.iri "ann", .iri "parent", .iri "bob"⟩), (1, ⟨.iri "bob", .iri "parent", .iri "cid"⟩)] := by
  have hforward : kinshipBase.forward = [kinship] := rfl
  have hrule := ha.rule
  rw [hforward, List.getElem?_singleton] at hrule
  split at hrule
  · rename_i hzero
    have hassignment : a.assignment =
        [(0, a.firing.env.instantiate ⟨.var ⟨"x", 0⟩, .iri "parent", .var ⟨"y", 1⟩⟩),
          (1, a.firing.env.instantiate ⟨.var ⟨"y", 1⟩, .iri "parent", .var ⟨"z", 2⟩⟩)] := by
      rw [Applied.assignment, ← Option.some.inj hrule]
      rfl
    have hknown : ∀ t, (o.engine.sources lineage).contains t ↔
        t = ⟨.iri "ann", .iri "parent", .iri "bob"⟩ ∨ t = ⟨.iri "bob", .iri "parent", .iri "cid"⟩ ∨
          t = ⟨.iri "ann", .iri "kinship", .blank (.fresh 0)⟩ ∨
            t = ⟨.iri "ann", .iri "kinship", .blank (.fresh 1)⟩ := by
      have hraw : lineage.raw.triples = [⟨.iri "ann", .iri "parent", .iri "bob"⟩,
        ⟨.iri "bob", .iri "parent", .iri "cid"⟩] := by decide +kernel
      have hschema : lineage.schema.triples = [] := rfl
      intro t
      simp [Sources.contains_iff, sources, hraw, hschema, hdeductions, or_assoc]
    have hfirst := (hknown _).mp (ha.known _ (hassignment ▸ List.mem_cons_self))
    have hsecond := (hknown _).mp
      (ha.known _ (hassignment ▸ List.mem_cons_of_mem _ List.mem_cons_self))
    have hparent : a.firing.env.resolve (.iri "parent") = .iri "parent" := rfl
    simp only [Bindings.instantiate, hparent, Triple.mk.injEq] at hassignment hfirst hsecond
    exact ⟨hzero, by grind⟩
  · cases hrule

/-- Two asserted triples match a body in one way, and the rule fires for each of them. -/
theorem kinship_fires_twice :
    ¬ ∀ (b : RuleBase) (d : Data) (fuel start : Nat) (o : Outcome), b.Built → b.NeverFatal →
      d.raw.Built → d.schema.Built → (Engine.new b {} .empty).run fuel d start = some o →
        o.engine.stats.thresholdExceeded = false → ∀ taken xs,
          FirstPass d (.new b {} .empty) start taken xs o.engine o.fresh → ∀ n ts,
            ((applied false xs).filter fun a =>
              a.visit.ruleIndex = n ∧ a.assignment = ts).length ≤ 1 := by
  intro hclaim
  obtain ⟨o, ho, hroom, hfirings, -, hdeductions, -⟩ := run_lineage
  obtain ⟨-, taken, xs, hpass, -⟩ := firstPass_run (e := .new kinshipBase {} .empty)
    built_kinshipBase neverFatal_kinshipBase rfl rfl ho hroom
  have hatMost := hclaim kinshipBase lineage 10 0 o built_kinshipBase neverFatal_kinshipBase
    built_lineage .empty ho hroom taken xs hpass 0
    [(0, ⟨.iri "ann", .iri "parent", .iri "bob"⟩), (1, ⟨.iri "bob", .iri "parent", .iri "cid"⟩)]
  have hof : ∀ a ∈ applied false xs, a.IsOf kinshipBase (o.engine.sources lineage) :=
    hpass.isOf built_kinshipBase ⟨built_lineage, .empty, .empty⟩
  rw [List.filter_eq_self.mpr fun a ha => decide_eq_true (assignment_kinship hdeductions (hof a ha))]
    at hatMost
  have hcount : o.engine.stats.firings = (applied false xs).length :=
    hpass.firings_eq.trans (Nat.zero_add _)
  rw [← hcount, hfirings] at hatMost
  exact absurd hatMost (by decide)

end Engine

end TripleRules.Forward
