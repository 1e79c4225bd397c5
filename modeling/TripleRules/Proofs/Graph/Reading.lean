import TripleRules.Graph.Query
import TripleRules.Proofs.Tabling.Order

/-!
# Reading answers

The answers to a pattern are read one by one, and a query reads them to the end.  Answers that are
at hand come in their order.  The answers of a goal stay in their places while the tables are
pumped, so the place in the reading says which of them have been read.
-/

namespace TripleRules

open Tabling

/-- Items as they are read one after the other, with the graph after them and the place where to
read on. -/
inductive InferenceGraph.Reads (g : InferenceGraph) (a : Answers) :
    List Item → InferenceGraph → Answers → Prop where
  | nil : Reads g a [] g a
  | snoc {items : List Item} {g' : InferenceGraph} {a' : Answers} (h : Reads g a items g' a')
      {fuel fresh : Nat} {reply : Reply (Item × Answers)}
      (hnext : g'.next fuel a' fresh = some reply) :
      Reads g a (items ++ [reply.value.1]) reply.graph reply.value.2

namespace InferenceGraph

variable {g g' : InferenceGraph} {a a' : Answers} {items : List Item}

theorem Reads.keeps {P : InferenceGraph → Prop}
    (hnext : ∀ (g : InferenceGraph) (answers : Answers) (fuel fresh : Nat)
      (reply : Reply (Item × Answers)),
      P g → g.next fuel answers fresh = some reply → P reply.graph)
    (h : Reads g a items g' a') (hg : P g) : P g' := by
  induction h with
  | nil => exact hg
  | snoc _ hreply ih => exact hnext _ _ _ _ _ ih hreply

def readItems (g : InferenceGraph) (fuel : Nat) (a : Answers) (fresh : Nat) :
    Nat → Option (Reply (List Item × Answers))
  | 0 => some ⟨([], a), g, fresh⟩
  | n + 1 => (g.readItems fuel a fresh n).bind fun r =>
    (r.graph.next fuel r.value.2 r.fresh).map fun r' =>
      ⟨(r.value.1 ++ [r'.value.1], r'.value.2), r'.graph, r'.fresh⟩

theorem reads_readItems {fuel fresh n : Nat} {reply : Reply (List Item × Answers)}
    (h : g.readItems fuel a fresh n = some reply) :
    Reads g a reply.value.1 reply.graph reply.value.2 := by
  induction n generalizing reply with
  | zero =>
      cases h
      exact .nil
  | succ n ih =>
      rw [readItems, Option.bind_eq_some_iff] at h
      obtain ⟨r, hr, h⟩ := h
      obtain ⟨r', hnext, rfl⟩ := Option.map_eq_some_iff.mp h
      exact (ih hr).snoc hnext

/-! ## Answers at hand -/

theorem next_direct (g : InferenceGraph) (left : List Triple) (fuel fresh : Nat) :
    g.next fuel (.direct left) fresh =
      some ⟨match left with
        | [] => (.finished, .direct [])
        | t :: ts => (.answer t, .direct ts), g, fresh⟩ := by
  cases left <;> rfl

/-- Answers that are at hand are read in their order, and after the last there is nothing. -/
theorem Reads.direct {left : List Triple} (h : Reads g (.direct left) items g' a') :
    g' = g ∧ ∃ found rest n, left = found ++ rest ∧ (n = 0 ∨ rest = []) ∧
      items = found.map .answer ++ List.replicate n .finished ∧ a' = .direct rest := by
  induction h with
  | nil => exact ⟨rfl, [], left, 0, rfl, .inl rfl, rfl, rfl⟩
  | snoc _ hnext ih =>
      obtain ⟨rfl, found, rest, n, hleft, hrest, rfl, rfl⟩ := ih
      rw [next_direct] at hnext
      cases hnext
      cases rest with
      | nil =>
          refine ⟨rfl, found, [], n + 1, hleft, .inr rfl, ?_, rfl⟩
          rw [List.replicate_succ', List.append_assoc]
      | cons t ts =>
          obtain rfl : n = 0 := hrest.resolve_right (List.cons_ne_nil t ts)
          refine ⟨rfl, found ++ [t], ts, 0, ?_, .inl rfl, ?_, rfl⟩
          · rw [hleft, List.append_assoc, List.singleton_append]
          · simp

/-! ## Answers of a goal -/

section Tabled

variable {I : Tables → Option Turn → Prop} {J : Tables → Prop} {t : Tables} {id : GeneratorId}
  {goal : Triple} {found : List Triple}

structure HasRead (I : Tables → Option Turn → Prop) (id : GeneratorId) (goal : Triple) (t : Tables)
    (found : List Triple) : Prop where
  holds : I t none
  size : id < t.size
  goal : (t.generator id).goal = goal
  inPlace : found <+: (t.generator id).results.toList

structure HasReadAll (I : Tables → Option Turn → Prop) (id : GeneratorId) (goal : Triple)
    (t : Tables) (found : List Triple) : Prop extends HasRead I id goal t found where
  isComplete : (t.generator id).isComplete
  all : (t.generator id).results.toList = found

theorem next_tabled_of_ready {next : Nat} (hready : (g.tables.generator id).isComplete ∨
      next < (g.tables.generator id).results.size) (fuel fresh : Nat) :
    g.next fuel (.tabled id next) fresh = some ⟨g.readTabled id next, g, fresh⟩ := by
  rw [InferenceGraph.next]
  dsimp only
  rw [if_pos]
  rw [Bool.or_eq_true, decide_eq_true_eq]
  exact hready.symm

theorem HasRead.readTabled (h : HasRead I id goal t found)
    (hready : (t.generator id).isComplete ∨ found.length < (t.generator id).results.size) :
    (∃ x, InferenceGraph.readTabled { g with tables := t } id found.length =
        (.answer x, .tabled id (found ++ [x]).length) ∧ HasRead I id goal t (found ++ [x])) ∨
      InferenceGraph.readTabled { g with tables := t } id found.length =
        (.finished, .tabled id found.length) ∧ HasReadAll I id goal t found := by
  obtain ⟨rest, hrest⟩ := h.inPlace
  have hget : (t.generator id).results[found.length]? = rest[0]? := by
    rw [← Array.getElem?_toList, ← hrest, List.getElem?_append_right (Nat.le_refl _), Nat.sub_self]
  unfold InferenceGraph.readTabled
  dsimp only
  rw [hget]
  cases rest with
  | nil =>
      rw [List.append_nil] at hrest
      have hsize : (t.generator id).results.size = found.length := by
        rw [hrest, Array.length_toList]
      exact .inr ⟨rfl, h, hready.resolve_right (by omega), hrest.symm⟩
  | cons x rest =>
      refine .inl ⟨x, ?_, h.holds, h.size, h.goal, rest, ?_⟩
      · rw [List.length_append, List.length_singleton]
        rfl
      · rw [List.append_assoc, List.singleton_append, hrest]

theorem HasReadAll.readTabled (h : HasReadAll I id goal t found) :
    InferenceGraph.readTabled { g with tables := t } id found.length =
      (.finished, .tabled id found.length) := by
  have hend : (t.generator id).results[found.length]? = none :=
    Array.getElem?_eq_none (by rw [← Array.length_toList, h.all])
  unfold InferenceGraph.readTabled
  dsimp only
  rw [hend]

theorem HasRead.next (hI : Sustained g.context I J)
    (hlinked : ∀ t turn, I t turn → Linked t) (h : HasRead I id goal t found) {fuel fresh : Nat}
    {reply : Reply (Item × Answers)}
    (hreply : InferenceGraph.next { g with tables := t } fuel (.tabled id found.length) fresh =
      some reply) :
    ∃ t',
      (∃ x, HasRead I id goal t' (found ++ [x]) ∧ reply.graph = { g with tables := t' } ∧
        reply.value = (.answer x, .tabled id (found ++ [x]).length)) ∨
      (HasReadAll I id goal t' found ∧ reply.graph = { g with tables := t' } ∧
        reply.value = (.finished, .tabled id found.length)) ∨
      ∃ f, J t' ∧ reply.graph = { g with tables := t' }.reset ∧
        reply.value = (.fault f, .ended) := by
  have hread : ∀ t' : Tables, HasRead I id goal t' found →
      ((t'.generator id).isComplete ∨ found.length < (t'.generator id).results.size) → ∀ fresh',
      reply = ⟨InferenceGraph.readTabled { g with tables := t' } id found.length,
        { g with tables := t' }, fresh'⟩ →
      (∃ x, HasRead I id goal t' (found ++ [x]) ∧ reply.graph = { g with tables := t' } ∧
        reply.value = (.answer x, .tabled id (found ++ [x]).length)) ∨
      HasReadAll I id goal t' found ∧ reply.graph = { g with tables := t' } ∧
        reply.value = (.finished, .tabled id found.length) := by
    rintro t' h' hready fresh' rfl
    rcases h'.readTabled hready with ⟨x, hvalue, hx⟩ | ⟨hvalue, hall⟩
    · exact .inl ⟨x, hx, rfl, hvalue⟩
    · exact .inr ⟨hall, rfl, hvalue⟩
  rw [InferenceGraph.next] at hreply
  dsimp only at hreply
  split at hreply
  · rename_i hready
    rw [Bool.or_eq_true, decide_eq_true_eq] at hready
    cases hreply
    exact ⟨t, (hread t h hready.symm fresh rfl).imp_right .inl⟩
  · rename_i hready
    rw [Bool.or_eq_true, decide_eq_true_eq, not_or] at hready
    rw [Option.map_eq_some_iff] at hreply
    obtain ⟨o, hpump, rfl⟩ := hreply
    have hstart : I t none ∧ Later t id t := ⟨h.holds, .refl h.size⟩
    rcases (hI.withLater hlinked t id).pump hstart hpump with
      ⟨hfault, ⟨hholds, hlater⟩, hgrew⟩ | ⟨hfault, hJ, -⟩
    · have hnow : HasRead I id goal o.tables found :=
        ⟨hholds, hlater.size, hlater.goal.trans h.goal, h.inPlace.trans hlater.prefix_results⟩
      have hle : found.length ≤ (t.generator id).results.size :=
        h.inPlace.length_le.trans_eq Array.length_toList
      refine ⟨o.tables,
        (hread o.tables hnow (hgrew.imp_right fun hlt => ?_) o.fresh ?_).imp_right .inl⟩
      · omega
      · rw [hfault]
    · obtain ⟨f, hf⟩ := Option.isSome_iff_exists.mp hfault
      refine ⟨o.tables, .inr (.inr ⟨f, hJ, ?_, ?_⟩)⟩
      · rw [hf]
      · rw [hf]

/-- How the reading of the answers of a goal goes: answers come until all have been read, and
nothing after them, or until a pump comes to a fault, and nothing after that. -/
inductive Course (I : Tables → Option Turn → Prop) (J : Tables → Prop) (g : InferenceGraph)
    (id : GeneratorId) (goal : Triple) : List Item → InferenceGraph → Answers → Prop where
  | reading {t : Tables} {found : List Triple} (h : HasRead I id goal t found) :
      Course I J g id goal (found.map .answer) { g with tables := t } (.tabled id found.length)
  | ended {t : Tables} {found : List Triple} (h : HasReadAll I id goal t found) (n : Nat) :
      Course I J g id goal (found.map .answer ++ List.replicate (n + 1) .finished)
        { g with tables := t } (.tabled id found.length)
  | broken {t t' : Tables} {found : List Triple} (h : HasRead I id goal t found) (hJ : J t')
      (f : Fault) (n : Nat) :
      Course I J g id goal (found.map .answer ++ .fault f :: List.replicate n .finished)
        { g with tables := t' }.reset .ended

theorem Course.next (hI : Sustained g.context I J) (hlinked : ∀ t turn, I t turn → Linked t)
    (h : Course I J g id goal items g' a') {fuel fresh : Nat} {reply : Reply (Item × Answers)}
    (hreply : g'.next fuel a' fresh = some reply) :
    Course I J g id goal (items ++ [reply.value.1]) reply.graph reply.value.2 := by
  cases h with
  | @reading t found h =>
      obtain ⟨t', ⟨x, hx, hgraph, hvalue⟩ | ⟨hall, hgraph, hvalue⟩ | ⟨f, hJ, hgraph, hvalue⟩⟩ :=
        h.next hI hlinked hreply
      · have hnext := Course.reading (J := J) (g := g) hx
        rw [List.map_append] at hnext
        rw [hgraph, hvalue]
        exact hnext
      · rw [hgraph, hvalue]
        exact .ended hall 0
      · rw [hgraph, hvalue]
        exact .broken h hJ f 0
  | @ended t found h n =>
      rw [next_tabled_of_ready (.inl h.isComplete), h.readTabled] at hreply
      cases hreply
      rw [List.append_assoc, ← List.replicate_succ']
      exact .ended h (n + 1)
  | broken h hJ f n =>
      cases hreply
      rw [List.append_assoc, List.cons_append, ← List.replicate_succ']
      exact .broken h hJ f (n + 1)

/-- Every reading of the answers of a goal takes this course. -/
theorem Reads.course (hI : Sustained g.context I J) (hlinked : ∀ t turn, I t turn → Linked t)
    (hstart : I t none) (hid : id < t.size)
    (h : Reads { g with tables := t } (.tabled id 0) items g' a') :
    Course I J g id (t.generator id).goal items g' a' := by
  induction h with
  | nil =>
      have hnone : HasRead I id (t.generator id).goal t [] :=
        ⟨hstart, hid, rfl, List.nil_prefix⟩
      exact .reading hnone
  | snoc _ hnext ih => exact ih.next hI hlinked hnext

end Tabled

/-! ## Queries -/

/-- How a query comes to its end: the last item ends the reading or is a fault. -/
inductive Ends : Item → List Triple → Except Fault (List Triple) → Prop where
  | finished (found : List Triple) : Ends .finished found (.ok found)
  | fault (f : Fault) (found : List Triple) : Ends (.fault f) found (.error f)

theorem Reads.of_query {fuel fresh : Nat} {pattern : Triple}
    {reply : Reply (Except Fault (List Triple))} (h : g.query fuel pattern fresh = some reply) :
    ∃ found item a', Ends item found reply.value ∧
      Reads (g.find pattern).2 (g.find pattern).1 (found.map .answer ++ [item]) reply.graph a' := by
  rw [InferenceGraph.query, Option.join_eq_some_iff] at h
  have hall : ∀ b ∈ some reply, ∃ found item a', Ends item found b.value ∧
      Reads (g.find pattern).2 (g.find pattern).1 (found.map .answer ++ [item]) b.graph a' := by
    refine iterate_preserves (I := fun s : Reading =>
        Reads (g.find pattern).2 (g.find pattern).1 (s.found.map .answer) s.graph s.answers)
      (Q := fun b : Option (Reply (Except Fault (List Triple))) =>
        ∀ reply ∈ b, ∃ found item a', Ends item found reply.value ∧
          Reads (g.find pattern).2 (g.find pattern).1 (found.map .answer ++ [item]) reply.graph a')
      ?_ ?_ .nil h
    · intro s s' hs hstep
      unfold readStep at hstep
      split at hstep
      · cases hstep
      · rename_i heq
        cases hstep
        show Reads _ _ ((s.found ++ [_]).map Item.answer) _ _
        rw [List.map_append]
        exact hs.snoc heq
      · cases hstep
      · cases hstep
    · intro s b hs hstep
      unfold readStep at hstep
      split at hstep
      · cases hstep
        rintro b ⟨⟩
      · cases hstep
      · rename_i heq
        cases hstep
        rintro b ⟨⟩
        exact ⟨s.found, _, _, .fault _ _, hs.snoc heq⟩
      · rename_i heq
        cases hstep
        rintro b ⟨⟩
        exact ⟨s.found, _, _, .finished _, hs.snoc heq⟩
  exact hall reply rfl

theorem query_keeps {P : InferenceGraph → Prop} {fuel fresh : Nat} {pattern : Triple}
    {reply : Reply (Except Fault (List Triple))} (hfind : P (g.find pattern).2)
    (hnext : ∀ (g : InferenceGraph) (answers : Answers) (fuel fresh : Nat)
      (reply : Reply (Item × Answers)),
      P g → g.next fuel answers fresh = some reply → P reply.graph)
    (hreply : g.query fuel pattern fresh = some reply) : P reply.graph := by
  obtain ⟨found, item, a', -, hreads⟩ := Reads.of_query hreply
  exact hreads.keeps hnext hfind

theorem map_answer_ne {i : Item} (hi : ∀ t, i ≠ .answer t) (xs ys : List Triple) (is : List Item) :
    xs.map Item.answer ++ i :: is ≠ ys.map Item.answer := by
  intro heq
  have hmem : i ∈ ys.map Item.answer := by
    rw [← heq]
    exact List.mem_append_right _ List.mem_cons_self
  obtain ⟨t, -, ht⟩ := List.mem_map.mp hmem
  exact hi t ht.symm

theorem map_answer_inj {xs ys : List Triple} {i j : Item} {is js : List Item}
    (hi : ∀ t, i ≠ .answer t) (hj : ∀ t, j ≠ .answer t)
    (h : xs.map Item.answer ++ i :: is = ys.map Item.answer ++ j :: js) : xs = ys ∧ i = j := by
  induction xs generalizing ys with
  | nil =>
      cases ys with
      | nil =>
          cases h
          exact ⟨rfl, rfl⟩
      | cons y ys =>
          cases h
          exact absurd rfl (hi y)
  | cons x xs ih =>
      cases ys with
      | nil =>
          cases h
          exact absurd rfl (hj x)
      | cons y ys =>
          rw [List.map_cons, List.map_cons, List.cons_append, List.cons_append,
            List.cons.injEq, Item.answer.injEq] at h
          obtain ⟨rfl, h⟩ := h
          exact (ih h).imp_left (congrArg (List.cons x))

theorem Ends.ne_answer {item : Item} {found : List Triple} {value : Except Fault (List Triple)}
    (h : Ends item found value) (t : Triple) : item ≠ .answer t := by
  cases h <;> exact Item.noConfusion

theorem Ends.eq_ok {found : List Triple} {value : Except Fault (List Triple)}
    (h : Ends .finished found value) : value = .ok found := by
  cases h
  rfl

theorem Ends.eq_error {f : Fault} {found : List Triple} {value : Except Fault (List Triple)}
    (h : Ends (.fault f) found value) : value = .error f := by
  cases h
  rfl

theorem find_direct (hopen : g.closed = false) {pattern : Triple}
    (hplain : g.rules.isTabled pattern = false) :
    g.find pattern = (.direct (g.sources.find pattern), g) := by
  rw [InferenceGraph.find, hopen, hplain]
  rfl

theorem find_tabled (hopen : g.closed = false) {pattern : Triple}
    (htabled : g.rules.isTabled pattern) :
    g.find pattern = (.tabled (g.tables.generatorFor g.context pattern).1 0,
      { g with tables := (g.tables.generatorFor g.context pattern).2 }) := by
  rw [InferenceGraph.find, hopen, htabled]
  rfl

theorem query_direct (hopen : g.closed = false) {pattern : Triple}
    (hplain : g.rules.isTabled pattern = false) {fuel fresh : Nat}
    {reply : Reply (Except Fault (List Triple))}
    (h : g.query fuel pattern fresh = some reply) :
    reply.value = .ok (g.sources.find pattern) ∧ reply.graph = g := by
  obtain ⟨found, item, a', hends, hreads⟩ := Reads.of_query h
  rw [find_direct hopen hplain] at hreads
  obtain ⟨hgraph, found', rest, n, hfind, hrest, hitems, -⟩ := hreads.direct
  cases n with
  | zero =>
      rw [List.replicate_zero, List.append_nil] at hitems
      exact absurd hitems (map_answer_ne hends.ne_answer found found' [])
  | succ n =>
      obtain ⟨rfl, rfl⟩ := map_answer_inj hends.ne_answer (fun _ => Item.noConfusion) hitems
      obtain rfl : rest = [] := hrest.resolve_left (Nat.succ_ne_zero n)
      rw [List.append_nil] at hfind
      rw [hfind]
      exact ⟨hends.eq_ok, hgraph⟩

/-- What rules prove is answered with all answers of the goal, unless a pump comes to a fault. -/
theorem query_tabled {I : Tables → Option Turn → Prop} {J : Tables → Prop}
    (hI : Sustained g.context I J) (hlinked : ∀ t turn, I t turn → Linked t)
    (hlinks : Linked g.tables) (hopen : g.closed = false) {pattern : Triple}
    (hstart : I (g.tables.generatorFor g.context pattern).2 none)
    (htabled : g.rules.isTabled pattern) {fuel fresh : Nat}
    {reply : Reply (Except Fault (List Triple))}
    (h : g.query fuel pattern fresh = some reply) :
    (∃ t found, HasReadAll I (g.tables.generatorFor g.context pattern).1 pattern.normalize t found ∧
      reply.graph = { g with tables := t } ∧ reply.value = .ok found) ∨
    ∃ t f, J t ∧ reply.graph = { g with tables := t }.reset ∧ reply.value = .error f := by
  obtain ⟨found, item, a', hends, hreads⟩ := Reads.of_query h
  obtain ⟨hid, hgoal⟩ := hlinks.generatorFor_fst g.context pattern
  rw [find_tabled hopen htabled] at hreads
  have hcourse := hreads.course hI hlinked hstart hid
  rw [hgoal] at hcourse
  generalize hitems : found.map Item.answer ++ [item] = items at hcourse
  generalize hgraph : reply.graph = g' at hcourse
  cases hcourse with
  | @reading t found' h => exact absurd hitems (map_answer_ne hends.ne_answer found found' [])
  | @ended t found' h n =>
      obtain ⟨rfl, rfl⟩ := map_answer_inj hends.ne_answer (fun _ => Item.noConfusion) hitems
      exact .inl ⟨t, found, h, rfl, hends.eq_ok⟩
  | @broken t t' found' h hJ f n =>
      obtain ⟨rfl, rfl⟩ := map_answer_inj hends.ne_answer (fun _ => Item.noConfusion) hitems
      exact .inr ⟨t', f, hJ, rfl, hends.eq_error⟩

end InferenceGraph

end TripleRules
