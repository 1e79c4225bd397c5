import Mathlib.Data.List.Induction
import TripleRules.Proofs.Store.Lookup

/-!
# The history of a store

What a store holds after a sequence of changes, and in which order, is said by the sequence alone: a
triple is held if it was put in and not taken out since, and it stands where it was last put in anew.
The indexes hold the same triples in the same order, each under its own term, and no empty bucket.
-/

namespace TripleRules

namespace Index

variable {α : Type}

def Full (i : Index α) : Prop := ∀ e ∈ i.buckets, e.2 ≠ []

theorem Full.empty : (empty : Index α).Full := by simp [Full, Index.empty]

theorem Full.add {i : Index α} (h : i.Full) (key : Term) (a : α) : (i.add key a).Full := by
  unfold Full at h
  unfold Full Index.add
  generalize i.buckets = l at h ⊢
  induction l with
  | nil => simp [addTo]
  | cons e rest ih =>
      obtain ⟨c, as⟩ := e
      rw [List.forall_mem_cons] at h
      simp only [addTo]
      split
      · exact List.forall_mem_cons.mpr ⟨by simp, h.2⟩
      · exact List.forall_mem_cons.mpr ⟨h.1, ih h.2⟩

theorem Full.remove [DecidableEq α] {i : Index α} (h : i.Full) (key : Term) (a : α) :
    (i.remove key a).Full := by
  unfold Full at h
  unfold Full Index.remove
  generalize i.buckets = l at h ⊢
  induction l with
  | nil => simp [removeFrom]
  | cons e rest ih =>
      obtain ⟨c, as⟩ := e
      rw [List.forall_mem_cons] at h
      simp only [removeFrom]
      split
      · split
        · exact h.2
        · rename_i hne
          exact List.forall_mem_cons.mpr ⟨hne, h.2⟩
      · exact List.forall_mem_cons.mpr ⟨h.1, ih h.2⟩

theorem lookup_eq_some_iff_mem {β : Type} {l : List (Term × β)} (hl : (l.map (·.1)).Nodup)
    {k : Term} {x : β} : l.lookup k = some x ↔ (k, x) ∈ l := by
  induction l with
  | nil => simp
  | cons e rest ih =>
      obtain ⟨c, y⟩ := e
      rw [List.map_cons, List.nodup_cons] at hl
      rw [lookup_cons_eq_ite, List.mem_cons, Prod.mk.injEq]
      by_cases hk : k = c
      · have hrest : (k, x) ∉ rest := fun hmem => hl.1 (hk ▸ List.mem_map.mpr ⟨_, hmem, rfl⟩)
        simp [hk ▸ hrest, hk, eq_comm]
      · simpa [hk] using ih hl.2

/-- An index of a list of triples by one of their terms: a bucket for each term that occurs, and in
it the triples with that term, in the order of the list. -/
structure Mirrors (i : Index Triple) (term : Triple → Term) (ts : List Triple) : Prop where
  distinct : i.Distinct
  mem_buckets : ∀ k b, (k, b) ∈ i.buckets ↔
    (∃ t ∈ ts, term t = k) ∧ b = ts.filter fun t => term t = k

theorem Files.mirrors {i : Index Triple} {term : Triple → Term} {ts : List Triple}
    (h : i.Files term ts) (hfull : i.Full) : i.Mirrors term ts := by
  refine ⟨h.distinct, fun k b => ?_⟩
  have hoccurs : (∃ t ∈ ts, term t = k) ↔ (ts.filter fun t => term t = k) ≠ [] := by
    simp [List.filter_eq_nil_iff]
  rw [hoccurs, ← h.get_eq k]
  constructor
  · intro hmem
    have hget : i.get k = b := by
      rw [get, find?, (lookup_eq_some_iff_mem h.distinct).mpr hmem, Option.getD_some]
    exact ⟨hget ▸ hfull _ hmem, hget.symm⟩
  · rintro ⟨hne, rfl⟩
    cases hlookup : i.buckets.lookup k with
    | none => simp [get, find?, hlookup] at hne
    | some b =>
        have hmem := (lookup_eq_some_iff_mem h.distinct).mp hlookup
        simpa [get, find?, hlookup] using hmem

end Index

namespace Store

inductive Change where
  | insert (t : Triple)
  | remove (t : Triple)
  | clear
  deriving DecidableEq

def apply (s : Store) : Change → Store
  | .insert t => s.insert t
  | .remove t => s.erase t
  | .clear => empty

def after (cs : List Change) : Store := cs.foldl apply empty

theorem after_concat (cs : List Change) (c : Change) : after (cs ++ [c]) = (after cs).apply c := by
  simp [after]

/-! ## What a sequence of changes says -/

def Change.Drops (t : Triple) : Change → Prop
  | .insert _ => False
  | .remove u => u = t
  | .clear => True

/-- A triple has been put in and not been taken out since. -/
def Held (cs : List Change) (t : Triple) : Prop :=
  ∃ before later, cs = before ++ .insert t :: later ∧ ∀ c ∈ later, ¬ c.Drops t

def NewAt (cs : List Change) (i : Nat) (t : Triple) : Prop :=
  cs[i]? = some (.insert t) ∧ ¬ Held (cs.take i) t

def LastNewAt (cs : List Change) (i : Nat) (t : Triple) : Prop :=
  NewAt cs i t ∧ ∀ j, NewAt cs j t → j ≤ i

theorem not_held_nil (t : Triple) : ¬ Held [] t := by
  rintro ⟨before, later, h, -⟩
  simp at h

theorem held_concat (cs : List Change) (c : Change) (t : Triple) :
    Held (cs ++ [c]) t ↔ c = .insert t ∨ Held cs t ∧ ¬ c.Drops t := by
  constructor
  · rintro ⟨before, later, h, hlater⟩
    rcases List.eq_nil_or_concat later with rfl | ⟨later, d, rfl⟩
    · exact .inl (by simpa using (List.append_inj' h rfl).2)
    · rw [List.concat_eq_append] at h hlater
      rw [← List.cons_append, ← List.append_assoc] at h
      obtain ⟨hcs, hd⟩ := List.append_inj' h rfl
      obtain rfl : c = d := by simpa using hd
      exact .inr ⟨⟨before, later, hcs, fun e he => hlater e (by simp [he])⟩,
        hlater c (by simp)⟩
  · rintro (rfl | ⟨⟨before, later, rfl, hlater⟩, hc⟩)
    · exact ⟨cs, [], rfl, by simp⟩
    · refine ⟨before, later ++ [c], by simp, fun e he => ?_⟩
      rcases List.mem_append.mp he with he | he
      · exact hlater e he
      · rw [List.mem_singleton] at he
        exact he ▸ hc

theorem NewAt.lt {cs : List Change} {i : Nat} {t : Triple} (h : NewAt cs i t) : i < cs.length :=
  (List.getElem?_eq_some_iff.mp h.1).1

theorem newAt_concat (cs : List Change) (c : Change) (i : Nat) (t : Triple) :
    NewAt (cs ++ [c]) i t ↔
      NewAt cs i t ∨ i = cs.length ∧ c = .insert t ∧ ¬ Held cs t := by
  unfold NewAt
  rcases Nat.lt_trichotomy i cs.length with hi | rfl | hi
  · rw [List.getElem?_append_left hi, List.take_append_of_le_length (Nat.le_of_lt hi)]
    simp [Nat.ne_of_lt hi]
  · simp
  · have hnone : (cs ++ [c])[i]? = none := List.getElem?_eq_none (by simp; omega)
    have hnone' : cs[i]? = none := List.getElem?_eq_none (Nat.le_of_lt hi)
    simp [hnone, hnone', Nat.ne_of_gt hi]

theorem LastNewAt.concat {cs : List Change} {i : Nat} {t : Triple} (h : LastNewAt cs i t)
    {c : Change} (hc : c = .insert t → Held cs t) : LastNewAt (cs ++ [c]) i t := by
  refine ⟨(newAt_concat ..).mpr (.inl h.1), fun j hj => ?_⟩
  rcases (newAt_concat ..).mp hj with hj | ⟨-, hct, hnew⟩
  · exact h.2 j hj
  · exact absurd (hc hct) hnew

theorem lastNewAt_concat_insert {cs : List Change} {t : Triple} (h : ¬ Held cs t) :
    LastNewAt (cs ++ [.insert t]) cs.length t := by
  refine ⟨(newAt_concat ..).mpr (.inr ⟨rfl, rfl, h⟩), fun j hj => ?_⟩
  have hlt := hj.lt
  rw [List.length_append, List.length_singleton] at hlt
  omega

/-! ## What the store makes of it -/

theorem mem_erase {s : Store} (h : s.triples.Nodup) (t u : Triple) :
    u ∈ (s.erase t).triples ↔ u ∈ s.triples ∧ u ≠ t := by
  unfold erase
  split
  · rw [h.mem_erase_iff, and_comm]
  · rename_i hno
    rw [contains_iff] at hno
    exact ⟨fun hu => ⟨hu, fun hut => hno (hut ▸ hu)⟩, And.left⟩

theorem built_after {cs : List Change} (hcs : ∀ t, .insert t ∈ cs → t.isGround) :
    (after cs).Built := by
  induction cs using List.reverseRecOn with
  | nil => exact .empty
  | append_singleton cs c ih =>
      rw [after_concat]
      have hbuilt := ih fun t ht => hcs t (List.mem_append_left _ ht)
      cases c with
      | insert t => exact hbuilt.insert (hcs t (by simp))
      | remove t => exact hbuilt.erase t
      | clear => exact .empty

theorem mem_after {cs : List Change} (hcs : ∀ t, .insert t ∈ cs → t.isGround) (u : Triple) :
    u ∈ (after cs).triples ↔ Held cs u := by
  induction cs using List.reverseRecOn with
  | nil => simpa [after, empty] using not_held_nil u
  | append_singleton cs c ih =>
      have hcs' : ∀ t, .insert t ∈ cs → t.isGround := fun t ht =>
        hcs t (List.mem_append_left _ ht)
      rw [after_concat, held_concat, ← ih hcs']
      cases c with
      | insert t =>
          rw [apply, mem_insert]
          simp [Change.Drops, or_comm, eq_comm]
      | remove t =>
          rw [apply, mem_erase (built_after hcs').consistent.nodup]
          simp [Change.Drops, eq_comm]
      | clear => simp [apply, empty, Change.Drops]

/-- The triples stand in the order in which they were last put in anew. -/
structure Chronological (cs : List Change) (ts : List Triple) : Prop where
  dated : ∀ t ∈ ts, ∃ i, LastNewAt cs i t
  ordered : ts.Pairwise fun t u => ∀ i j, LastNewAt cs i t → LastNewAt cs j u → i < j

theorem LastNewAt.unique {cs : List Change} {i j : Nat} {t : Triple} (h : LastNewAt cs i t)
    (h' : LastNewAt cs j t) : i = j :=
  Nat.le_antisymm (h'.2 i h.1) (h.2 j h'.1)

theorem Chronological.concat {cs : List Change} {ts : List Triple} (h : Chronological cs ts)
    {c : Change} (hc : ∀ t ∈ ts, c = .insert t → Held cs t) : Chronological (cs ++ [c]) ts := by
  have hdate : ∀ t ∈ ts, ∀ i, LastNewAt (cs ++ [c]) i t → LastNewAt cs i t := fun t ht i hi => by
    obtain ⟨j, hj⟩ := h.dated t ht
    exact hi.unique (hj.concat (hc t ht)) ▸ hj
  refine ⟨fun t ht => ?_, ?_⟩
  · obtain ⟨i, hi⟩ := h.dated t ht
    exact ⟨i, hi.concat (hc t ht)⟩
  · refine h.ordered.imp_of_mem fun ht hu hlt i j hi hj => ?_
    exact hlt i j (hdate _ ht i hi) (hdate _ hu j hj)

theorem Chronological.sublist {cs : List Change} {ts us : List Triple} (h : Chronological cs ts)
    (hus : us.Sublist ts) : Chronological cs us :=
  ⟨fun t ht => h.dated t (hus.subset ht), h.ordered.sublist hus⟩

theorem Chronological.insert {cs : List Change} {ts : List Triple} (h : Chronological cs ts)
    {t : Triple} (hts : ∀ u ∈ ts, Held cs u) (hnew : ¬ Held cs t) :
    Chronological (cs ++ [.insert t]) (ts ++ [t]) := by
  have hts' := h.concat (c := .insert t) fun u hu _ => hts u hu
  have hlast := lastNewAt_concat_insert hnew
  refine ⟨fun u hu => ?_, ?_⟩
  · rcases List.mem_append.mp hu with hu | hu
    · exact hts'.dated u hu
    · obtain rfl := List.mem_singleton.mp hu
      exact ⟨_, hlast⟩
  · refine List.pairwise_append.mpr ⟨hts'.ordered, List.pairwise_singleton _ _, ?_⟩
    intro u hu v hv i j hi hj
    rw [List.mem_singleton] at hv
    subst hv
    obtain ⟨k, hk⟩ := h.dated u hu
    have hlt : k < cs.length := hk.1.lt
    rwa [hi.unique (hk.concat fun _ => hts u hu), hj.unique hlast]

theorem chronological_after {cs : List Change} (hcs : ∀ t, .insert t ∈ cs → t.isGround) :
    Chronological cs (after cs).triples := by
  induction cs using List.reverseRecOn with
  | nil => exact ⟨by simp [after, empty], List.Pairwise.nil⟩
  | append_singleton cs c ih =>
      have hcs' : ∀ t, .insert t ∈ cs → t.isGround := fun t ht =>
        hcs t (List.mem_append_left _ ht)
      have hheld : ∀ u ∈ (after cs).triples, Held cs u := fun u => (mem_after hcs' u).mp
      have hkept : ∀ c, Chronological (cs ++ [c]) (after cs).triples := fun c =>
        (ih hcs').concat fun u hu _ => hheld u hu
      rw [after_concat]
      cases c with
      | insert t =>
          rw [apply, Store.insert]
          split
          · exact hkept _
          · rename_i hno
            rw [contains_iff, mem_after hcs'] at hno
            exact (ih hcs').insert hheld hno
      | remove t =>
          rw [apply, Store.erase]
          split
          · exact (hkept _).sublist List.erase_sublist
          · exact hkept _
      | clear => exact (hkept _).sublist (List.nil_sublist _)

structure Full (s : Store) : Prop where
  bySubject : s.bySubject.Full
  byPredicate : s.byPredicate.Full
  byObject : s.byObject.Full

theorem Full.empty : Full empty := ⟨.empty, .empty, .empty⟩

theorem Full.insert {s : Store} (h : s.Full) (t : Triple) : (s.insert t).Full := by
  unfold Store.insert
  split
  · exact h
  · exact ⟨h.bySubject.add _ t, h.byPredicate.add _ t, h.byObject.add _ t⟩

theorem Full.erase {s : Store} (h : s.Full) (t : Triple) : (s.erase t).Full := by
  unfold Store.erase
  split
  · exact ⟨h.bySubject.remove _ t, h.byPredicate.remove _ t, h.byObject.remove _ t⟩
  · exact h

theorem Built.full {s : Store} (h : s.Built) : s.Full := by
  induction h with
  | empty => exact .empty
  | insert _ _ ih => exact ih.insert _
  | erase _ t ih => exact ih.erase t

/-- A store that is what a sequence of changes says. -/
structure Reflects (s : Store) (cs : List Change) : Prop where
  /-- It holds the triples that were put in and not taken out since. -/
  mem_triples : ∀ t, t ∈ s.triples ↔ Held cs t
  contains : ∀ t, s.contains t ↔ t ∈ s.triples
  nodup : s.triples.Nodup
  chronological : Chronological cs s.triples
  bySubject : s.bySubject.Mirrors Triple.subject s.triples
  byPredicate : s.byPredicate.Mirrors Triple.predicate s.triples
  byObject : s.byObject.Mirrors Triple.object s.triples
  /-- Look-up by index finds what a scan of all triples would find, in the same order. -/
  find_eq : ∀ p, s.find p = s.triples.filter p.matches?

/-- A store reflects its history, whatever ground triples were put in and taken out. -/
theorem reflects_after {cs : List Change} (hcs : ∀ t, .insert t ∈ cs → t.isGround) :
    (after cs).Reflects cs where
  mem_triples := mem_after hcs
  contains := contains_iff _
  nodup := (built_after hcs).consistent.nodup
  chronological := chronological_after hcs
  bySubject := (built_after hcs).consistent.bySubject.mirrors (built_after hcs).full.bySubject
  byPredicate :=
    (built_after hcs).consistent.byPredicate.mirrors (built_after hcs).full.byPredicate
  byObject := (built_after hcs).consistent.byObject.mirrors (built_after hcs).full.byObject
  find_eq := (built_after hcs).consistent.find_eq

/-! ## An instance -/

def letters : List Change :=
  let sent (x : String) : Triple := ⟨.iri x, .iri "sends", .iri "letter"⟩
  [.remove (sent "ann"), .insert (sent "ann"), .insert (sent "bob"), .remove (sent "ann"),
    .insert (sent "ann"), .insert (sent "bob")]

theorem letters_reflected :
    (∀ t, Change.insert t ∈ letters → t.isGround) ∧ (after letters).Reflects letters ∧
      (after letters).find ⟨.var ⟨"x", 0⟩, .iri "sends", .iri "letter"⟩ =
        [⟨.iri "bob", .iri "sends", .iri "letter"⟩, ⟨.iri "ann", .iri "sends", .iri "letter"⟩] := by
  have hground : ∀ t, Change.insert t ∈ letters → t.isGround := fun t ht => by
    simp only [letters, List.mem_cons, Change.insert.injEq, reduceCtorEq, List.not_mem_nil,
      or_false, false_or] at ht
    rcases ht with rfl | rfl | rfl | rfl <;> rfl
  exact ⟨hground, reflects_after hground, by decide +kernel⟩

end Store

end TripleRules
