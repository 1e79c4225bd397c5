import Mathlib.Data.List.Nodup
import TripleRules.Proofs.Term.Matching
import TripleRules.Store.Sources

/-!
# Look-up

An index files each entry under its term and keeps the order of the entries.  A store that was built
by insertions and removals holds each triple once, and its look-up finds the instances of a pattern
among all its triples, whichever index it goes through.
-/

namespace TripleRules

namespace Index

variable {α : Type}

theorem lookup_cons_eq_ite {β : Type} (k c : Term) (x : β) (l : List (Term × β)) :
    ((c, x) :: l).lookup k = if k = c then some x else l.lookup k := by
  rw [List.lookup_cons]
  by_cases hk : k = c
  · rw [if_pos hk, beq_iff_eq.mpr hk]
  · rw [if_neg hk, beq_false_of_ne hk]

theorem lookup_addTo (key k : Term) (a : α) (l : List (Term × List α)) :
    ((addTo key a l).lookup k).getD [] =
      (l.lookup k).getD [] ++ if k = key then [a] else [] := by
  induction l with
  | nil =>
      simp only [addTo, lookup_cons_eq_ite, List.lookup_nil]
      by_cases hk : k = key <;> simp [hk]
  | cons e rest ih =>
      obtain ⟨c, as⟩ := e
      simp only [addTo]
      by_cases hc : c = key
      · subst hc
        by_cases hk : k = c <;> simp [lookup_cons_eq_ite, hk]
      · simp only [if_neg hc, lookup_cons_eq_ite]
        by_cases hk : k = c
        · subst hk
          simp [hc]
        · simpa [hk] using ih

theorem get_add (i : Index α) (key k : Term) (a : α) :
    (i.add key a).get k = i.get k ++ if k = key then [a] else [] :=
  lookup_addTo key k a i.buckets

theorem map_fst_addTo (key : Term) (a : α) (l : List (Term × List α)) :
    (addTo key a l).map (·.1) = l.map (·.1) ∨
      (addTo key a l).map (·.1) = l.map (·.1) ++ [key] ∧ key ∉ l.map (·.1) := by
  induction l with
  | nil => exact .inr ⟨rfl, by simp⟩
  | cons e rest ih =>
      obtain ⟨c, as⟩ := e
      simp only [addTo]
      by_cases hc : c = key
      · exact .inl (by simp [hc])
      · rw [if_neg hc]
        rcases ih with ih | ⟨ih, hnew⟩
        · exact .inl (by simp [ih])
        · exact .inr ⟨by simp [ih], by simpa [hnew] using Ne.symm hc⟩

def Distinct (i : Index α) : Prop := (i.buckets.map (·.1)).Nodup

theorem Distinct.add {i : Index α} (h : i.Distinct) (key : Term) (a : α) :
    (i.add key a).Distinct := by
  unfold Distinct Index.add
  rcases map_fst_addTo key a i.buckets with hk | ⟨hk, hnew⟩
  · rw [hk]
    exact h
  · rw [hk, List.nodup_append]
    refine ⟨h, by simp, ?_⟩
    rintro c hc d hd rfl
    rw [List.mem_singleton] at hd
    exact hnew (hd ▸ hc)

theorem lookup_eq_none_of_not_mem {l : List (Term × List α)} {k : Term} (h : k ∉ l.map (·.1)) :
    l.lookup k = none := by
  rw [List.lookup_eq_none_iff]
  rintro ⟨c, as⟩ hmem
  have hne : c ≠ k := by
    rintro rfl
    exact h (List.mem_map.mpr ⟨_, hmem, rfl⟩)
  simpa using Ne.symm hne

variable [DecidableEq α]

theorem mem_map_fst_removeFrom {key : Term} {a : α} {l : List (Term × List α)} {k : Term}
    (h : k ∈ (removeFrom key a l).map (·.1)) : k ∈ l.map (·.1) := by
  induction l with
  | nil => simp [removeFrom] at h
  | cons e rest ih =>
      obtain ⟨c, as⟩ := e
      simp only [removeFrom] at h
      split at h
      · split at h
        · simp only [List.map_cons, List.mem_cons]
          exact .inr h
        · exact h
      · simp only [List.map_cons, List.mem_cons] at h ⊢
        exact h.imp_right ih

theorem lookup_removeFrom (key k : Term) (a : α) (l : List (Term × List α))
    (hl : (l.map (·.1)).Nodup) :
    ((removeFrom key a l).lookup k).getD [] =
      if k = key then ((l.lookup k).getD []).erase a else (l.lookup k).getD [] := by
  induction l with
  | nil => simp [removeFrom]
  | cons e rest ih =>
      obtain ⟨c, as⟩ := e
      rw [List.map_cons, List.nodup_cons] at hl
      simp only [removeFrom]
      by_cases hc : c = key
      · subst hc
        rw [if_pos rfl]
        by_cases hk : k = c
        · subst hk
          have hrest : rest.lookup k = none := lookup_eq_none_of_not_mem hl.1
          cases herase : as.erase a <;> simp [hrest, herase]
        · cases herase : as.erase a <;> simp [lookup_cons_eq_ite, hk]
      · rw [if_neg hc]
        by_cases hk : k = c
        · subst hk
          simp [hc]
        · simpa [lookup_cons_eq_ite, hk] using ih hl.2

theorem get_remove {i : Index α} (h : i.Distinct) (key k : Term) (a : α) :
    (i.remove key a).get k = if k = key then (i.get k).erase a else i.get k :=
  lookup_removeFrom key k a i.buckets h

theorem Distinct.remove {i : Index α} (h : i.Distinct) (key : Term) (a : α) :
    (i.remove key a).Distinct := by
  unfold Distinct at h
  unfold Distinct Index.remove
  generalize i.buckets = l at h ⊢
  induction l with
  | nil => simp [removeFrom]
  | cons e rest ih =>
      obtain ⟨c, as⟩ := e
      rw [List.map_cons, List.nodup_cons] at h
      simp only [removeFrom]
      split
      · split
        · exact h.2
        · rw [List.map_cons, List.nodup_cons]
          exact h
      · rw [List.map_cons, List.nodup_cons]
        exact ⟨fun hmem => h.1 (mem_map_fst_removeFrom hmem), ih h.2⟩

/-- The index files the triples of a list by one of their terms, in the order of the list. -/
structure Files (i : Index Triple) (term : Triple → Term) (ts : List Triple) : Prop where
  distinct : i.Distinct
  get_eq : ∀ k, i.get k = ts.filter fun t => term t = k

theorem Files.empty (term : Triple → Term) : (empty : Index Triple).Files term [] :=
  ⟨by simp [Distinct, Index.empty], fun _ => rfl⟩

theorem Files.add {i : Index Triple} {term : Triple → Term} {ts : List Triple}
    (h : i.Files term ts) (t : Triple) : (i.add (term t) t).Files term (ts ++ [t]) := by
  refine ⟨h.distinct.add _ _, fun k => ?_⟩
  rw [get_add, h.get_eq, List.filter_append]
  by_cases hk : k = term t
  · simp [hk]
  · simp [hk, Ne.symm hk]

theorem Files.remove {i : Index Triple} {term : Triple → Term} {ts : List Triple}
    (h : i.Files term ts) (t : Triple) : (i.remove (term t) t).Files term (ts.erase t) := by
  refine ⟨h.distinct.remove _ _, fun k => ?_⟩
  rw [get_remove h.distinct, h.get_eq, ← List.erase_filter]
  split
  · rfl
  · rename_i hk
    rw [List.erase_of_not_mem]
    simp [Ne.symm hk]

end Index

namespace Store

/-- A store as it is reached from the empty one by insertions of ground triples and by removals. -/
inductive Built : Store → Prop where
  | empty : Built empty
  | insert {s : Store} (h : Built s) {t : Triple} (ht : t.isGround) : Built (s.insert t)
  | erase {s : Store} (h : Built s) (t : Triple) : Built (s.erase t)

structure Consistent (s : Store) : Prop where
  nodup : s.triples.Nodup
  ground : ∀ t ∈ s.triples, t.isGround
  bySubject : s.bySubject.Files Triple.subject s.triples
  byPredicate : s.byPredicate.Files Triple.predicate s.triples
  byObject : s.byObject.Files Triple.object s.triples

theorem contains_iff (s : Store) (t : Triple) : s.contains t ↔ t ∈ s.triples := by
  simp [contains]

theorem mem_insert (s : Store) (t u : Triple) :
    u ∈ (s.insert t).triples ↔ u ∈ s.triples ∨ u = t := by
  unfold insert
  split
  · rename_i h
    rw [contains_iff] at h
    constructor
    · exact .inl
    · rintro (hu | rfl)
      · exact hu
      · exact h
  · simp

theorem Consistent.empty : Consistent empty :=
  ⟨List.nodup_nil, by simp [Store.empty], .empty _, .empty _, .empty _⟩

theorem Consistent.insert {s : Store} (h : s.Consistent) {t : Triple} (ht : t.isGround) :
    (s.insert t).Consistent := by
  unfold Store.insert
  split
  · exact h
  · rename_i hnew
    rw [contains_iff] at hnew
    refine ⟨?_, ?_, h.bySubject.add t, h.byPredicate.add t, h.byObject.add t⟩
    · rw [List.nodup_append]
      refine ⟨h.nodup, by simp, ?_⟩
      rintro a ha b hb rfl
      rw [List.mem_singleton] at hb
      exact hnew (hb ▸ ha)
    · intro u hu
      rcases List.mem_append.mp hu with hu | hu
      · exact h.ground u hu
      · rw [List.mem_singleton] at hu
        exact hu ▸ ht

theorem Consistent.erase {s : Store} (h : s.Consistent) (t : Triple) : (s.erase t).Consistent := by
  unfold Store.erase
  split
  · exact ⟨h.nodup.erase t, fun u hu => h.ground u (List.mem_of_mem_erase hu),
      h.bySubject.remove t, h.byPredicate.remove t, h.byObject.remove t⟩
  · exact h

theorem Built.consistent {s : Store} (h : s.Built) : s.Consistent := by
  induction h with
  | empty => exact .empty
  | insert _ ht ih => exact ih.insert ht
  | erase _ t ih => exact ih.erase t

theorem Built.insertAll {s : Store} (h : s.Built) {ts : List Triple}
    (hts : ∀ t ∈ ts, t.isGround) : (s.insertAll ts).Built := by
  unfold Store.insertAll
  induction ts generalizing s with
  | nil => exact h
  | cons t ts ih =>
      rw [List.foldl_cons]
      exact ih (h.insert (hts t (by simp))) fun u hu => hts u (by simp [hu])

theorem mem_insertAll (s : Store) (ts : List Triple) (u : Triple) :
    u ∈ (s.insertAll ts).triples ↔ u ∈ s.triples ∨ u ∈ ts := by
  unfold insertAll
  induction ts generalizing s with
  | nil => simp
  | cons t ts ih => rw [List.foldl_cons, ih, mem_insert, List.mem_cons, or_assoc]

theorem built_ofList {ts : List Triple} (hts : ∀ t ∈ ts, t.isGround) : (ofList ts).Built :=
  Built.empty.insertAll hts

/-! ## Finding the instances of a pattern -/

/-- Candidates, narrowed or not, still hold all instances of a pattern, in order. -/
def Retains (p : Triple) (ts : List Triple) (best : Option (List Triple)) : Prop :=
  (best.getD ts).filter p.matches? = ts.filter p.matches?

theorem retains_narrow {i : Index Triple} {term : Triple → Term} {ts : List Triple}
    (hi : i.Files term ts) {p : Triple} {key : Term} {best : Option (List Triple)}
    (hkey : key.isGround → ∀ t, p.matches? t → term t = key) (hbest : Retains p ts best) :
    Retains p ts (narrow i key best) := by
  unfold narrow
  by_cases hground : key.isGround
  · have hbucket : Retains p ts (some (i.get key)) := by
      rw [Retains, Option.getD_some, hi.get_eq, List.filter_filter]
      apply List.filter_congr
      intro t _
      cases hmatch : p.matches? t with
      | false => simp
      | true => simp [hkey hground t hmatch]
    simp only [hground, Bool.not_true, Bool.false_eq_true, if_false]
    cases best with
    | none => exact hbucket
    | some b =>
        dsimp only
        split
        · exact hbucket
        · exact hbest
  · simpa [hground] using hbest

theorem term_eq_of_matches? {p t : Triple} (h : p.matches? t) :
    (p.subject.isGround → t.subject = p.subject) ∧
      (p.predicate.isGround → t.predicate = p.predicate) ∧
        (p.object.isGround → t.object = p.object) := by
  obtain ⟨σ, rfl⟩ := (Triple.matches?_iff p t).mp h
  exact ⟨fun hg => Term.mapVars_of_isGround hg σ, fun hg => Term.mapVars_of_isGround hg σ,
    fun hg => Term.mapVars_of_isGround hg σ⟩

theorem Consistent.filter_candidates {s : Store} (h : s.Consistent) (p : Triple) :
    (s.candidates p).filter p.matches? = s.triples.filter p.matches? := by
  have hnone : Retains p s.triples none := rfl
  have hsubject := retains_narrow h.bySubject
    (fun hg t ht => (term_eq_of_matches? ht).1 hg) hnone
  have hpredicate := retains_narrow h.byPredicate
    (fun hg t ht => (term_eq_of_matches? ht).2.1 hg) hsubject
  have hobject := retains_narrow h.byObject
    (fun hg t ht => (term_eq_of_matches? ht).2.2 hg) hpredicate
  exact hobject

/-- Look-up finds the instances of a pattern, in the order in which they came. -/
theorem Consistent.find_eq {s : Store} (h : s.Consistent) (p : Triple) :
    s.find p = s.triples.filter p.matches? := by
  unfold find
  split
  · rename_i hp
    have hmatches : ∀ t, p.matches? t = decide (t = p) := fun t => by
      rw [Bool.eq_iff_iff, Triple.matches?_iff_eq_of_isGround hp, decide_eq_true_iff, eq_comm]
    rw [List.filter_congr fun t _ => hmatches t, List.filter_eq, h.nodup.count]
    by_cases hmem : p ∈ s.triples <;> simp [contains, hmem]
  · exact h.filter_candidates p

theorem Built.mem_find {s : Store} (h : s.Built) (p t : Triple) :
    t ∈ s.find p ↔ t ∈ s.triples ∧ p.matches? t := by
  rw [h.consistent.find_eq, List.mem_filter]

end Store

namespace Sources

structure Built (s : Sources) : Prop where
  raw : s.raw.Built
  schema : s.schema.Built
  deductions : s.deductions.Built

theorem contains_iff (s : Sources) (t : Triple) :
    s.contains t ↔ t ∈ s.raw.triples ∨ t ∈ s.schema.triples ∨ t ∈ s.deductions.triples := by
  simp [contains, Store.contains_iff, or_assoc]

theorem Built.isGround {s : Sources} (h : s.Built) {t : Triple} (ht : s.contains t) :
    t.isGround := by
  rcases (contains_iff s t).mp ht with ht | ht | ht
  · exact h.raw.consistent.ground t ht
  · exact h.schema.consistent.ground t ht
  · exact h.deductions.consistent.ground t ht

/-- The instances of a pattern are found in all three stores. -/
theorem Built.mem_find {s : Sources} (h : s.Built) (p t : Triple) :
    t ∈ s.find p ↔ s.contains t ∧ p.matches? t := by
  simp only [find, List.mem_append, List.mem_filter, h.raw.mem_find, h.schema.mem_find,
    h.deductions.mem_find, contains_iff, Bool.not_eq_true', ← Bool.not_eq_true,
    Bool.or_eq_true, Store.contains_iff]
  tauto

/-- A triple that lies in several stores is found once. -/
theorem Built.nodup_find {s : Sources} (h : s.Built) (p : Triple) : (s.find p).Nodup := by
  have hstore : ∀ {u : Store}, u.Built → (u.find p).Nodup := fun hu => by
    rw [hu.consistent.find_eq]
    exact hu.consistent.nodup.filter _
  have hschema : (s.raw.find p).Disjoint
      ((s.schema.find p).filter fun t => !s.raw.contains t) := by
    intro t ht ht'
    have hraw := (s.raw.contains_iff t).mpr ((h.raw.mem_find p t).mp ht).1
    simp [hraw] at ht'
  have hdeductions : (s.raw.find p ++ (s.schema.find p).filter fun t => !s.raw.contains t).Disjoint
      ((s.deductions.find p).filter fun t => !(s.raw.contains t || s.schema.contains t)) := by
    intro t ht ht'
    have hin : s.raw.contains t || s.schema.contains t := by
      rw [Bool.or_eq_true, s.raw.contains_iff, s.schema.contains_iff]
      rcases List.mem_append.mp ht with ht | ht
      · exact .inl ((h.raw.mem_find p t).mp ht).1
      · exact .inr ((h.schema.mem_find p t).mp (List.mem_of_mem_filter ht)).1
    rw [List.mem_filter, hin] at ht'
    exact Bool.false_ne_true ht'.2
  have hraw := (hstore h.raw).append ((hstore h.schema).filter _) hschema
  exact hraw.append ((hstore h.deductions).filter _) hdeductions

end Sources

end TripleRules
