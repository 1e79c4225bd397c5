import Mathlib.Data.List.Basic
import Mathlib.Logic.Relation
import Mathlib.Order.WellFounded
import TripleRules.Derivation.Log

/-!
# Logs of derivations

A log has one entry for each conclusion, and what is recorded first for a conclusion stays first.  A
log is founded if the first derivation of each conclusion uses neither that conclusion nor any that
was recorded after it.  First derivations can then be followed from conclusion to premise only so
far, and the way ends at a triple that was given or at a rule that needs none.
-/

namespace TripleRules

def Rule.patterns (r : Rule) : List Triple :=
  r.body.filterMap fun
    | .pattern t => some t
    | .call .. => none

theorem Rule.isAxiom_iff_patterns (r : Rule) : r.isAxiom ↔ r.patterns = [] := by
  rw [Rule.isAxiom, List.all_eq_true, Rule.patterns, List.filterMap_eq_nil_iff]
  refine forall₂_congr fun c _ => ?_
  cases c <;> simp [Clause.isCall]

/-- A derivation is an instance of its rule.  The same substitution turns a head pattern, which is
all of the head if the rule proves goals, into the conclusion and the patterns of the body into the
premises. -/
def Derivation.IsInstance (d : Derivation) : Prop :=
  ∃ (σ : Variable → Term) (h : Triple), .pattern h ∈ d.rule.head ∧
    (d.rule.direction.isBackward → d.rule.head = [.pattern h]) ∧ h.mapVars σ = d.conclusion ∧
      d.premises.Perm (d.rule.patterns.map (Triple.mapVars σ))

theorem Derivation.IsInstance.isAxiom {d : Derivation} (h : d.IsInstance) (hd : d.premises = []) :
    d.rule.isAxiom := by
  obtain ⟨σ, -, -, -, -, hperm⟩ := h
  rw [hd, List.nil_perm, List.map_eq_nil_iff] at hperm
  exact d.rule.isAxiom_iff_patterns.mpr hperm

abbrev LogEntry := Triple × List Derivation

namespace DerivationLog

variable {log log' : DerivationLog} {d : Derivation} {t : Triple}

def conclusions (log : DerivationLog) : List Triple := log.entries.map (·.1)

/-! ## Recording -/

def amend (d : Derivation) (e : LogEntry) : LogEntry :=
  if e.1 = d.conclusion then (e.1, if d ∈ e.2 then e.2 else e.2 ++ [d]) else e

@[simp] theorem fst_amend (d : Derivation) (e : LogEntry) : (amend d e).1 = e.1 := by
  unfold amend
  split <;> rfl

theorem amend_of_ne {e : LogEntry} (h : e.1 ≠ d.conclusion) : amend d e = e := if_neg h

theorem head?_amend {e : LogEntry} (h : e.2 ≠ []) : (amend d e).2.head? = e.2.head? := by
  unfold amend
  split
  · dsimp only
    split
    · rfl
    · exact List.head?_append_of_ne_nil _ h
  · rfl

theorem mem_amend {e : LogEntry} {d' : Derivation} (h : d' ∈ (amend d e).2) :
    d' ∈ e.2 ∨ d' = d ∧ e.1 = d.conclusion := by
  unfold amend at h
  split at h
  · rename_i heq
    dsimp only at h
    split at h
    · exact .inl h
    · rcases List.mem_append.mp h with h | h
      · exact .inl h
      · exact .inr ⟨List.mem_singleton.mp h, heq⟩
  · exact .inl h

theorem amend_ne_nil {e : LogEntry} (h : e.2 ≠ []) : (amend d e).2 ≠ [] := by
  intro hnil
  rw [← List.head?_eq_none_iff, head?_amend h, List.head?_eq_none_iff] at hnil
  exact h hnil

theorem record_of_not_mem (h : d.conclusion ∉ log.conclusions) :
    (log.record d).entries = log.entries ++ [(d.conclusion, [d])] := by
  obtain ⟨es⟩ := log
  unfold record conclusions at *
  dsimp only at *
  induction es with
  | nil => rfl
  | cons e es ih =>
      rw [List.map_cons, List.mem_cons, not_or] at h
      rw [recordIn, if_neg (Ne.symm h.1), ih h.2, List.cons_append]

theorem record_of_mem (hnodup : log.conclusions.Nodup) (h : d.conclusion ∈ log.conclusions) :
    (log.record d).entries = log.entries.map (amend d) := by
  obtain ⟨es⟩ := log
  unfold record conclusions at *
  dsimp only at *
  induction es with
  | nil => cases h
  | cons e es ih =>
      rw [List.map_cons, List.nodup_cons] at hnodup
      rw [List.map_cons, recordIn]
      by_cases heq : e.1 = d.conclusion
      · have hrest : es.map (amend d) = es.map id := by
          refine List.map_congr_left fun e' he' => amend_of_ne fun heq' => hnodup.1 ?_
          rw [heq, ← heq']
          exact List.mem_map_of_mem he'
        rw [if_pos heq, hrest, List.map_id, amend, if_pos heq]
      · have hmem := (List.mem_cons.mp h).resolve_left (Ne.symm heq)
        rw [if_neg heq, ih hnodup.2 hmem, amend_of_ne heq]

theorem conclusions_record (hnodup : log.conclusions.Nodup) (d : Derivation) :
    (log.record d).conclusions =
      if d.conclusion ∈ log.conclusions then log.conclusions
      else log.conclusions ++ [d.conclusion] := by
  unfold conclusions
  split
  · rename_i hmem
    rw [record_of_mem hnodup hmem, List.map_map]
    exact List.map_congr_left fun e _ => fst_amend d e
  · rename_i hmem
    rw [record_of_not_mem hmem, List.map_append]
    rfl

theorem mem_conclusions_record (log : DerivationLog) (d : Derivation) (t : Triple) :
    t ∈ (log.record d).conclusions ↔ t ∈ log.conclusions ∨ t = d.conclusion := by
  obtain ⟨es⟩ := log
  unfold record conclusions
  dsimp only
  induction es with
  | nil => simp [recordIn]
  | cons e es ih =>
      rw [recordIn]
      split
      · rename_i heq
        simp only [List.map_cons, List.mem_cons, ← heq, or_assoc]
        exact ⟨fun h => h.imp_right .inl, fun h => h.elim .inl fun h => h.elim .inr .inl⟩
      · simp only [List.map_cons, List.mem_cons, ih, or_assoc]

def All (Q : Derivation → Prop) (log : DerivationLog) : Prop := ∀ d ∈ log.toList, Q d

theorem mem_toList_record {d' : Derivation} (h : d' ∈ (log.record d).toList) :
    d' ∈ log.toList ∨ d' = d := by
  obtain ⟨es⟩ := log
  unfold record toList at *
  dsimp only at *
  induction es with
  | nil => simpa [recordIn] using h
  | cons e es ih =>
      obtain ⟨t, ds⟩ := e
      rw [List.flatMap_cons, List.mem_append]
      rw [recordIn] at h
      split at h
      · rw [List.flatMap_cons, List.mem_append] at h
        dsimp only at h
        rcases h with h | h
        · split at h
          · exact .inl (.inl h)
          · rcases List.mem_append.mp h with h | h
            · exact .inl (.inl h)
            · exact .inr (List.mem_singleton.mp h)
        · exact .inl (.inr h)
      · rw [List.flatMap_cons, List.mem_append] at h
        rcases h with h | h
        · exact .inl (.inl h)
        · exact (ih h).imp_left .inr

theorem All.record {Q : Derivation → Prop} (h : log.All Q) (hd : Q d) : (log.record d).All Q := by
  intro d' hd'
  rcases mem_toList_record hd' with hd' | rfl
  · exact h d' hd'
  · exact hd

theorem all_empty (Q : Derivation → Prop) : empty.All Q := fun _ hd => absurd hd List.not_mem_nil

/-! ## Looking up -/

theorem get_eq_nil (h : t ∉ log.conclusions) : log.get t = [] := by
  have hnone : log.entries.lookup t = none := by
    rw [List.lookup_eq_none_iff]
    intro e he
    exact bne_iff_ne.mpr fun heq => h (heq ▸ List.mem_map_of_mem he)
  rw [get, hnone, Option.getD_none]

theorem get_eq_of_mem (hnodup : log.conclusions.Nodup) {ds : List Derivation}
    (h : (t, ds) ∈ log.entries) : log.get t = ds := by
  obtain ⟨before, after, heq⟩ := List.append_of_mem h
  have hlookup : log.entries.lookup t = some ds := by
    refine List.lookup_eq_some_iff.mpr ⟨before, after, heq, fun e he => ?_⟩
    unfold conclusions at hnodup
    rw [heq, List.map_append, List.map_cons, List.nodup_append] at hnodup
    exact bne_iff_ne.mpr fun hte => hnodup.2.2 e.1
      (List.mem_map_of_mem he) t List.mem_cons_self hte.symm
  rw [get, hlookup, Option.getD_some]

def ofList (ds : List Derivation) : DerivationLog := ds.foldl record empty

theorem get_cons (e : LogEntry) (es : List LogEntry) (t : Triple) :
    get ⟨e :: es⟩ t = if e.1 = t then e.2 else get ⟨es⟩ t := by
  rw [get, List.lookup_cons]
  by_cases h : e.1 = t
  · rw [if_pos h, h, beq_self_eq_true, Option.getD_some]
  · rw [if_neg h, beq_false_of_ne (Ne.symm h), get]

theorem get_record (log : DerivationLog) (d : Derivation) (t : Triple) :
    (log.record d).get t =
      if d.conclusion = t ∧ d ∉ log.get t then log.get t ++ [d] else log.get t := by
  obtain ⟨es⟩ := log
  unfold record
  dsimp only
  induction es with
  | nil =>
      rw [recordIn, get_cons]
      simp [get]
  | cons e es ih =>
      obtain ⟨u, ds⟩ := e
      rw [recordIn, get_cons]
      by_cases hu : u = d.conclusion
      · subst hu
        rw [if_pos rfl, get_cons]
        by_cases ht : d.conclusion = t
        · by_cases hd : d ∈ ds <;> simp [ht, hd]
        · simp [ht]
      · rw [if_neg hu, get_cons, ih]
        by_cases ht : u = t
        · simp [ht, ht ▸ Ne.symm hu]
        · simp [ht]

theorem head?_get_ofList (ds : List Derivation) (t : Triple) :
    ((ofList ds).get t).head? = ds.find? (·.conclusion = t) := by
  suffices h : ∀ log : DerivationLog, ((ds.foldl record log).get t).head? =
      (log.get t).head?.or (ds.find? (·.conclusion = t)) from h empty
  induction ds with
  | nil =>
      intro log
      rw [List.foldl_nil, List.find?_nil, Option.or_none]
  | cons d ds ih =>
      intro log
      rw [List.foldl_cons, ih, get_record, List.find?_cons]
      by_cases ht : d.conclusion = t
      · -- Either the triple had a derivation before, or this one is the first.
        cases hget : log.get t with
        | nil => simp [ht]
        | cons d' ds' => split <;> simp
      · simp [ht]

theorem get_ofList_eq_nil_iff (ds : List Derivation) (t : Triple) :
    (ofList ds).get t = [] ↔ ∀ d ∈ ds, d.conclusion ≠ t := by
  rw [← List.head?_eq_none_iff, head?_get_ofList, List.find?_eq_none]
  exact forall₂_congr fun d _ => not_congr decide_eq_true_iff

def append (log log' : DerivationLog) : DerivationLog := ⟨log.entries ++ log'.entries⟩

theorem conclusions_append (log log' : DerivationLog) :
    (log.append log').conclusions = log.conclusions ++ log'.conclusions := List.map_append

/-- Logs without a conclusion in common are read as one. -/
theorem get_append (h : ∀ t ∈ log'.conclusions, t ∉ log.conclusions) (t : Triple) :
    (log.append log').get t = log.get t ++ log'.get t := by
  have hlookup : (log.append log').entries.lookup t =
      (log.entries.lookup t).or (log'.entries.lookup t) := List.lookup_append
  by_cases hmem : t ∈ log.conclusions
  · rw [get_eq_nil fun hmem' => h t hmem' hmem, List.append_nil, get, hlookup, get]
    obtain ⟨e, he, rfl⟩ := List.mem_map.mp hmem
    cases hget : log.entries.lookup e.1 with
    | some ds => rw [Option.some_or]
    | none =>
        rw [List.lookup_eq_none_iff] at hget
        simpa using hget e he
  · have hnone : log.entries.lookup t = none := by
      rw [List.lookup_eq_none_iff]
      intro e he
      exact bne_iff_ne.mpr fun heq => hmem (heq ▸ List.mem_map_of_mem he)
    rw [get_eq_nil hmem, List.nil_append, get, hlookup, hnone, Option.none_or, get]

def rank (log : DerivationLog) (t : Triple) : Nat :=
  if t ∈ log.conclusions then log.conclusions.idxOf t + 1 else 0

theorem exists_entry (ht : t ∈ log.conclusions) :
    ∃ h : log.conclusions.idxOf t < log.entries.length,
      (log.entries[log.conclusions.idxOf t]).1 = t := by
  have hlt : log.conclusions.idxOf t < (log.entries.map (·.1)).length :=
    List.idxOf_lt_length_of_mem ht
  have hlt' : log.conclusions.idxOf t < log.entries.length := by
    rw [List.length_map] at hlt
    exact hlt
  have hget : (log.entries.map (·.1))[log.conclusions.idxOf t] = t := List.getElem_idxOf hlt
  rw [List.getElem_map] at hget
  exact ⟨hlt', hget⟩

/-! ## Founded logs -/

/-- A triple is a premise of the first of these derivations. -/
def IsPremise (t : Triple) (ds : List Derivation) : Prop := ∃ d ∈ ds.head?, t ∈ d.premises

theorem mem_conclusions_of_isPremise {p : Triple} (h : IsPremise p (log.get t)) :
    t ∈ log.conclusions := by
  by_contra hnot
  obtain ⟨d, hd, -⟩ := h
  rw [get_eq_nil hnot] at hd
  cases hd

/-- Every derivation is an instance of its rule, from what is given or concluded; and no first
derivation uses its own conclusion or one that was recorded later. -/
structure Founded (given : Triple → Prop) (log : DerivationLog) : Prop where
  nodup : log.conclusions.Nodup
  derived : ∀ e ∈ log.entries, e.2 ≠ []
  concludes : ∀ e ∈ log.entries, ∀ d ∈ e.2, d.conclusion = e.1
  instances : ∀ e ∈ log.entries, ∀ d ∈ e.2, d.IsInstance
  premises : ∀ e ∈ log.entries, ∀ d ∈ e.2, ∀ p ∈ d.premises, given p ∨ p ∈ log.conclusions
  own : ∀ e ∈ log.entries, ¬ IsPremise e.1 e.2
  order : log.entries.Pairwise fun e e' => ¬ IsPremise e'.1 e.2

namespace Founded

variable {given given' : Triple → Prop}

theorem empty (given : Triple → Prop) : DerivationLog.empty.Founded given where
  nodup := List.nodup_nil
  derived _ he := absurd he List.not_mem_nil
  concludes _ he := absurd he List.not_mem_nil
  instances _ he := absurd he List.not_mem_nil
  premises _ he := absurd he List.not_mem_nil
  own _ he := absurd he List.not_mem_nil
  order := .nil

theorem mono (h : log.Founded given) (hgiven : ∀ t, given t → given' t) : log.Founded given' :=
  { h with premises := fun e he d hd p hp => (h.premises e he d hd p hp).imp_left (hgiven p) }

theorem closed (h : log.Founded given) {e : LogEntry} (he : e ∈ log.entries)
    (ht : IsPremise t e.2) : given t ∨ t ∈ log.conclusions := by
  obtain ⟨d, hd, ht⟩ := ht
  exact h.premises e he d (List.mem_of_mem_head? hd) t ht

theorem single (hd : d.IsInstance) (hpremises : ∀ p ∈ d.premises, given p)
    (hown : ¬ given d.conclusion) : Founded given ⟨[(d.conclusion, [d])]⟩ where
  nodup := List.pairwise_singleton _ _
  derived := List.forall_mem_singleton.mpr (List.cons_ne_nil _ _)
  concludes := List.forall_mem_singleton.mpr (List.forall_mem_singleton.mpr rfl)
  instances := List.forall_mem_singleton.mpr (List.forall_mem_singleton.mpr hd)
  premises := List.forall_mem_singleton.mpr
    (List.forall_mem_singleton.mpr fun p hp => .inl (hpremises p hp))
  own := by
    refine List.forall_mem_singleton.mpr ?_
    rintro ⟨d', hd', hp⟩
    obtain rfl : d = d' := Option.some.inj hd'
    exact hown (hpremises _ hp)
  order := List.pairwise_singleton _ _

theorem record_again (h : log.Founded given) (hd : d.IsInstance)
    (hpremises : ∀ p ∈ d.premises, given p ∨ p ∈ log.conclusions)
    (hmem : d.conclusion ∈ log.conclusions) : (log.record d).Founded given := by
  have hconclusions : (log.record d).conclusions = log.conclusions := by
    rw [conclusions_record h.nodup, if_pos hmem]
  have hfirst : ∀ e ∈ log.entries, ∀ t, IsPremise t (amend d e).2 ↔ IsPremise t e.2 := by
    intro e he t
    unfold IsPremise
    rw [head?_amend (h.derived e he)]
  refine ⟨hconclusions ▸ h.nodup, ?_, ?_, ?_, ?_, ?_, ?_⟩
  all_goals rw [record_of_mem h.nodup hmem]
  · simp only [List.forall_mem_map]
    exact fun e he => amend_ne_nil (h.derived e he)
  · simp only [List.forall_mem_map, fst_amend]
    intro e he d' hd'
    rcases mem_amend hd' with hd' | ⟨rfl, heq⟩
    · exact h.concludes e he d' hd'
    · exact heq.symm
  · simp only [List.forall_mem_map]
    intro e he d' hd'
    rcases mem_amend hd' with hd' | ⟨rfl, -⟩
    · exact h.instances e he d' hd'
    · exact hd
  · simp only [List.forall_mem_map, hconclusions]
    intro e he d' hd'
    rcases mem_amend hd' with hd' | ⟨rfl, -⟩
    · exact h.premises e he d' hd'
    · exact hpremises
  · simp only [List.forall_mem_map, fst_amend]
    exact fun e he hown => h.own e he ((hfirst e he e.1).mp hown)
  · rw [List.pairwise_map]
    refine h.order.imp_of_mem fun {e e'} he _ hno hyes => hno ?_
    rw [fst_amend] at hyes
    exact (hfirst e he e'.1).mp hyes

/-- Founded logs are one founded log if the second may use what the first concludes, and concludes
nothing that the first was given or has concluded. -/
theorem append {between : Triple → Prop} (h : log.Founded given) (h' : log'.Founded between)
    (hgiven : ∀ t, given t → given' t)
    (hbetween : ∀ t, between t → given' t ∨ t ∈ log.conclusions)
    (hapart : ∀ t ∈ log'.conclusions, ¬ given t ∧ t ∉ log.conclusions) :
    (log.append log').Founded given' where
  nodup := by
    rw [conclusions_append, List.nodup_append]
    refine ⟨h.nodup, h'.nodup, fun t ht u hu heq => (hapart u hu).2 ?_⟩
    rw [← heq]
    exact ht
  derived := List.forall_mem_append.mpr ⟨h.derived, h'.derived⟩
  concludes := List.forall_mem_append.mpr ⟨h.concludes, h'.concludes⟩
  instances := List.forall_mem_append.mpr ⟨h.instances, h'.instances⟩
  premises := by
    rw [conclusions_append]
    refine List.forall_mem_append.mpr ⟨fun e he d hd p hp => ?_, fun e he d hd p hp => ?_⟩
    · rw [List.mem_append]
      exact (h.premises e he d hd p hp).imp (hgiven p) .inl
    · rw [List.mem_append]
      rcases h'.premises e he d hd p hp with hp | hp
      · exact (hbetween p hp).imp_right .inl
      · exact .inr (.inr hp)
  own := List.forall_mem_append.mpr ⟨h.own, h'.own⟩
  order := by
    refine List.pairwise_append.mpr ⟨h.order, h'.order, fun e he e' he' hyes => ?_⟩
    obtain ⟨hnot, hnot'⟩ := hapart e'.1 (List.mem_map_of_mem he')
    exact (h.closed he hyes).elim hnot hnot'

/-- A log stays founded when a derivation is recorded, unless the conclusion is new and given. -/
theorem record (h : log.Founded given) (hd : d.IsInstance)
    (hpremises : ∀ p ∈ d.premises, given p ∨ p ∈ log.conclusions)
    (hnew : d.conclusion ∈ log.conclusions ∨ ¬ given d.conclusion) :
    (log.record d).Founded given := by
  by_cases hmem : d.conclusion ∈ log.conclusions
  · exact h.record_again hd hpremises hmem
  · -- The conclusion is neither given nor concluded, so a log of its own may follow.
    have hout : ¬ (given d.conclusion ∨ d.conclusion ∈ log.conclusions) :=
      not_or.mpr ⟨hnew.resolve_left hmem, hmem⟩
    have hbehind : log.record d = log.append ⟨[(d.conclusion, [d])]⟩ := by
      rw [DerivationLog.append, ← record_of_not_mem hmem]
    rw [hbehind]
    refine h.append (single hd hpremises hout) (fun _ ht => ht) (fun _ ht => ht) fun t ht => ?_
    rw [List.mem_singleton.mp ht]
    exact not_or.mp hout

/-! ## Following first derivations -/

theorem exists_first (h : log.Founded given) (ht : t ∈ log.conclusions) :
    ∃ d ds, log.get t = d :: ds ∧ d.conclusion = t ∧ d.IsInstance ∧
      ∀ p ∈ d.premises, given p ∨ p ∈ log.conclusions := by
  obtain ⟨⟨u, ds⟩, he, rfl⟩ := List.mem_map.mp ht
  have hget := get_eq_of_mem h.nodup he
  cases ds with
  | nil => exact absurd rfl (h.derived _ he)
  | cons d ds =>
      exact ⟨d, ds, hget, h.concludes _ he d List.mem_cons_self,
        h.instances _ he d List.mem_cons_self, h.premises _ he d List.mem_cons_self⟩

theorem rank_lt (h : log.Founded given) {p : Triple} (hp : IsPremise p (log.get t)) :
    log.rank p < log.rank t := by
  have ht := mem_conclusions_of_isPremise hp
  unfold rank
  rw [if_pos ht]
  split
  · rename_i hmem
    obtain ⟨hlt, hfst⟩ := exists_entry ht
    obtain ⟨hlt', hfst'⟩ := exists_entry hmem
    generalize log.conclusions.idxOf t = i at hlt hfst
    generalize log.conclusions.idxOf p = j at hlt' hfst'
    have hin := List.getElem_mem hlt
    have hget : log.get t = log.entries[i].2 := get_eq_of_mem h.nodup (hfst ▸ hin)
    rw [hget] at hp
    rcases Nat.lt_trichotomy j i with hji | rfl | hij
    · exact Nat.succ_lt_succ hji
    · rw [← hfst'] at hp
      exact absurd hp (h.own _ hin)
    · rw [← hfst'] at hp
      exact absurd hp (List.pairwise_iff_getElem.mp h.order i j hlt hlt' hij)
  · exact Nat.succ_pos _

theorem wellFounded (h : log.Founded given) :
    WellFounded fun p t => IsPremise p (log.get t) :=
  Subrelation.wf (fun hp => h.rank_lt hp) (measure log.rank).wf

theorem reaches (h : log.Founded given) (ht : t ∈ log.conclusions) {u : Triple}
    (hpath : Relation.ReflTransGen (fun t p => IsPremise p (log.get t)) t u) :
    given u ∨ u ∈ log.conclusions := by
  induction hpath with
  | refl => exact .inr ht
  | tail _ hstep _ =>
      obtain ⟨d, ds, hget, -, -, hpremises⟩ := h.exists_first (mem_conclusions_of_isPremise hstep)
      obtain ⟨d', hd', hw⟩ := hstep
      rw [hget] at hd'
      obtain rfl : d = d' := Option.some.inj hd'
      exact hpremises _ hw

/-- Where first derivations end, a triple is given, or it is concluded by a rule without patterns.
-/
theorem ends (h : log.Founded given) (ht : t ∈ log.conclusions) {u : Triple}
    (hpath : Relation.ReflTransGen (fun t p => IsPremise p (log.get t)) t u)
    (hend : ∀ p, ¬ IsPremise p (log.get u)) :
    given u ∨ ∃ d ds, log.get u = d :: ds ∧ d.conclusion = u ∧ d.rule.isAxiom := by
  refine (h.reaches ht hpath).imp_right fun hu => ?_
  obtain ⟨d, ds, hget, hconclusion, hinstance, -⟩ := h.exists_first hu
  have hnone : d.premises = [] := by
    rw [List.eq_nil_iff_forall_not_mem]
    intro p hp
    refine hend p ?_
    rw [hget]
    exact ⟨d, rfl, hp⟩
  exact ⟨d, ds, hget, hconclusion, hinstance.isAxiom hnone⟩

end Founded

end DerivationLog

end TripleRules
