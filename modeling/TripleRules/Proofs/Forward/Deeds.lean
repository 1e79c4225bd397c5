import TripleRules.Proofs.Forward.Growth
import TripleRules.Tabling.Basic

/-!
# Deeds of the engine

Chaining consists of a few deeds: triples are put on the agenda and taken from it, and rules are
entered, those without patterns in front, any other at a clause that matches a triple which has been
on the agenda.  Here it is said once what a deed can do, whatever comes before it.  What every deed
keeps is kept by each call, whose deeds come in an order of their own.
-/

namespace TripleRules.Forward.Engine

open Tabling (Cursor)

/-- What has been done: the bodies that were completed and handed on to be fired, the triples that
chaining was asked to begin with, all that were pushed on the agenda, and those that were taken from
it. -/
@[ext] structure Deeds where
  completed : List Firing := []
  asserted : List Triple := []
  pushed : List Triple := []
  taken : List Triple := []

namespace Deeds

instance : Append Deeds where
  append w w' := ⟨w.completed ++ w'.completed, w.asserted ++ w'.asserted, w.pushed ++ w'.pushed,
    w.taken ++ w'.taken⟩

variable (w w' w'' : Deeds)

@[simp] theorem completed_append : (w ++ w').completed = w.completed ++ w'.completed := rfl

@[simp] theorem asserted_append : (w ++ w').asserted = w.asserted ++ w'.asserted := rfl

@[simp] theorem pushed_append : (w ++ w').pushed = w.pushed ++ w'.pushed := rfl

@[simp] theorem taken_append : (w ++ w').taken = w.taken ++ w'.taken := rfl

theorem append_empty : w ++ {} = w := by
  ext1 <;> simp

theorem append_fired (fs : List Firing) (ts : List Triple) :
    w ++ { completed := fs, pushed := ts } =
      { w with completed := w.completed ++ fs, pushed := w.pushed ++ ts } := by
  ext1 <;> simp

theorem append_asserted (ts : List Triple) :
    w ++ { asserted := ts, pushed := ts } =
      { w with asserted := w.asserted ++ ts, pushed := w.pushed ++ ts } := by
  ext1 <;> simp

theorem append_taken (t : Triple) :
    w ++ { taken := [t] } = { w with taken := w.taken ++ [t] } := by
  ext1 <;> simp

theorem append_assoc : w ++ w' ++ w'' = w ++ (w' ++ w'') := by
  ext1 <;> simp

end Deeds

/-- The ways into a forward rule when triples have been on the agenda. -/
inductive Opens (e : Engine) (seen : List Triple) : Cursor → Prop where
  | front {r : CheckedRule} (h : r ∈ e.base.unconditional) :
      Opens e seen ⟨r, .empty r.slots, r.body, []⟩
  | trigger {t : Triple} {tr : Trigger} {env : Bindings} (ht : t ∈ seen)
      (htr : tr ∈ e.base.triggersFor t.predicate)
      (hmatch : (Bindings.empty tr.rule.slots).match? tr.pattern t = some env) :
      Opens e seen ⟨tr.rule, env, tr.rest, if e.record then [t] else []⟩

def matching (e : Engine) (d : Data) (c : Cursor) (fresh : Nat) : Matching :=
  complete (e.sources d) c.rule e.record c.rest c.env c.premises (.start fresh)

def entered (e : Engine) (d : Data) (c : Cursor) (fresh : Nat) : Outcome :=
  (e.matchAndFire d c.rule c.rest c.env c.premises fresh).1

/-- From an engine to an outcome by deeds in any order.  Triples are pushed on the agenda and taken
from its front; when the limit on firings has been met, the agenda is dropped.  A rule is entered,
and what its bodies conclude is pushed; or a builtin gives up while they are matched, and that is the
end. -/
inductive Proceeds (d : Data) (e : Engine) (start : Nat) : Deeds → Outcome → Prop where
  | start : Proceeds d e start {} ⟨e, start, none⟩
  | assert {w : Deeds} {e' : Engine} {fresh : Nat}
      (h : Proceeds d e start w ⟨e', fresh, none⟩) (ts : List Triple) :
      Proceeds d e start { w with asserted := w.asserted ++ ts, pushed := w.pushed ++ ts }
        ⟨{ e' with agenda := e'.agenda ++ ts }, fresh, none⟩
  | pop {w : Deeds} {e' : Engine} {fresh : Nat} (h : Proceeds d e start w ⟨e', fresh, none⟩)
      {t : Triple} {rest : List Triple} (hagenda : e'.agenda = t :: rest) :
      Proceeds d e start { w with taken := w.taken ++ [t] } ⟨{ e' with agenda := rest }, fresh, none⟩
  | drop {w : Deeds} {e' : Engine} {fresh : Nat} (h : Proceeds d e start w ⟨e', fresh, none⟩)
      (hlimit : e'.stats.thresholdExceeded) :
      Proceeds d e start w ⟨{ e' with agenda := [] }, fresh, none⟩
  | enter {w : Deeds} {e' : Engine} {fresh : Nat} (h : Proceeds d e start w ⟨e', fresh, none⟩)
      {c : Cursor} (hc : e'.Opens (e.agenda ++ w.pushed) c)
      (hfault : (e'.matching d c fresh).fault = none) {ts : List Triple}
      (hts : (e'.entered d c fresh).engine.deductions.triples = e'.deductions.triples ++ ts) :
      Proceeds d e start
        { w with
          completed := w.completed ++ (e'.matching d c fresh).firings
          pushed := w.pushed ++ ts }
        (e'.entered d c fresh)
  | broken {w : Deeds} {e' : Engine} {fresh : Nat} (h : Proceeds d e start w ⟨e', fresh, none⟩)
      {c : Cursor} (hc : e'.Opens (e.agenda ++ w.pushed) c)
      (hfault : (e'.matching d c fresh).fault ≠ none) :
      Proceeds d e start w (e'.entered d c fresh)

variable {d : Data} {e e' e'' : Engine} {ts ts' : List Triple}

/-! ## Entering a rule -/

def noting (e : Engine) (failures : List BuiltinFailure) : Engine :=
  { e with failures := e.failures ++ failures }

theorem matchAndFire_eq (e : Engine) (d : Data) (c : Cursor) (fresh : Nat) :
    e.matchAndFire d c.rule c.rest c.env c.premises fresh =
      let m := e.matching d c fresh
      match m.fault with
      | some f => (⟨e.noting m.failures, m.fresh, some f⟩, false)
      | none =>
        let fired := fireAll d m.firings (e.noting m.failures)
        (⟨fired.1, m.fresh, none⟩, fired.2) :=
  rfl

theorem entered_of_none {c : Cursor} {fresh : Nat} (h : (e.matching d c fresh).fault = none) :
    e.entered d c fresh = ⟨(fireAll d (e.matching d c fresh).firings
      (e.noting (e.matching d c fresh).failures)).1, (e.matching d c fresh).fresh, none⟩ := by
  rw [entered, matchAndFire_eq]
  simp only [h]

theorem entered_of_some {c : Cursor} {fresh : Nat} {f : Fault}
    (h : (e.matching d c fresh).fault = some f) :
    e.entered d c fresh =
      ⟨e.noting (e.matching d c fresh).failures, (e.matching d c fresh).fresh, some f⟩ := by
  rw [entered, matchAndFire_eq]
  simp only [h]

/-! ## What is deduced -/

/-- An engine has deduced triples, each of them once and none that was at hand. -/
structure Deduces (d : Data) (e : Engine) (ts : List Triple) (e' : Engine) : Prop where
  base : e'.base = e.base
  record : e'.record = e.record
  deductions : e'.deductions.triples = e.deductions.triples ++ ts
  count : e'.stats.deductions = e.stats.deductions + ts.length
  nodup : ts.Nodup
  apart : ∀ t ∈ ts, ¬ (e.sources d).contains t

theorem Deduces.of_eq (hbase : e'.base = e.base) (hrecord : e'.record = e.record)
    (hdeductions : e'.deductions = e.deductions)
    (hcount : e'.stats.deductions = e.stats.deductions) : Deduces d e [] e' where
  base := hbase
  record := hrecord
  deductions := by rw [hdeductions, List.append_nil]
  count := hcount
  nodup := .nil
  apart _ ht := absurd ht List.not_mem_nil

theorem Deduces.refl (e : Engine) : Deduces d e [] e := .of_eq rfl rfl rfl rfl

theorem Deduces.contains_iff (h : Deduces d e ts e') (t : Triple) :
    (e'.sources d).contains t ↔ (e.sources d).contains t ∨ t ∈ ts := by
  simp only [Sources.contains_iff, sources, h.deductions, List.mem_append, or_assoc]

theorem Deduces.trans (h : Deduces d e ts e') (h' : Deduces d e' ts' e'') :
    Deduces d e (ts ++ ts') e'' where
  base := h'.base.trans h.base
  record := h'.record.trans h.record
  deductions := by rw [h'.deductions, h.deductions, List.append_assoc]
  count := by rw [h'.count, h.count, List.length_append, Nat.add_assoc]
  nodup := h.nodup.append h'.nodup fun t ht ht' =>
    h'.apart t ht' ((h.contains_iff t).mpr (.inr ht))
  apart t ht hold := by
    rcases List.mem_append.mp ht with ht | ht
    · exact h.apart t ht hold
    · exact h'.apart t ht ((h.contains_iff t).mpr (.inl hold))

theorem deduces_deduce (d : Data) (e : Engine) (f : Firing) (t : Triple) :
    ∃ ts, Deduces d e ts (e.deduce d f t) ∧ (e.deduce d f t).agenda = e.agenda ++ ts := by
  unfold deduce
  split
  · exact ⟨[], .refl e, (List.append_nil _).symm⟩
  · rename_i hnew
    rw [Bool.or_eq_true, not_or, Bool.not_eq_true', Bool.not_eq_false] at hnew
    refine ⟨[t], ⟨rfl, rfl, ?_, rfl, List.nodup_singleton t, fun u hu => ?_⟩, rfl⟩
    · have hdeductions : ¬ e.deductions.contains t := fun h =>
        hnew.2 ((Sources.contains_iff _ t).mpr (.inr (.inr ((Store.contains_iff _ t).mp h))))
      rw [Store.insert, if_neg hdeductions]
    · rw [List.mem_singleton.mp hu]
      exact hnew.2

theorem deduces_install (d : Data) (e : Engine) (r : Rule) (env : Bindings) :
    Deduces d e [] (e.install r env) ∧ (e.install r env).agenda = e.agenda := by
  unfold install
  split
  · exact ⟨.of_eq rfl rfl rfl rfl, rfl⟩
  · split
    · exact ⟨.refl e, rfl⟩
    · exact ⟨.of_eq rfl rfl rfl rfl, rfl⟩

theorem deduces_fire (d : Data) (e : Engine) (f : Firing) :
    ∃ ts, Deduces d e ts (e.fire d f) ∧ (e.fire d f).agenda = e.agenda ++ ts := by
  refine List.foldlRecOn _ _
    (motive := fun e' => ∃ ts, Deduces d e ts e' ∧ e'.agenda = e.agenda ++ ts)
    ⟨[], .of_eq rfl rfl rfl rfl, (List.append_nil _).symm⟩ ?_
  rintro e' ⟨ts, h, hagenda⟩ c -
  cases c with
  | pattern p =>
      obtain ⟨ts', h', hagenda'⟩ := deduces_deduce d e' f (f.env.instantiate p)
      refine ⟨ts ++ ts', h.trans h', ?_⟩
      rw [← List.append_assoc, ← hagenda]
      exact hagenda'
  | rule r =>
      obtain ⟨h', hagenda'⟩ := deduces_install d e' r f.env
      refine ⟨ts, List.append_nil ts ▸ h.trans h', ?_⟩
      rw [← hagenda]
      exact hagenda'

theorem deduces_fireAll (d : Data) (fs : List Firing) (e : Engine) :
    ∃ ts, Deduces d e ts (fireAll d fs e).1 ∧
      (fireAll d fs e).1.agenda.Sublist (e.agenda ++ ts) := by
  induction fs generalizing e with
  | nil => exact ⟨[], .refl e, by rw [List.append_nil]; exact .refl _⟩
  | cons f fs ih =>
      unfold fireAll
      split
      · exact ⟨[], .of_eq rfl rfl rfl rfl, List.nil_sublist _⟩
      · obtain ⟨ts, h, hagenda⟩ := deduces_fire d e f
        obtain ⟨ts', h', hsub⟩ := ih (e.fire d f)
        refine ⟨ts ++ ts', h.trans h', ?_⟩
        rw [← List.append_assoc, ← hagenda]
        exact hsub

theorem deduces_entered (e : Engine) (d : Data) (c : Cursor) (fresh : Nat) :
    ∃ ts, Deduces d e ts (e.entered d c fresh).engine ∧
      (e.entered d c fresh).engine.agenda.Sublist (e.agenda ++ ts) := by
  cases hfault : (e.matching d c fresh).fault with
  | some f =>
      rw [entered_of_some hfault]
      exact ⟨[], .of_eq rfl rfl rfl rfl, by rw [List.append_nil]; exact .refl _⟩
  | none =>
      rw [entered_of_none hfault]
      obtain ⟨ts, h, hagenda⟩ := deduces_fireAll d (e.matching d c fresh).firings
        (e.noting (e.matching d c fresh).failures)
      exact ⟨ts, ⟨h.base, h.record, h.deductions, h.count, h.nodup, h.apart⟩, hagenda⟩

/-! ## What is pushed -/

namespace Proceeds

variable {start : Nat} {w : Deeds} {o : Outcome}

/-- What is pushed are the triples that chaining was asked to begin with and those that are
deduced. -/
theorem deduces (h : Proceeds d e start w o) :
    ∃ ts, Deduces d e ts o.engine ∧ w.pushed.Perm (w.asserted ++ ts) := by
  induction h with
  | start => exact ⟨[], .refl e, .nil⟩
  | @assert w e' _ _ us ih =>
      obtain ⟨ts, h, hperm⟩ := ih
      refine ⟨ts, ⟨h.base, h.record, h.deductions, h.count, h.nodup, h.apart⟩, ?_⟩
      have hswap : (w.asserted ++ ts ++ us).Perm (w.asserted ++ us ++ ts) := by
        rw [List.append_assoc, List.append_assoc]
        exact List.perm_append_comm.append_left _
      exact (hperm.append_right us).trans hswap
  | pop | drop =>
      rename_i ih
      obtain ⟨ts, h, hperm⟩ := ih
      exact ⟨ts, ⟨h.base, h.record, h.deductions, h.count, h.nodup, h.apart⟩, hperm⟩
  | @enter w e' fresh _ c _ _ us hus ih =>
      obtain ⟨ts, h, hperm⟩ := ih
      obtain ⟨ts', h', -⟩ := deduces_entered e' d c fresh
      obtain rfl : us = ts' := List.append_cancel_left (hus.symm.trans h'.deductions)
      refine ⟨ts ++ us, h.trans h', ?_⟩
      rw [← List.append_assoc]
      exact hperm.append_right us
  | @broken w e' fresh _ c _ hfault ih =>
      obtain ⟨ts, h, hperm⟩ := ih
      obtain ⟨f, hf⟩ := Option.ne_none_iff_exists'.mp hfault
      rw [entered_of_some hf]
      exact ⟨ts, ⟨h.base, h.record, h.deductions, h.count, h.nodup, h.apart⟩, hperm⟩

/-- What has been taken from the agenda or is still on it was there in the beginning or has been
pushed. -/
theorem agenda (h : Proceeds d e start w o) :
    (w.taken ++ o.engine.agenda).Sublist (e.agenda ++ w.pushed) := by
  induction h with
  | start => rw [List.append_nil]; exact .refl _
  | assert _ us ih =>
      rw [← List.append_assoc, ← List.append_assoc]
      exact ih.append_right us
  | pop _ hagenda ih =>
      rw [hagenda] at ih
      rw [List.append_assoc]
      exact ih
  | drop _ _ ih =>
      rw [List.append_nil]
      exact (List.sublist_append_left _ _).trans ih
  | @enter w e' fresh _ c _ _ us hus ih =>
      obtain ⟨ts', h', hsub⟩ := deduces_entered e' d c fresh
      obtain rfl : us = ts' := List.append_cancel_left (hus.symm.trans h'.deductions)
      rw [← List.append_assoc]
      have hkept := (hsub.append_left w.taken)
      rw [← List.append_assoc] at hkept
      exact hkept.trans (ih.append_right us)
  | @broken w e' fresh _ c _ hfault ih =>
      obtain ⟨f, hf⟩ := Option.ne_none_iff_exists'.mp hfault
      rw [entered_of_some hf]
      exact ih

theorem mem_of_mem_agenda (h : Proceeds d e start w o) {t : Triple} (ht : t ∈ o.engine.agenda) :
    t ∈ e.agenda ++ w.pushed :=
  h.agenda.subset (List.mem_append_right _ ht)

end Proceeds

/-! ## What every deed keeps -/

theorem Proceeds.leadsTo {start : Nat} {w : Deeds} {o : Outcome} (h : Proceeds d e start w o) :
    LeadsTo d e o := by
  induction h with
  | start => exact .refl e start
  | assert _ _ ih => exact ⟨ih.grown.trans (.withAgenda _ _), isFatal_of_mem_none⟩
  | pop _ _ ih => exact ⟨ih.grown.trans (.withAgenda _ _), isFatal_of_mem_none⟩
  | drop _ _ ih => exact ⟨ih.grown.trans (.withAgenda _ _), isFatal_of_mem_none⟩
  | enter _ _ _ _ ih => exact .after ih.grown (leadsTo_matchAndFire d _ _ _ _ _ _)
  | broken _ _ _ ih => exact .after ih.grown (leadsTo_matchAndFire d _ _ _ _ _ _)

end TripleRules.Forward.Engine
