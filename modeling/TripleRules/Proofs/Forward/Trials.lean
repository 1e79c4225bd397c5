import TripleRules.Proofs.Forward.Passes
import TripleRules.Proofs.Forward.Solutions
import TripleRules.Proofs.Rule.Candidates

/-!
# Trials

A first pass that does not meet the limit on firings is a sequence of trials: each rule without
patterns is entered once, and each triple that is asserted or deduced is taken from the agenda once
and tried on all of its triggers.  In a trial the rest of the body is completed in every way against
all that is known by then, and whatever has been completed is fired.
-/

namespace TripleRules

open Tabling (Cursor)

def RuleBase.NeverFatal (b : RuleBase) : Prop :=
  ∀ r ∈ b.forward, ∀ f args, .call f args ∈ r.body → f.NeverFatal

namespace Forward

/-- A visit in a run, with what is known by then and the number of the next fresh node. -/
structure Trial where
  visit : Visit
  sources : Sources
  fresh : Nat

def Trial.matching (record : Bool) (x : Trial) : Matching :=
  complete x.sources x.visit.cursor.rule record x.visit.cursor.rest x.visit.cursor.env
    x.visit.cursor.premises (.start x.fresh)

namespace Engine

variable {d : Data} {e e' e'' : Engine} {fresh fresh' fresh'' start : Nat} {vs : List Visit}
  {xs ys : List Trial}

def tried (e : Engine) (d : Data) (c : Cursor) (fresh : Nat) : Engine :=
  (e.noting (e.matching d c fresh).failures).fireEach d (e.matching d c fresh).firings

/-- From one engine to another by trials.  In between triples are planned. -/
inductive Tries (d : Data) (e : Engine) (start : Nat) : List Trial → Engine → Nat → Prop where
  | start : Tries d e start [] e start
  | plan {xs : List Trial} {e' : Engine} {fresh : Nat} (h : Tries d e start xs e' fresh)
      (ts : List Triple) : Tries d e start xs { e' with agenda := ts } fresh
  | visit {xs : List Trial} {e' : Engine} {fresh : Nat} (h : Tries d e start xs e' fresh)
      (v : Visit) (hfault : (e'.matching d v.cursor fresh).fault = none) :
      Tries d e start (xs ++ [⟨v, e'.sources d, fresh⟩]) (e'.tried d v.cursor fresh)
        (e'.matching d v.cursor fresh).fresh

theorem Tries.trans (h : Tries d e fresh xs e' fresh') (h' : Tries d e' fresh' ys e'' fresh'') :
    Tries d e fresh (xs ++ ys) e'' fresh'' := by
  induction h' with
  | start => rwa [List.append_nil]
  | plan _ ts ih => exact ih.plan ts
  | visit _ v hfault ih =>
      rw [← List.append_assoc]
      exact ih.visit v hfault

/-! ## What a trial does -/

theorem deduces_tried (e : Engine) (d : Data) (c : Cursor) (fresh : Nat) :
    ∃ ts, Deduces d e ts (e.tried d c fresh) ∧ (e.tried d c fresh).agenda = e.agenda ++ ts := by
  obtain ⟨ts, h, hagenda⟩ := deduces_fireEach d (e.matching d c fresh).firings
    (e.noting (e.matching d c fresh).failures)
  exact ⟨ts, ⟨h.base, h.record, h.deductions, h.count, h.nodup, h.apart⟩, hagenda⟩

theorem chained_fireEach (d : Data) (fs : List Firing) (e : Engine) :
    Chained d e (e.fireEach d fs) :=
  List.foldlRecOn fs _ (motive := Chained d e) (.refl e) fun _ h f _ => h.trans (chained_fire d _ f)

/-! ## What trials come to -/

namespace Tries

theorem deduces (h : Tries d e start xs e' fresh) : ∃ ts, Deduces d e ts e' := by
  induction h with
  | start => exact ⟨[], .refl e⟩
  | plan _ _ ih =>
      obtain ⟨ts, h⟩ := ih
      exact ⟨ts, ⟨h.base, h.record, h.deductions, h.count, h.nodup, h.apart⟩⟩
  | @visit _ e' fresh _ v _ ih =>
      obtain ⟨ts, h⟩ := ih
      obtain ⟨ts', h', -⟩ := deduces_tried e' d v.cursor fresh
      exact ⟨ts ++ ts', h.trans h'⟩

theorem record_eq (h : Tries d e start xs e' fresh) : e'.record = e.record :=
  have ⟨_, hdeduces⟩ := h.deduces
  hdeduces.record

theorem work (h : Tries d e start xs e' fresh) :
    e'.work = (e.fireEach d (xs.flatMap fun x => (x.matching e.record).firings)).work := by
  induction h with
  | start => rfl
  | plan _ _ ih => exact ih
  | @visit xs e' fresh h v _ ih =>
      have hsplit : ∀ fs gs, e.fireEach d (fs ++ gs) = (e.fireEach d fs).fireEach d gs :=
        fun fs gs => List.foldl_append
      have hmatching : (Trial.mk v (e'.sources d) fresh).matching e.record =
          e'.matching d v.cursor fresh := by
        rw [← h.record_eq]
        rfl
      rw [List.flatMap_append, List.flatMap_singleton, hmatching, hsplit]
      exact work_fireEach (e := e'.noting _) ih _

theorem known (h : Tries d e start xs e' fresh) : ∀ x ∈ xs, ∀ t,
    ((e.sources d).contains t → x.sources.contains t) ∧
      (x.sources.contains t → (e'.sources d).contains t) := by
  induction h with
  | start => exact fun x hx => absurd hx List.not_mem_nil
  | plan _ _ ih => exact ih
  | @visit xs e' fresh h v _ ih =>
      obtain ⟨ts, hbefore⟩ := h.deduces
      obtain ⟨ts', hafter, -⟩ := deduces_tried e' d v.cursor fresh
      intro x hx t
      rcases List.mem_append.mp hx with hx | hx
      · obtain ⟨hin, hout⟩ := ih x hx t
        exact ⟨hin, fun ht => (hafter.contains_iff t).mpr (.inl (hout ht))⟩
      · rw [List.mem_singleton.mp hx]
        exact ⟨fun ht => (hbefore.contains_iff t).mpr (.inl ht),
          fun ht => (hafter.contains_iff t).mpr (.inl ht)⟩

theorem chained (h : Tries d e start xs e' fresh) : Chained d e e' := by
  induction h with
  | start => exact .refl e
  | plan _ ts ih => exact ih.trans (.withAgenda _ ts)
  | @visit xs e' fresh _ v _ ih =>
      have hnoted : Chained d e' (e'.noting (e'.matching d v.cursor fresh).failures) :=
        .noted rfl rfl rfl
      exact ih.trans (hnoted.trans (chained_fireEach d _ _))

theorem built (h : Tries d e start xs e' fresh) (hs : (e.sources d).Built) :
    ∀ x ∈ xs, x.sources.Built := by
  induction h with
  | start => exact fun x hx => absurd hx List.not_mem_nil
  | plan _ _ ih => exact ih
  | visit h v _ ih =>
      intro x hx
      rcases List.mem_append.mp hx with hx | hx
      · exact ih x hx
      · rw [List.mem_singleton.mp hx]
        exact ⟨hs.raw, hs.schema, h.chained.deductions_built hs.deductions⟩

end Tries

/-! ## Legs -/

structure Leg (d : Data) (e : Engine) (fresh : Nat) (vs : List Visit) (e' : Engine) (fresh' : Nat)
    (xs : List Trial) : Prop where
  tries : Tries d e fresh xs e' fresh'
  visits : xs.map Trial.visit = vs
  agenda : ∃ ts, Deduces d e ts e' ∧ e'.agenda = e.agenda ++ ts

def Makes (d : Data) (e : Engine) (fresh : Nat) (vs : List Visit) (o : Outcome) : Prop :=
  o.fault = none ∧
    (o.engine.stats.thresholdExceeded ∨ ∃ xs, Leg d e fresh vs o.engine o.fresh xs)

theorem Makes.nil (d : Data) (e : Engine) (fresh : Nat) : Makes d e fresh [] ⟨e, fresh, none⟩ :=
  ⟨rfl, .inr ⟨[], .start, rfl, [], .refl e, (List.append_nil _).symm⟩⟩

theorem Makes.cons {v : Visit} {vs : List Visit} {o : Outcome}
    (hfault : (e.matching d v.cursor fresh).fault = none)
    (h : Makes d (e.tried d v.cursor fresh) (e.matching d v.cursor fresh).fresh vs o) :
    Makes d e fresh (v :: vs) o := by
  refine ⟨h.1, h.2.imp_right ?_⟩
  rintro ⟨xs, hleg⟩
  obtain ⟨ts, hdeduces, hagenda⟩ := deduces_tried e d v.cursor fresh
  obtain ⟨ts', hdeduces', hagenda'⟩ := hleg.agenda
  refine ⟨⟨v, e.sources d, fresh⟩ :: xs, (Tries.start.visit v hfault).trans hleg.tries, ?_,
    ts ++ ts', hdeduces.trans hdeduces', ?_⟩
  · rw [List.map_cons, hleg.visits]
  · rw [hagenda', hagenda, List.append_assoc]

theorem Visits.makes {w : Deeds} {o : Outcome} (h : Visits d e fresh vs w o)
    (hcalls : ∀ v ∈ vs, ∀ f args, .call f args ∈ v.cursor.rest → f.NeverFatal) :
    Makes d e fresh vs o := by
  induction h with
  | done => exact .nil d _ _
  | @broken e fresh v _ _ _ hm hfault =>
      subst hm
      have hnone := e.matching_fault_eq_none d (hcalls v List.mem_cons_self) fresh
      cases hnone.symm.trans hfault
  | refused => exact ⟨rfl, .inl rfl⟩
  | next hm hfault _ hfired _ _ ih =>
      subst hm hfired
      exact .cons hfault (ih fun v hv => hcalls v (List.mem_cons_of_mem _ hv))

/-! ## First passes -/

/-- What an engine has come to in a first pass that has not met the limit.  Every rule without
patterns has been visited, and so has every clause that a triple matches which has been taken from
the agenda.  A triple is tried when it is known, and so is all that was taken before. -/
structure FirstPass (d : Data) (e : Engine) (start : Nat) (taken : List Triple)
    (xs : List Trial) (e' : Engine) (fresh : Nat) : Prop where
  tries : Tries d e start xs e' fresh
  visits : xs.map Trial.visit = frontVisits e.base ++ taken.flatMap (visitsOf e.base e.record)
  agenda : (taken ++ e'.agenda).Perm (d.raw.triples ++ e'.deductions.triples)
  at_hand : ∀ x ∈ xs, ∀ i t, x.visit.entry = some (i, t) → x.sources.contains t
  before : ∀ earlier t later, taken = earlier ++ t :: later → ∀ v ∈ visitsOf e.base e.record t,
    ∃ x ∈ xs, x.visit = v ∧ ∀ u ∈ earlier ++ [t], x.sources.contains u

namespace FirstPass

variable {taken : List Triple}

theorem known (h : FirstPass d e start taken xs e' fresh) {t : Triple}
    (ht : t ∈ taken ++ e'.agenda) : (e'.sources d).contains t := by
  rw [Sources.contains_iff]
  exact (List.mem_append.mp (h.agenda.subset ht)).imp_right .inr

theorem begin (hagenda : e.agenda = []) (hdeductions : e.deductions = .empty)
    (h : Leg d e start (frontVisits e.base) e' fresh xs) :
    FirstPass d e start [] xs { e' with agenda := e'.agenda ++ d.raw.triples } fresh where
  tries := h.tries.plan _
  visits := by rw [h.visits, List.flatMap_nil, List.append_nil]
  agenda := by
    obtain ⟨ts, hdeduces, hplanned⟩ := h.agenda
    have hall : e'.deductions.triples = e'.agenda := by
      rw [hdeduces.deductions, hplanned, hagenda, hdeductions]
      rfl
    rw [List.nil_append]
    dsimp only
    rw [hall]
    exact List.perm_append_comm
  at_hand x hx i t hentry := by
    have hvisit : x.visit ∈ frontVisits e.base := h.visits ▸ List.mem_map_of_mem hx
    obtain ⟨⟨r, n⟩, -, hfront⟩ := List.mem_map.mp hvisit
    rw [← hfront] at hentry
    cases hentry
  before earlier t later htaken := by simp at htaken

theorem take (h : FirstPass d e start taken xs e' fresh) {t : Triple} {rest : List Triple}
    (hagenda : e'.agenda = t :: rest) (hleg : Leg d { e' with agenda := rest } fresh
      (visitsOf e.base e.record t) e'' fresh' ys) :
    FirstPass d e start (taken ++ [t]) (xs ++ ys) e'' fresh' := by
  have hknown : ∀ u ∈ taken ++ [t], (e'.sources d).contains u := by
    intro u hu
    refine h.known ?_
    rw [hagenda, List.append_cons]
    exact List.mem_append_left _ hu
  have hnew : ∀ y ∈ ys, ∀ u ∈ taken ++ [t], y.sources.contains u := fun y hy u hu =>
    (hleg.tries.known y hy u).1 (hknown u hu)
  refine ⟨(h.tries.plan rest).trans hleg.tries, ?_, ?_, fun x hx i u hentry => ?_,
    fun earlier u later htaken v hv => ?_⟩
  · rw [List.map_append, h.visits, hleg.visits, List.flatMap_append, List.flatMap_singleton,
      List.append_assoc]
  · obtain ⟨ts, hdeduces, hplanned⟩ := hleg.agenda
    have hperm := h.agenda.append_right ts
    rw [hagenda] at hperm
    rw [hplanned, hdeduces.deductions, ← List.append_assoc, ← List.append_assoc]
    simpa using hperm
  · rcases List.mem_append.mp hx with hx | hx
    · exact h.at_hand x hx i u hentry
    · have hvisit : x.visit ∈ visitsOf e.base e.record t := hleg.visits ▸ List.mem_map_of_mem hx
      obtain ⟨j, hj⟩ := entry_of_mem_visitsOf hvisit
      rw [hj, Option.some.injEq, Prod.mk.injEq] at hentry
      rw [← hentry.2]
      exact hnew x hx t (List.mem_append_right _ (List.mem_singleton_self t))
  · rcases List.eq_nil_or_concat later with rfl | ⟨later, w, rfl⟩
    · obtain ⟨rfl, hu⟩ := List.append_inj' htaken rfl
      obtain rfl : t = u := List.singleton_inj.mp hu
      rw [← hleg.visits] at hv
      obtain ⟨y, hy, rfl⟩ := List.mem_map.mp hv
      exact ⟨y, List.mem_append_right _ hy, rfl, hnew y hy⟩
    · rw [List.concat_eq_append, ← List.cons_append, ← List.append_assoc] at htaken
      obtain ⟨hold, -⟩ := List.append_inj' htaken rfl
      obtain ⟨x, hx, hvisit, hbefore⟩ := h.before earlier u later hold v hv
      exact ⟨x, List.mem_append_left _ hx, hvisit, hbefore⟩

end FirstPass

def GoesOn (d : Data) (e : Engine) (start : Nat) (e' : Engine) (fresh : Nat) : Prop :=
  e'.stats.thresholdExceeded ∨ ∃ taken xs, FirstPass d e start taken xs e' fresh

theorem calls_visitsOf (hb : e.base.Built) (hcalls : e.base.NeverFatal) {t : Triple} :
    ∀ v ∈ visitsOf e.base e.record t, ∀ f args, .call f args ∈ v.cursor.rest → f.NeverFatal := by
  intro v hv f args hcall
  obtain ⟨tr, htr, htrigger⟩ := List.mem_filterMap.mp hv
  obtain ⟨env, -, rfl⟩ := Option.map_eq_some_iff.mp htrigger
  obtain ⟨r, hr, hof⟩ := hb.of_mem_triggersFor htr
  dsimp only at hcall
  rw [hof.rest] at hcall
  exact hcalls r hr f args (List.mem_of_mem_eraseIdx hcall)

theorem calls_frontVisits (hcalls : e.base.NeverFatal) :
    ∀ v ∈ frontVisits e.base, ∀ f args, .call f args ∈ v.cursor.rest → f.NeverFatal := by
  intro v hv
  obtain ⟨r, hr, rfl⟩ := List.mem_map.mp hv
  exact hcalls r.1 (List.fst_mem_of_mem_zipIdx (List.mem_of_mem_filter hr))

theorem GoesOn.take (h : GoesOn d e start e' fresh) (hb : e.base.Built)
    (hcalls : e.base.NeverFatal) {t : Triple} {rest : List Triple} {w : Deeds} {o : Outcome}
    (hagenda : e'.agenda = t :: rest) (hroom : e'.stats.thresholdExceeded = false)
    (hvisits : Visits d { e' with agenda := rest } fresh (visitsOf e'.base e'.record t) w o) :
    o.fault = none ∧ GoesOn d e start o.engine o.fresh := by
  obtain ⟨taken, xs, hpass⟩ := h.resolve_left (by rw [hroom]; exact Bool.false_ne_true)
  obtain ⟨ts, hdeduces⟩ := hpass.tries.deduces
  have hsame : visitsOf e'.base e'.record t = visitsOf e.base e.record t := by
    rw [hdeduces.base, hdeduces.record]
  obtain ⟨hfault, hmade⟩ := hvisits.makes
    (calls_visitsOf (e := e') (hdeduces.base ▸ hb) (hdeduces.base ▸ hcalls))
  refine ⟨hfault, hmade.imp_right ?_⟩
  rintro ⟨ys, hleg⟩
  rw [hsame] at hleg
  exact ⟨_, _, hpass.take hagenda hleg⟩

theorem GoesOn.drains (h : GoesOn d e start e' fresh) (hb : e.base.Built)
    (hcalls : e.base.NeverFatal) {w : Deeds} {o : Outcome} (hdrains : Drains d e' fresh w o) :
    o.fault = none ∧ o.engine.agenda = [] ∧ GoesOn d e start o.engine o.fresh := by
  induction hdrains with
  | done hagenda => exact ⟨rfl, hagenda, h⟩
  | drop _ hmet => exact ⟨rfl, rfl, .inl hmet⟩
  | broken hagenda hroom hvisits hfault =>
      exact absurd (h.take hb hcalls hagenda hroom hvisits).1 hfault
  | take hagenda hroom hvisits _ _ ih => exact ih (h.take hb hcalls hagenda hroom hvisits).2

/-- A first pass that ends without having met the limit has taken every triple from the agenda. -/
theorem firstPass_run (hb : e.base.Built) (hcalls : e.base.NeverFatal) (hagenda : e.agenda = [])
    (hdeductions : e.deductions = .empty) {fuel : Nat} {o : Outcome}
    (ho : e.run fuel d start = some o) (hroom : o.engine.stats.thresholdExceeded = false) :
    o.fault = none ∧ ∃ taken xs, FirstPass d e start taken xs o.engine o.fresh ∧
      taken.Perm (d.raw.triples ++ o.engine.deductions.triples) := by
  have hend : o.fault = none ∧ o.engine.agenda = [] ∧ GoesOn d e start o.engine o.fresh := by
    obtain ⟨w, hw⟩ := exists_performs (c := .run) ho
    cases hw with
    | broken hfront hfault => exact absurd (hfront.makes (calls_frontVisits hcalls)).1 hfault
    | run hfront _ hdrains =>
        refine GoesOn.drains ?_ hb hcalls hdrains
        refine (hfront.makes (calls_frontVisits hcalls)).2.imp_right ?_
        rintro ⟨xs, hleg⟩
        exact ⟨[], xs, .begin hagenda hdeductions hleg⟩
  obtain ⟨hfault, hempty, hgoes⟩ := hend
  obtain ⟨taken, xs, hpass⟩ := hgoes.resolve_left (by rw [hroom]; exact Bool.false_ne_true)
  have hall := hpass.agenda
  rw [hempty, List.append_nil] at hall
  exact ⟨hfault, taken, xs, hpass, hall⟩

end Engine

end Forward

end TripleRules
