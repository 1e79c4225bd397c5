import TripleRules.Proofs.Forward.Allowance

/-!
# The trace of a call

A call of the engine leaves one trace.  A first pass visits the rules without patterns and puts the
asserted triples on the agenda; then triples are taken from the front of the agenda, one by one, and
each visits every clause that it matches, in order.  In a visit the body is completed in every way
and as much of it is fired as the limit leaves room for.  A visit that is refused something is the
last one, and so is one in which a builtin gives up.

Main statements: a call comes to an outcome just when there is a trace that ends in it
(`exists_call_iff`), and there is only one (`Performs.unique`).
-/

namespace TripleRules.Forward

open Tabling (Cursor)

/-! ## Visits -/

/-- A way into a forward rule: in front, or at one of its pattern clauses with a triple. -/
structure Visit where
  ruleIndex : Nat
  /-- The place of the clause in the body, and the triple that is tried on it. -/
  entry : Option (Nat × Triple)
  cursor : Cursor

namespace Visit

def front (r : CheckedRule) (n : Nat) : Visit := ⟨n, none, ⟨r, .empty r.slots, r.body, []⟩⟩

def trigger? (record : Bool) (t : Triple) (tr : Trigger) : Option Visit :=
  ((Bindings.empty tr.rule.slots).match? tr.pattern t).map fun env =>
    ⟨tr.ruleIndex, some (tr.clauseIndex, t), ⟨tr.rule, env, tr.rest, if record then [t] else []⟩⟩

end Visit

def frontVisits (b : RuleBase) : List Visit :=
  (b.forward.zipIdx.filter (·.1.rule.isAxiom)).map fun (r, n) => .front r n

/-- The visits of a triple to the clauses that it matches. -/
def visitsOf (b : RuleBase) (record : Bool) (t : Triple) : List Visit :=
  (b.triggersFor t.predicate).filterMap (Visit.trigger? record t)

theorem entry_of_mem_visitsOf {b : RuleBase} {record : Bool} {t : Triple} {v : Visit}
    (hv : v ∈ visitsOf b record t) : ∃ i, v.entry = some (i, t) := by
  obtain ⟨tr, -, htr⟩ := List.mem_filterMap.mp hv
  obtain ⟨env, -, rfl⟩ := Option.map_eq_some_iff.mp htr
  exact ⟨tr.clauseIndex, rfl⟩

theorem unconditional_eq (b : RuleBase) :
    b.unconditional = (b.forward.zipIdx.filter (·.1.rule.isAxiom)).map (·.1) := by
  conv_lhs => rw [RuleBase.unconditional, ← List.zipIdx_map_fst 0 b.forward]
  rw [List.filter_map]
  rfl

namespace Engine

variable {d : Data} {e e' : Engine} {start fresh fresh' : Nat} {vs : List Visit} {w w' : Deeds}
  {o o' : Outcome}

theorem opens_of_mem_frontVisits {seen : List Triple} {v : Visit}
    (hv : v ∈ frontVisits e.base) : e.Opens seen v.cursor := by
  obtain ⟨⟨r, n⟩, hr, rfl⟩ := List.mem_map.mp hv
  refine .front ?_
  rw [unconditional_eq]
  exact List.mem_map_of_mem hr

theorem opens_of_mem_visitsOf {seen : List Triple} {t : Triple} (ht : t ∈ seen) {v : Visit}
    (hv : v ∈ visitsOf e.base e.record t) : e.Opens seen v.cursor := by
  obtain ⟨tr, htr, htrigger⟩ := List.mem_filterMap.mp hv
  obtain ⟨env, hmatch, rfl⟩ := Option.map_eq_some_iff.mp htrigger
  exact .trigger ht htr hmatch

theorem Opens.mono {seen seen' : List Triple} {c : Cursor} (h : e.Opens seen c)
    (hbase : e'.base = e.base) (hrecord : e'.record = e.record) (hseen : seen ⊆ seen') :
    e'.Opens seen' c := by
  cases h with
  | front hr => exact .front (hbase ▸ hr)
  | trigger ht htr hmatch =>
      rw [← hrecord]
      exact .trigger (hseen ht) (hbase ▸ htr) hmatch

/-- Visits are made in order.  What is completed in a visit is fired if there is room for all of it,
and the next visit follows.  Otherwise as much is fired as there is room for, the agenda is dropped,
and this visit was the last one.  If a builtin gives up, nothing is fired in this visit.  The triples
that firing puts on the agenda are pushed. -/
inductive Visits (d : Data) : Engine → Nat → List Visit → Deeds → Outcome → Prop where
  | done {e : Engine} {fresh : Nat} : Visits d e fresh [] {} ⟨e, fresh, none⟩
  | broken {e : Engine} {fresh : Nat} {v : Visit} {vs : List Visit} {m : Matching} {f : Fault}
      (hm : e.matching d v.cursor fresh = m) (hfault : m.fault = some f) :
      Visits d e fresh (v :: vs) {} ⟨e.noting m.failures, m.fresh, some f⟩
  | refused {e e' : Engine} {fresh : Nat} {v : Visit} {vs : List Visit} {m : Matching}
      {ts : List Triple} (hm : e.matching d v.cursor fresh = m) (hfault : m.fault = none)
      (hcut : e.allowed m.firings ≠ m.firings)
      (hfired : (e.noting m.failures).fireEach d (e.allowed m.firings) = e')
      (hpushed : e'.agenda = e.agenda ++ ts) :
      Visits d e fresh (v :: vs) { completed := m.firings, pushed := ts } ⟨e'.stopped, m.fresh, none⟩
  | next {e e' : Engine} {fresh : Nat} {v : Visit} {vs : List Visit} {m : Matching}
      {ts : List Triple} {w : Deeds} {o : Outcome} (hm : e.matching d v.cursor fresh = m)
      (hfault : m.fault = none) (hall : e.allowed m.firings = m.firings)
      (hfired : (e.noting m.failures).fireEach d m.firings = e')
      (hpushed : e'.agenda = e.agenda ++ ts) (h : Visits d e' m.fresh vs w o) :
      Visits d e fresh (v :: vs) ({ completed := m.firings, pushed := ts } ++ w) o

/-- The agenda is worked off from its front, unless the limit has been met. -/
inductive Drains (d : Data) : Engine → Nat → Deeds → Outcome → Prop where
  | done {e : Engine} {fresh : Nat} (hagenda : e.agenda = []) :
      Drains d e fresh {} ⟨e, fresh, none⟩
  | drop {e : Engine} {fresh : Nat} {t : Triple} {rest : List Triple}
      (hagenda : e.agenda = t :: rest) (hmet : e.stats.thresholdExceeded = true) :
      Drains d e fresh {} ⟨{ e with agenda := [] }, fresh, none⟩
  | broken {e : Engine} {fresh : Nat} {t : Triple} {rest : List Triple} {w : Deeds} {o : Outcome}
      (hagenda : e.agenda = t :: rest) (hroom : e.stats.thresholdExceeded = false)
      (hvisits : Visits d { e with agenda := rest } fresh (visitsOf e.base e.record t) w o)
      (hfault : o.fault ≠ none) : Drains d e fresh ({ taken := [t] } ++ w) o
  | take {e : Engine} {fresh : Nat} {t : Triple} {rest : List Triple} {w w' : Deeds}
      {o o' : Outcome} (hagenda : e.agenda = t :: rest) (hroom : e.stats.thresholdExceeded = false)
      (hvisits : Visits d { e with agenda := rest } fresh (visitsOf e.base e.record t) w o)
      (hfault : o.fault = none) (h : Drains d o.engine o.fresh w' o') :
      Drains d e fresh ({ taken := [t] } ++ w ++ w') o'

inductive Call where
  | run
  | addTriple (t : Triple)

def call (e : Engine) (c : Call) (fuel : Nat) (d : Data) (fresh : Nat) : Option Outcome :=
  match c with
  | .run => e.run fuel d fresh
  | .addTriple t => e.addTriple fuel d t fresh

/-- What a call has done on the way to its outcome. -/
inductive Performs (d : Data) (e : Engine) (fresh : Nat) : Call → Deeds → Outcome → Prop where
  | broken {w : Deeds} {o : Outcome} (hfront : Visits d e fresh (frontVisits e.base) w o)
      (hfault : o.fault ≠ none) : Performs d e fresh .run w o
  | run {w w' : Deeds} {o o' : Outcome} (hfront : Visits d e fresh (frontVisits e.base) w o)
      (hfault : o.fault = none)
      (h : Drains d { o.engine with agenda := o.engine.agenda ++ d.raw.triples } o.fresh w' o') :
      Performs d e fresh .run (w ++ { asserted := d.raw.triples, pushed := d.raw.triples } ++ w') o'
  | known {t : Triple} (h : e.deductions.contains t = true) :
      Performs d e fresh (.addTriple t) {} ⟨e, fresh, none⟩
  | added {t : Triple} {w : Deeds} {o : Outcome} (hnew : e.deductions.contains t = false)
      (h : Drains d { e with agenda := e.agenda ++ [t] } fresh w o) :
      Performs d e fresh (.addTriple t) ({ asserted := [t], pushed := [t] } ++ w) o

/-! ## One trace -/

theorem Visits.unique (h : Visits d e fresh vs w o) (h' : Visits d e fresh vs w' o') :
    w = w' ∧ o = o' := by
  induction h generalizing w' o' with
  | done =>
      cases h'
      exact ⟨rfl, rfl⟩
  | broken hm hfault =>
      subst hm
      cases h' with
      | broken hm' hfault' =>
          subst hm'
          cases hfault.symm.trans hfault'
          exact ⟨rfl, rfl⟩
      | refused hm' hfault' | next hm' hfault' =>
          subst hm'
          cases hfault.symm.trans hfault'
  | refused hm hfault hcut hfired hpushed =>
      subst hm hfired
      cases h' with
      | broken hm' hfault' =>
          subst hm'
          cases hfault.symm.trans hfault'
      | refused hm' _ _ hfired' hpushed' =>
          subst hm' hfired'
          rw [List.append_cancel_left (hpushed.symm.trans hpushed')]
          exact ⟨rfl, rfl⟩
      | next hm' _ hall' =>
          subst hm'
          exact absurd hall' hcut
  | next hm hfault hall hfired hpushed _ ih =>
      subst hm hfired
      cases h' with
      | broken hm' hfault' =>
          subst hm'
          cases hfault.symm.trans hfault'
      | refused hm' _ hcut' =>
          subst hm'
          exact absurd hall hcut'
      | next hm' _ _ hfired' hpushed' h' =>
          subst hm' hfired'
          obtain ⟨rfl, rfl⟩ := ih h'
          rw [List.append_cancel_left (hpushed.symm.trans hpushed')]
          exact ⟨rfl, rfl⟩

theorem Drains.unique (h : Drains d e fresh w o) (h' : Drains d e fresh w' o') :
    w = w' ∧ o = o' := by
  induction h generalizing w' o' with
  | done hagenda =>
      cases h' with
      | done => exact ⟨rfl, rfl⟩
      | drop hagenda' | broken hagenda' | take hagenda' => cases hagenda.symm.trans hagenda'
  | drop hagenda hmet =>
      cases h' with
      | done hagenda' => cases hagenda.symm.trans hagenda'
      | drop => exact ⟨rfl, rfl⟩
      | broken _ hroom' | take _ hroom' => cases hmet.symm.trans hroom'
  | broken hagenda hroom hvisits hfault =>
      cases h' with
      | done hagenda' => cases hagenda.symm.trans hagenda'
      | drop _ hmet' => cases hroom.symm.trans hmet'
      | broken hagenda' _ hvisits' =>
          cases hagenda.symm.trans hagenda'
          obtain ⟨rfl, rfl⟩ := hvisits.unique hvisits'
          exact ⟨rfl, rfl⟩
      | take hagenda' _ hvisits' hfault' =>
          cases hagenda.symm.trans hagenda'
          obtain ⟨-, rfl⟩ := hvisits.unique hvisits'
          exact absurd hfault' hfault
  | take hagenda hroom hvisits hfault _ ih =>
      cases h' with
      | done hagenda' => cases hagenda.symm.trans hagenda'
      | drop _ hmet' => cases hroom.symm.trans hmet'
      | broken hagenda' _ hvisits' hfault' =>
          cases hagenda.symm.trans hagenda'
          obtain ⟨-, rfl⟩ := hvisits.unique hvisits'
          exact absurd hfault hfault'
      | take hagenda' _ hvisits' _ h' =>
          cases hagenda.symm.trans hagenda'
          obtain ⟨rfl, rfl⟩ := hvisits.unique hvisits'
          obtain ⟨rfl, rfl⟩ := ih h'
          exact ⟨rfl, rfl⟩

theorem Performs.unique {c : Call} (h : Performs d e fresh c w o)
    (h' : Performs d e fresh c w' o') : w = w' ∧ o = o' := by
  cases h with
  | broken hfront hfault =>
      cases h' with
      | broken hfront' => exact hfront.unique hfront'
      | run hfront' hfault' =>
          obtain ⟨-, rfl⟩ := hfront.unique hfront'
          exact absurd hfault' hfault
  | run hfront hfault h =>
      cases h' with
      | broken hfront' hfault' =>
          obtain ⟨-, rfl⟩ := hfront.unique hfront'
          exact absurd hfault hfault'
      | run hfront' _ h' =>
          obtain ⟨rfl, rfl⟩ := hfront.unique hfront'
          obtain ⟨rfl, rfl⟩ := h.unique h'
          exact ⟨rfl, rfl⟩
  | known h =>
      cases h' with
      | known => exact ⟨rfl, rfl⟩
      | added hnew' => cases h.symm.trans hnew'
  | added hnew h =>
      cases h' with
      | known h' => cases hnew.symm.trans h'
      | added _ h' =>
          obtain ⟨rfl, rfl⟩ := h.unique h'
          exact ⟨rfl, rfl⟩

/-! ## The trace is left by the call -/

theorem exists_visits_cons (e : Engine) (fresh : Nat) (v : Visit) (next : Engine → Nat → Outcome)
    (hnext : ∀ e' fresh', e'.base = e.base → e'.record = e.record →
      ∃ w, Visits d e' fresh' vs w (next e' fresh')) :
    ∃ w, Visits d e fresh (v :: vs) w
      (match e.matchAndFire d v.cursor.rule v.cursor.rest v.cursor.env v.cursor.premises fresh with
        | (o, true) => next o.engine o.fresh
        | (o, false) => o) := by
  rw [matchAndFire_eq]
  dsimp only
  generalize hm : e.matching d v.cursor fresh = m
  cases hfault : m.fault with
  | some f => exact ⟨{}, .broken hm hfault⟩
  | none =>
      dsimp only
      by_cases hall : e.allowed m.firings = m.firings
      · have hfired : fireAll d m.firings (e.noting m.failures) =
            ((e.noting m.failures).fireEach d m.firings, true) := fireAll_of_allowed_eq hall
        obtain ⟨ts, hdeduces, hpushed⟩ := deduces_fireEach d m.firings (e.noting m.failures)
        obtain ⟨w, hw⟩ := hnext _ m.fresh hdeduces.base hdeduces.record
        rw [hfired]
        exact ⟨_, .next hm hfault hall rfl hpushed hw⟩
      · have hfired : fireAll d m.firings (e.noting m.failures) =
            (((e.noting m.failures).fireEach d (e.allowed m.firings)).stopped, false) :=
          fireAll_of_allowed_ne hall
        obtain ⟨ts, -, hpushed⟩ := deduces_fireEach d (e.allowed m.firings) (e.noting m.failures)
        rw [hfired]
        exact ⟨_, .refused hm hfault hall rfl hpushed⟩

theorem exists_visits_fireUnconditional (d : Data) (rs : List (CheckedRule × Nat)) (e : Engine)
    (fresh : Nat) : ∃ w, Visits d e fresh (rs.map fun (r, n) => .front r n) w
      (fireUnconditional d (rs.map (·.1)) e fresh) := by
  induction rs generalizing e fresh with
  | nil => exact ⟨{}, .done⟩
  | cons r rs ih =>
      rw [List.map_cons, List.map_cons, fireUnconditional]
      exact exists_visits_cons e fresh (.front r.1 r.2) _ fun e' fresh' _ _ => ih e' fresh'

theorem exists_visits_front (d : Data) (e : Engine) (fresh : Nat) :
    ∃ w, Visits d e fresh (frontVisits e.base) w
      (fireUnconditional d e.base.unconditional e fresh) := by
  rw [unconditional_eq]
  exact exists_visits_fireUnconditional d _ e fresh

theorem exists_visits_tryTriggers (d : Data) (t : Triple) (trs : List Trigger) (e : Engine)
    (fresh : Nat) : ∃ w, Visits d e fresh (trs.filterMap (Visit.trigger? e.record t)) w
      (tryTriggers d t trs e fresh) := by
  induction trs generalizing e fresh with
  | nil => exact ⟨{}, .done⟩
  | cons tr trs ih =>
      rw [tryTriggers]
      cases hmatch : (Bindings.empty tr.rule.slots).match? tr.pattern t with
      | none =>
          have hnone : Visit.trigger? e.record t tr = none := by
            rw [Visit.trigger?, hmatch, Option.map_none]
          rw [List.filterMap_cons_none hnone]
          exact ih e fresh
      | some env =>
          have hsome : Visit.trigger? e.record t tr =
              some ⟨tr.ruleIndex, some (tr.clauseIndex, t),
                ⟨tr.rule, env, tr.rest, if e.record then [t] else []⟩⟩ := by
            rw [Visit.trigger?, hmatch, Option.map_some]
          rw [List.filterMap_cons_some hsome]
          refine exists_visits_cons e fresh _ _ fun e' fresh' _ hrecord => ?_
          rw [← hrecord]
          exact ih e' fresh'

theorem exists_visits_of (d : Data) (e : Engine) (fresh : Nat) (t : Triple) :
    ∃ w, Visits d e fresh (visitsOf e.base e.record t) w
      (tryTriggers d t (e.base.triggersFor t.predicate) e fresh) :=
  exists_visits_tryTriggers d t _ e fresh

theorem drainStep_of_nil (h : e.agenda = []) :
    drainStep d (e, fresh) = .done ⟨e, fresh, none⟩ := by
  rw [drainStep]
  simp only [h]

theorem drainStep_of_met {t : Triple} {rest : List Triple} (h : e.agenda = t :: rest)
    (hmet : e.stats.thresholdExceeded = true) :
    drainStep d (e, fresh) = .done ⟨{ e with agenda := [] }, fresh, none⟩ := by
  rw [drainStep]
  simp only [h, hmet, if_true]

theorem drainStep_of_visits {t : Triple} {rest : List Triple} (h : e.agenda = t :: rest)
    (hroom : e.stats.thresholdExceeded = false)
    (hvisits : Visits d { e with agenda := rest } fresh (visitsOf e.base e.record t) w o) :
    drainStep d (e, fresh) =
      if o.fault.isSome then .done o else .next (o.engine, o.fresh) := by
  obtain ⟨w', hvisits'⟩ := exists_visits_of d { e with agenda := rest } fresh t
  rw [drainStep]
  simp only [h, hroom, Bool.false_eq_true, if_false, (hvisits'.unique hvisits).2]

theorem exists_drains {fuel : Nat} (ho : e.drain fuel d fresh = some o) :
    ∃ w, Drains d e fresh w o := by
  induction fuel generalizing e fresh with
  | zero => cases ho
  | succ fuel ih =>
      rw [drain, iterate] at ho
      cases hagenda : e.agenda with
      | nil =>
          rw [drainStep_of_nil hagenda] at ho
          cases ho
          exact ⟨_, .done hagenda⟩
      | cons t rest =>
          cases hroom : e.stats.thresholdExceeded with
          | true =>
              rw [drainStep_of_met hagenda hroom] at ho
              cases ho
              exact ⟨_, .drop hagenda hroom⟩
          | false =>
              obtain ⟨w, hw⟩ := exists_visits_of d { e with agenda := rest } fresh t
              rw [drainStep_of_visits hagenda hroom hw] at ho
              split_ifs at ho with hfault
              · cases ho
                exact ⟨_, .broken hagenda hroom hw (Option.isSome_iff_ne_none.mp hfault)⟩
              · obtain ⟨w', hw'⟩ := ih ho
                exact ⟨_, .take hagenda hroom hw (by simpa using hfault) hw'⟩

theorem Drains.exists_drain (h : Drains d e fresh w o) :
    ∃ fuel, e.drain fuel d fresh = some o := by
  induction h with
  | done hagenda => exact ⟨1, by rw [drain, iterate, drainStep_of_nil hagenda]⟩
  | drop hagenda hmet => exact ⟨1, by rw [drain, iterate, drainStep_of_met hagenda hmet]⟩
  | broken hagenda hroom hvisits hfault =>
      refine ⟨1, ?_⟩
      rw [drain, iterate, drainStep_of_visits hagenda hroom hvisits,
        if_pos (Option.isSome_iff_ne_none.mpr hfault)]
  | take hagenda hroom hvisits hfault _ ih =>
      obtain ⟨fuel, ho⟩ := ih
      refine ⟨fuel + 1, ?_⟩
      rw [drain, iterate, drainStep_of_visits hagenda hroom hvisits, hfault]
      exact ho

theorem exists_run_iff :
    (∃ fuel, e.run fuel d fresh = some o) ↔ ∃ w, Performs d e fresh .run w o := by
  obtain ⟨w, hfront⟩ := exists_visits_front d e fresh
  simp only [Engine.run]
  cases hfault : (fireUnconditional d e.base.unconditional e fresh).fault with
  | some f =>
      simp only [Option.isSome_some, if_true, exists_const, Option.some.injEq]
      have hbroken := Performs.broken hfront (by rw [hfault]; exact Option.some_ne_none f)
      refine ⟨?_, fun ⟨w', hw'⟩ => (hbroken.unique hw').2⟩
      rintro rfl
      exact ⟨w, hbroken⟩
  | none =>
      simp only [Option.isSome_none, Bool.false_eq_true, if_false]
      refine ⟨fun ⟨fuel, ho⟩ => ?_, fun ⟨w', hw'⟩ => ?_⟩
      · obtain ⟨w', hdrains⟩ := exists_drains ho
        exact ⟨_, .run hfront hfault hdrains⟩
      · cases hw' with
        | broken hfront' hfault' =>
            obtain ⟨-, rfl⟩ := hfront.unique hfront'
            exact absurd hfault hfault'
        | run hfront' _ hdrains =>
            obtain ⟨-, rfl⟩ := hfront.unique hfront'
            exact hdrains.exists_drain

theorem exists_addTriple_iff {t : Triple} :
    (∃ fuel, e.addTriple fuel d t fresh = some o) ↔ ∃ w, Performs d e fresh (.addTriple t) w o := by
  simp only [Engine.addTriple]
  cases hknown : e.deductions.contains t with
  | true =>
      simp only [if_true, exists_const, Option.some.injEq]
      refine ⟨?_, fun ⟨w, hw⟩ => ((Performs.known hknown).unique hw).2⟩
      rintro rfl
      exact ⟨{}, .known hknown⟩
  | false =>
      simp only [Bool.false_eq_true, if_false]
      refine ⟨fun ⟨fuel, ho⟩ => ?_, fun ⟨w, hw⟩ => ?_⟩
      · obtain ⟨w, hdrains⟩ := exists_drains ho
        exact ⟨_, .added hknown hdrains⟩
      · cases hw with
        | known h => cases hknown.symm.trans h
        | added _ hdrains => exact hdrains.exists_drain

/-- A call comes to an outcome just when there is a trace that ends in it. -/
theorem exists_call_iff {c : Call} :
    (∃ fuel, e.call c fuel d fresh = some o) ↔ ∃ w, Performs d e fresh c w o := by
  cases c with
  | run => exact exists_run_iff
  | addTriple t => exact exists_addTriple_iff

theorem exists_performs {c : Call} {fuel : Nat} (ho : e.call c fuel d fresh = some o) :
    ∃ w, Performs d e fresh c w o :=
  exists_call_iff.mp ⟨fuel, ho⟩

/-! ## What a trace keeps -/

theorem Visits.asserted_eq_nil (h : Visits d e fresh vs w o) : w.asserted = [] := by
  induction h with
  | done | broken | refused => rfl
  | next _ _ _ _ _ _ ih => rw [Deeds.asserted_append, ih, List.append_nil]

theorem Drains.asserted_eq_nil (h : Drains d e fresh w o) : w.asserted = [] := by
  induction h with
  | done | drop => rfl
  | broken _ _ hvisits => rw [Deeds.asserted_append, hvisits.asserted_eq_nil, List.append_nil]
  | take _ _ hvisits _ _ ih =>
      rw [Deeds.asserted_append, Deeds.asserted_append, hvisits.asserted_eq_nil, ih,
        List.append_nil, List.append_nil]

def Call.asserted (d : Data) : Call → List Triple
  | .run => d.raw.triples
  | .addTriple t => [t]

theorem Performs.asserted {c : Call} (h : Performs d e fresh c w o) :
    w.asserted = [] ∨ w.asserted = c.asserted d := by
  cases h with
  | broken hfront => exact .inl hfront.asserted_eq_nil
  | known => exact .inl rfl
  | run hfront _ h =>
      refine .inr ?_
      rw [Deeds.asserted_append, Deeds.asserted_append, hfront.asserted_eq_nil, h.asserted_eq_nil,
        List.append_nil, List.nil_append]
      rfl
  | added _ h =>
      refine .inr ?_
      rw [Deeds.asserted_append, h.asserted_eq_nil, List.append_nil]
      rfl

theorem Proceeds.next (h : Proceeds d e start w o) (hfault : o.fault = none) :
    Proceeds d e start w ⟨o.engine, o.fresh, none⟩ := by
  rw [← hfault]
  exact h

theorem Proceeds.visits (h : Proceeds d e start w ⟨e', fresh, none⟩)
    (hvisits : Visits d e' fresh vs w' o)
    (hvs : ∀ v ∈ vs, e'.Opens (e.agenda ++ w.pushed) v.cursor) :
    Proceeds d e start (w ++ w') o := by
  induction hvisits generalizing w with
  | done =>
      rw [Deeds.append_empty]
      exact h
  | broken hm hfault =>
      subst hm
      have hbroken := h.broken (hvs _ List.mem_cons_self) (by
        rw [hfault]
        exact Option.some_ne_none _)
      rw [entered_of_some hfault] at hbroken
      rw [Deeds.append_empty]
      exact hbroken
  | @refused e' _ fresh v _ _ ts hm hfault hcut hfired hpushed =>
      subst hm hfired
      have hentered := entered_of_allowed_ne hfault hcut
      have hdeductions : (e'.entered d v.cursor fresh).engine.deductions.triples =
          e'.deductions.triples ++ ts := by
        rw [hentered]
        exact (deduces_of_pushed (e := e'.noting _) hpushed).deductions
      have henter := h.enter (hvs v List.mem_cons_self) hfault hdeductions
      rw [hentered] at henter
      rw [Deeds.append_fired]
      exact henter
  | @next e' _ fresh v _ _ ts _ _ hm hfault hall hfired hpushed _ ih =>
      subst hm hfired
      have hentered := entered_of_allowed_eq hfault hall
      have hdeduces := deduces_of_pushed (e := e'.noting _) hpushed
      have hdeductions : (e'.entered d v.cursor fresh).engine.deductions.triples =
          e'.deductions.triples ++ ts := by
        rw [hentered]
        exact hdeduces.deductions
      have henter := h.enter (hvs v List.mem_cons_self) hfault hdeductions
      rw [hentered] at henter
      rw [← Deeds.append_assoc, Deeds.append_fired]
      -- What is pushed in this visit leaves the ways in that the others use.
      refine ih henter fun u hu => ?_
      refine (hvs u (List.mem_cons_of_mem _ hu)).mono hdeduces.base hdeduces.record ?_
      rw [← List.append_assoc]
      exact List.subset_append_left _ _

theorem Proceeds.take (h : Proceeds d e start w ⟨e', fresh, none⟩) {t : Triple}
    {rest : List Triple} (hagenda : e'.agenda = t :: rest)
    (hvisits : Visits d { e' with agenda := rest } fresh (visitsOf e'.base e'.record t) w' o) :
    Proceeds d e start (w ++ ({ taken := [t] } ++ w')) o := by
  have ht : t ∈ e.agenda ++ w.pushed := h.mem_of_mem_agenda (by
    rw [hagenda]
    exact List.mem_cons_self)
  rw [← Deeds.append_assoc, Deeds.append_taken]
  exact (h.pop hagenda).visits hvisits fun v hv => opens_of_mem_visitsOf ht hv

theorem Proceeds.drains (h : Proceeds d e start w ⟨e', fresh, none⟩)
    (hdrains : Drains d e' fresh w' o) : Proceeds d e start (w ++ w') o := by
  induction hdrains generalizing w with
  | done =>
      rw [Deeds.append_empty]
      exact h
  | drop _ hmet =>
      rw [Deeds.append_empty]
      exact h.drop hmet
  | broken hagenda _ hvisits => exact h.take hagenda hvisits
  | take hagenda _ hvisits hfault _ ih =>
      rw [← Deeds.append_assoc]
      exact ih ((h.take hagenda hvisits).next hfault)

theorem proceeds_front (h : Visits d e fresh (frontVisits e.base) w o) :
    Proceeds d e fresh w o :=
  Proceeds.start.visits h fun _ hv => opens_of_mem_frontVisits hv

theorem Performs.proceeds {c : Call} (h : Performs d e fresh c w o) :
    Proceeds d e fresh w o := by
  cases h with
  | broken hvisits => exact proceeds_front hvisits
  | run hvisits hfault hdrains =>
      rw [Deeds.append_asserted]
      exact (((proceeds_front hvisits).next hfault).assert d.raw.triples).drains hdrains
  | known => exact .start
  | added _ hdrains => exact (Proceeds.start.assert [_]).drains hdrains

theorem leadsTo_call {c : Call} {fuel : Nat} (ho : e.call c fuel d fresh = some o) :
    LeadsTo d e o := by
  obtain ⟨w, hw⟩ := exists_performs ho
  exact hw.proceeds.leadsTo

end Engine

end TripleRules.Forward
