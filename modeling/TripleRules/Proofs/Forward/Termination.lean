import TripleRules.Proofs.Forward.LeastFixpoint
import TripleRules.Proofs.Forward.Limit
import TripleRules.Proofs.Forward.Policy
import TripleRules.Proofs.Model.Flat

/-!
# Chaining ends

Every triple that is taken from the agenda makes it shorter, and only what is deduced makes it
longer.  With a limit on firings there is room for so many firings and no more; without one, rules
that make no terms can deduce only triples of the terms at hand.  Either way there is room for so
many deductions, and chaining ends.
-/

namespace TripleRules

open Forward Forward.Engine
open Tabling (Cursor)
open Tabling.Cursor (Leads)

/-! ## Rules that make no terms -/

namespace CheckedRule

def MakesNoTerms (r : CheckedRule) : Prop :=
  (∀ p, .pattern p ∈ r.body → p.isFlat) ∧ ∀ p, .pattern p ∈ r.rule.head → p.isFlat

structure Spares (us : List Term) (r : CheckedRule) : Prop where
  checked : r.IsChecked
  guarded : r.Guarded
  flat : r.MakesNoTerms
  terms : ∀ p, .pattern p ∈ r.rule.head → p.Over us

end CheckedRule

/-- The bindings of a rule in progress were taken from triples of these terms. -/
structure Tabling.Cursor.Tethered (us : List Term) (c : Cursor) : Prop where
  rule : c.rule.Spares us
  ground : c.env.Values (·.isGround)
  values : c.env.Values (· ∈ us)
  passed : ∃ done, (∀ q, q ∈ c.rule.body ↔ q ∈ done ++ c.rest) ∧ GuardedAfter done c.rest ∧
    Passed (·.isGround) done c.env

namespace Tabling.Cursor.Tethered

variable {us : List Term} {c c' : Cursor}

theorem leads (h : c.Tethered us) {record : Bool} {F : Triple → Triple → Prop}
    (hF : ∀ g t, F g t → t.Over us) (hleads : Leads record F c c') : c'.Tethered us := by
  induction hleads with
  | refl => exact h
  | @read r env env' p t rest premises _ ht hmatch ih =>
      obtain ⟨done, hbody, hguard, hpassed⟩ := ih.passed
      obtain ⟨hext, hinst, hground⟩ := Bindings.match?_some hmatch
      have hp : .pattern p ∈ r.body :=
        (hbody _).mpr (List.mem_append_right _ List.mem_cons_self)
      refine ⟨ih.rule, hext.values ih.ground, ?_, done ++ [.pattern p], ?_, hguard.tail,
        hpassed.match? hground hmatch⟩
      · exact Bindings.values_match? (ih.rule.flat.1 p hp) (hF _ _ ht) ih.values hmatch
      · rw [List.append_assoc]
        exact hbody
  | @call r env env' b args rest premises fresh fresh' _ hcall ih =>
      obtain ⟨done, hbody, hguard, hpassed⟩ := ih.passed
      obtain ⟨hacc, rfl⟩ := (hpassed.call_holds_iff ih.ground hguard r fresh env').mp
        (congrArg Prod.fst hcall)
      refine ⟨ih.rule, ih.ground, ih.values, done ++ [.call b args], ?_, hguard.tail,
        hpassed.call (hpassed.isTest ih.ground hguard).2 hacc⟩
      rw [List.append_assoc]
      exact hbody

theorem over_instantiate (h : c.Tethered us) (hdone : c.rest = []) {p : Triple}
    (hp : .pattern p ∈ c.rule.rule.head) : (c.env.instantiate p).Over us := by
  obtain ⟨done, hbody, -, hpassed⟩ := h.passed
  rw [hdone, List.append_nil] at hbody
  intro y hy
  rw [Bindings.instantiate_eq_mapVars, Triple.terms_mapVars, List.mem_map] at hy
  obtain ⟨x, hx, rfl⟩ := hy
  rcases Term.isFlat_cases (Triple.isFlat_of_mem (h.rule.flat.2 p hp) hx) with ⟨v, rfl⟩ | hground
  · -- a variable of the head has been bound by a pattern of the body
    have hoccurs : v ∈ p.occurrences :=
      List.mem_flatMap.mpr ⟨_, hx, List.mem_singleton_self v⟩
    have hvars : v ∈ c.rule.vars := h.rule.checked.mem_vars_of_head hp hoccurs
    obtain ⟨q, hq, hv⟩ := h.rule.guarded.exists_pattern hvars
    obtain ⟨z, hz⟩ := (Bindings.isGround_instantiate_iff h.ground q).mp
      (hpassed.patterns q ((hbody _).mp hq)).1 v hv
    have hvalue : (c.env.get? v).getD (.var v) = z := by
      rw [(Bindings.get?_eq_some_iff _ _ _).mpr hz, Option.getD_some]
    rw [Term.mapVars, hvalue]
    exact h.values _ z hz
  · rw [Term.mapVars_of_isGround hground]
    exact h.rule.terms p hp x hx

end Tabling.Cursor.Tethered

/-! ## Engines with nothing but the terms at hand -/

namespace Forward.Engine

variable {us : List Term} {d : Data} {e e' : Engine}

structure Confined (us : List Term) (d : Data) (e : Engine) : Prop where
  base : e.base.Built
  rule : ∀ r ∈ e.base.forward, r.Spares us
  sources : (e.sources d).Built
  triples : ∀ t, (e.sources d).contains t → t.Over us

theorem Confined.noted (h : Confined us d e) (hbase : e'.base = e.base)
    (hdeductions : e'.deductions = e.deductions) : Confined us d e' := by
  have hsources : e'.sources d = e.sources d := by
    rw [Engine.sources, hdeductions, Engine.sources]
  exact ⟨hbase ▸ h.base, hbase ▸ h.rule, hsources ▸ h.sources, hsources ▸ h.triples⟩

theorem Confined.opens (h : Confined us d e) {seen : List Triple} (hseen : ∀ t ∈ seen, t.Over us)
    {c : Cursor} (hc : e.Opens seen c) : c.Tethered us := by
  cases hc with
  | @front r hr =>
      have hrule := h.rule r (List.mem_filter.mp hr).1
      exact ⟨hrule, Bindings.values_empty _ _, Bindings.values_empty _ _, [], fun _ => Iff.rfl,
        hrule.guarded.guardedAfter rfl, .nil⟩
  | @trigger t tr env ht htr hmatch =>
      obtain ⟨r, hr, hof⟩ := h.base.of_mem_triggersFor htr
      have hrule := h.rule r hr
      rw [hof.rule] at hmatch ⊢
      obtain ⟨hext, -, hground⟩ := Bindings.match?_some hmatch
      refine ⟨hrule, hext.values (Bindings.values_empty _ _), ?_, [.pattern tr.pattern], ?_, ?_,
        Passed.nil.match? hground hmatch⟩
      · exact Bindings.values_match? (hrule.flat.1 _ (List.mem_of_getElem? hof.clause)) (hseen t ht)
          (Bindings.values_empty _ _) hmatch
      · intro q
        rw [hof.rest]
        exact (perm_cons_eraseIdx hof.clause).mem_iff.symm
      · rw [hof.rest]
        exact hrule.guarded.guardedAfter_eraseIdx hof.clause

theorem Confined.deduce (h : Confined us d e) (f : Firing) {t : Triple} (ht : t.Over us) :
    Confined us d (e.deduce d f t) := by
  unfold Engine.deduce
  split
  · exact h
  · rename_i hnew
    rw [Bool.or_eq_true, not_or, Bool.not_eq_true', Bool.not_eq_false] at hnew
    refine ⟨h.base, h.rule, ⟨h.sources.raw, h.sources.schema, h.sources.deductions.insert hnew.1⟩,
      fun u hu => ?_⟩
    have hold := h.triples u
    rw [Sources.contains_iff] at hu hold
    rcases hu with hu | hu | hu
    · exact hold (.inl hu)
    · exact hold (.inr (.inl hu))
    · rcases (Store.mem_insert _ _ u).mp hu with hu | rfl
      · exact hold (.inr (.inr hu))
      · exact ht

theorem Confined.install (h : Confined us d e) (r : Rule) (env : Bindings) :
    Confined us d (e.install r env) := by
  unfold Engine.install
  split
  · exact h.noted rfl rfl
  · split
    · exact h
    · exact h.noted rfl rfl

theorem Confined.draws (h : Confined us d e) {F : Firing → Prop} (hd : Draws d F e e')
    (hF : ∀ f, F f → f.done.Tethered us) : Confined us d e' := by
  induction hd with
  | refl => exact h
  | noted | counted | halted => exact h.noted rfl rfl
  | deduce e hf hp => exact h.deduce _ ((hF _ hf).over_instantiate rfl hp)
  | install e _ _ => exact h.install _ _
  | trans _ _ ih ih' => exact ih' (ih h)

theorem Confined.entered (h : Confined us d e) {c : Cursor} (hc : c.Tethered us) (fresh : Nat) :
    Confined us d (e.entered d c fresh).engine := by
  refine h.draws (draws_matchAndFire e d c fresh) fun f hf => ?_
  refine hc.leads (fun g t ht => ?_) hf.leads
  exact h.triples t ((h.sources.mem_find g t).mp ht).1

/-- Whatever a call does, it makes no terms. -/
theorem Proceeds.confined {start : Nat} {w : Deeds} {o : Outcome} (hw : Proceeds d e start w o)
    (h : Confined us d e) (hagenda : ∀ t ∈ e.agenda, t.Over us)
    (hasserted : ∀ t ∈ w.asserted, t.Over us) : Confined us d o.engine := by
  have hseen : ∀ {w e' fresh}, Proceeds d e start w ⟨e', fresh, none⟩ → Confined us d e' →
      (∀ t ∈ w.asserted, t.Over us) → ∀ t ∈ e.agenda ++ w.pushed, t.Over us := by
    intro w e' fresh hw hconfined hasserted t ht
    obtain ⟨ts, hdeduces, hperm⟩ := hw.deduces
    rcases List.mem_append.mp ht with ht | ht
    · exact hagenda t ht
    · rcases List.mem_append.mp (hperm.subset ht) with ht | ht
      · exact hasserted t ht
      · exact hconfined.triples t ((hdeduces.contains_iff t).mpr (.inr ht))
  induction hw with
  | start => exact h
  | assert _ us ih =>
      exact (ih fun t ht => hasserted t (List.mem_append_left _ ht)).noted rfl rfl
  | pop _ _ ih => exact (ih hasserted).noted rfl rfl
  | drop _ _ ih => exact (ih hasserted).noted rfl rfl
  | enter hw hc _ _ ih =>
      have hconfined := ih hasserted
      exact hconfined.entered (hconfined.opens (hseen hw hconfined hasserted) hc) _
  | broken hw hc _ ih =>
      have hconfined := ih hasserted
      exact hconfined.entered (hconfined.opens (hseen hw hconfined hasserted) hc) _

/-! ## Room -/

/-- Engines of a kind have room for so many deductions, and every deduction takes some of it. -/
structure Roomy (d : Data) (I : Engine → Prop) (room : Engine → Nat) : Prop where
  keeps : ∀ {e start w o}, I e → Proceeds d e start w o → w.asserted = [] → I o.engine
  room_le : ∀ {e start w o}, I e → Proceeds d e start w o → w.asserted = [] →
    room o.engine ≤ room e
  room_lt : ∀ {e start w o}, I e → Proceeds d e start w o → w.asserted = [] → w.pushed ≠ [] →
    room o.engine < room e

variable {I : Engine → Prop} {room : Engine → Nat}

theorem Roomy.shrinks (h : Roomy d I room) (he : I e) {t : Triple} {rest : List Triple}
    {fresh : Nat} {w : Deeds} {o : Outcome} (hagenda : e.agenda = t :: rest)
    (hvisits : Visits d { e with agenda := rest } fresh (visitsOf e.base e.record t) w o) :
    I o.engine ∧ Prod.Lex (· < ·) (· < ·) (room o.engine, o.engine.agenda.length)
      (room e, e.agenda.length) := by
  have hw := Proceeds.start.take hagenda hvisits
  have hasserted : ({ taken := [t] } ++ w : Deeds).asserted = [] := by
    rw [Deeds.asserted_append, hvisits.asserted_eq_nil, List.append_nil]
  refine ⟨h.keeps he hw hasserted, ?_⟩
  rcases Nat.lt_or_eq_of_le (h.room_le he hw hasserted) with hlt | heq
  · exact .left _ _ hlt
  · have hnone : ({ taken := [t] } ++ w : Deeds).pushed = [] := by
      by_contra hsome
      exact absurd heq (Nat.ne_of_lt (h.room_lt he hw hasserted hsome))
    -- With nothing pushed, the triple that was taken is missing from the agenda.
    have hlength := hw.agenda.length_le
    change ([t] ++ w.taken ++ o.engine.agenda).length ≤
      (e.agenda ++ ({ taken := [t] } ++ w : Deeds).pushed).length at hlength
    rw [hnone, List.append_nil, List.length_append, List.length_append,
      List.length_singleton] at hlength
    exact Prod.lex_iff.mpr (.inr ⟨heq, by dsimp only; omega⟩)

/-- Working off an agenda ends: a triple is taken from it each time, and there is only so much room
for more. -/
theorem Roomy.drains (h : Roomy d I room) (he : I e) (fresh : Nat) :
    ∃ w o, Drains d e fresh w o := by
  -- Room counts before the agenda, which may get longer as long as there is room.
  have hwf : WellFounded (InvImage (Prod.Lex (· < ·) (· < ·)) fun e : Engine =>
      (room e, e.agenda.length)) :=
    InvImage.wf _ (WellFounded.prod_lex Nat.lt_wfRel.wf Nat.lt_wfRel.wf)
  induction e using hwf.induction generalizing fresh with
  | h e ih =>
      cases hagenda : e.agenda with
      | nil => exact ⟨_, _, .done hagenda⟩
      | cons t rest =>
          cases hroom : e.stats.thresholdExceeded with
          | true => exact ⟨_, _, .drop hagenda hroom⟩
          | false =>
              obtain ⟨w, hvisits⟩ := exists_visits_of d { e with agenda := rest } fresh t
              generalize tryTriggers d t _ { e with agenda := rest } fresh = o at hvisits
              by_cases hfault : o.fault = none
              · obtain ⟨hkept, hless⟩ := h.shrinks he hagenda hvisits
                obtain ⟨w', o', hrest⟩ := ih o.engine hless hkept o.fresh
                exact ⟨_, _, .take hagenda hroom hvisits hfault hrest⟩
              · exact ⟨_, _, .broken hagenda hroom hvisits hfault⟩

theorem Roomy.run (h : Roomy d I room) (he : I e)
    (hraw : ∀ e, I e → I { e with agenda := e.agenda ++ d.raw.triples }) (fresh : Nat) :
    ∃ fuel o, e.run fuel d fresh = some o := by
  obtain ⟨w, hfront⟩ := exists_visits_front d e fresh
  generalize fireUnconditional d e.base.unconditional e fresh = o at hfront
  have hperforms : ∃ w o, Performs d e fresh .run w o := by
    by_cases hfault : o.fault = none
    · have hkept := h.keeps he (proceeds_front hfront) hfront.asserted_eq_nil
      obtain ⟨w', o', hdrains⟩ := h.drains (hraw _ hkept) o.fresh
      exact ⟨_, _, .run hfront hfault hdrains⟩
    · exact ⟨_, _, .broken hfront hfault⟩
  obtain ⟨w, o, hw⟩ := hperforms
  obtain ⟨fuel, ho⟩ := exists_call_iff.mpr ⟨w, hw⟩
  exact ⟨fuel, o, ho⟩

theorem Roomy.addTriple (h : Roomy d I room) {t : Triple}
    (he : I { e with agenda := e.agenda ++ [t] }) (fresh : Nat) :
    ∃ fuel o, e.addTriple fuel d t fresh = some o := by
  have hperforms : ∃ w o, Performs d e fresh (.addTriple t) w o := by
    cases hknown : e.deductions.contains t with
    | true => exact ⟨_, _, .known hknown⟩
    | false =>
        obtain ⟨w, o, hdrains⟩ := h.drains he fresh
        exact ⟨_, _, .added hknown hdrains⟩
  obtain ⟨w, o, hw⟩ := hperforms
  obtain ⟨fuel, ho⟩ := exists_call_iff.mpr ⟨w, hw⟩
  exact ⟨fuel, o, ho⟩

/-! ## Both bounds -/

theorem Proceeds.pushed_of_allowed {start : Nat} {w : Deeds} {o : Outcome}
    (hw : Proceeds d e start w o) (hasserted : w.asserted = [])
    (hnone : e.allowed w.completed = []) : w.pushed = [] := by
  obtain ⟨ts, hdeduces, hperm⟩ := hw.deduces
  have hwork : o.engine.work = e.work := by
    rw [hw.admits.work, hnone]
    rfl
  have hsame : o.engine.deductions.triples = e.deductions.triples ++ [] := by
    rw [List.append_nil]
    exact congrArg (·.deductions.triples) hwork
  obtain rfl : ts = [] := List.append_cancel_left (hdeduces.deductions.symm.trans hsame)
  rw [hasserted] at hperm
  exact hperm.eq_nil

theorem roomy_of_limit {limit : Nat} (hlimit : 0 < limit) :
    Roomy d (·.threshold = limit) fun e => limit - e.stats.firings where
  keeps he hw _ := hw.admits.counts.1.trans he
  room_le _ hw _ := by
    have hfirings := hw.admits.counts.2
    omega
  room_lt {e _ w o} he hw hasserted hpushed := by
    have hfirings := hw.admits.counts.2
    have hsome : e.allowed w.completed ≠ [] := fun hnone =>
      hpushed (hw.pushed_of_allowed hasserted hnone)
    have hpos := List.length_pos_of_ne_nil hsome
    have htake : e.allowed w.completed = w.completed.take (limit - e.stats.firings) := by
      rw [allowed, he, if_neg (Nat.ne_of_gt hlimit)]
    have hroom : (e.allowed w.completed).length ≤ limit - e.stats.firings := by
      rw [htake]
      exact List.length_take_le _ _
    omega

def Keeps (us : List Term) (d : Data) (e : Engine) : Prop :=
  Confined us d e ∧ ∀ t ∈ e.agenda, t.Over us

theorem Confined.length_deductions_le (h : Confined us d e) :
    e.deductions.triples.length ≤ (Triple.allOver us).length := by
  refine (List.subperm_of_subset h.sources.deductions.consistent.nodup fun t ht => ?_).length_le
  exact Triple.mem_allOver (h.triples t ((Sources.contains_iff _ t).mpr (.inr (.inr ht))))

theorem roomy_of_confined :
    Roomy d (Keeps us d) fun e => (Triple.allOver us).length - e.deductions.triples.length where
  keeps {e _ w o} he hw hasserted := by
    obtain ⟨ts, hdeduces, hperm⟩ := hw.deduces
    have hconfined := hw.confined he.1 he.2 (by rw [hasserted]; exact fun t ht => by cases ht)
    refine ⟨hconfined, fun t ht => ?_⟩
    rcases List.mem_append.mp (hw.mem_of_mem_agenda ht) with ht | ht
    · exact he.2 t ht
    · rw [hasserted, List.nil_append] at hperm
      exact hconfined.triples t ((hdeduces.contains_iff t).mpr (.inr (hperm.subset ht)))
  room_le _ hw _ := by
    obtain ⟨ts, hdeduces, -⟩ := hw.deduces
    have hlength := congrArg List.length hdeduces.deductions
    rw [List.length_append] at hlength
    omega
  room_lt {e _ w o} he hw hasserted hpushed := by
    obtain ⟨ts, hdeduces, hperm⟩ := hw.deduces
    have hconfined := hw.confined he.1 he.2 (by rw [hasserted]; exact fun t ht => by cases ht)
    have hle := hconfined.length_deductions_le
    have hlength := congrArg List.length hdeduces.deductions
    have hpos := List.length_pos_of_ne_nil hpushed
    rw [hperm.length_eq, hasserted, List.nil_append] at hpos
    rw [List.length_append] at hlength
    omega

/-- The terms that an engine has to do with: those of the triples at hand or on the agenda, and
those in the heads of its rules. -/
def termsAtHand (e : Engine) (d : Data) (ts : List Triple) : List Term :=
  (d.raw.triples ++ d.schema.triples ++ e.deductions.triples ++ e.agenda ++ ts ++
    e.base.forward.flatMap fun r => r.rule.head.filterMap fun
      | .pattern p => some p
      | .rule _ => none).flatMap Triple.terms

/-- The rules of an engine over stores as they are built call tests only, on variables of patterns
before the call, and they make no terms. -/
structure Spares (e : Engine) (d : Data) : Prop where
  base : e.base.Built
  sources : (e.sources d).Built
  guarded : ∀ r ∈ e.base.forward, r.Guarded
  flat : ∀ r ∈ e.base.forward, r.MakesNoTerms

theorem Spares.keeps (h : e.Spares d) (ts : List Triple) :
    Keeps (e.termsAtHand d ts) d { e with agenda := e.agenda ++ ts } := by
  have hover : ∀ t,
      t ∈ d.raw.triples ++ d.schema.triples ++ e.deductions.triples ++ e.agenda ++ ts →
        t.Over (e.termsAtHand d ts) := fun t ht x hx =>
    List.mem_flatMap.mpr ⟨t, List.mem_append_left _ ht, hx⟩
  refine ⟨⟨h.base, fun r hr => ?_, h.sources, fun t ht => hover t ?_⟩, fun t ht => hover t ?_⟩
  · refine ⟨h.base.consistent.forward r hr, h.guarded r hr, h.flat r hr, fun p hp x hx => ?_⟩
    refine List.mem_flatMap.mpr ⟨p, List.mem_append_right _ (List.mem_flatMap.mpr ⟨r, hr, ?_⟩), hx⟩
    exact List.mem_filterMap.mpr ⟨_, hp, rfl⟩
  · rw [Sources.contains_iff] at ht
    simp only [List.mem_append]
    tauto
  · simp only [List.mem_append] at ht ⊢
    tauto

/-! ## Chaining -/

theorem Performs.nodup_pushed {fresh : Nat} {w : Deeds} {o : Outcome}
    (hw : Performs d e fresh .run w o) (hraw : d.raw.Built) : w.pushed.Nodup := by
  obtain ⟨ts, hdeduces, hperm⟩ := hw.proceeds.deduces
  rw [hperm.nodup_iff]
  rcases hw.asserted with hnone | hall
  · rw [hnone]
    exact hdeduces.nodup
  · rw [hall]
    refine hraw.consistent.nodup.append hdeduces.nodup fun t ht hdeduced => ?_
    exact hdeduces.apart t hdeduced ((Sources.contains_iff _ t).mpr (.inl ht))

/-- Chaining ends when there is a limit on firings, whatever the rules do, and without a limit when
the rules are guarded and make no terms.  A first pass has one trace, in which no triple is pushed on
the agenda twice, and if the agenda was empty none is taken from it twice. -/
theorem chaining_ends (h : 0 < e.threshold ∨ e.Spares d) :
    (∀ fresh, ∃ fuel o, e.run fuel d fresh = some o) ∧
      (∀ t fresh, ∃ fuel o, e.addTriple fuel d t fresh = some o) ∧
      (d.raw.Built → ∀ fuel fresh o, e.run fuel d fresh = some o →
        ∃ w, Performs d e fresh .run w o ∧
          (∀ w' o', Performs d e fresh .run w' o' → w' = w ∧ o' = o) ∧
          w.pushed.Nodup ∧ (e.agenda = [] → w.taken.Nodup)) := by
  refine ⟨fun fresh => ?_, fun t fresh => ?_, fun hraw fuel fresh o ho => ?_⟩
  · rcases h with hlimit | hspares
    · exact (roomy_of_limit hlimit).run rfl (fun _ he => he) fresh
    · have hnone : ({ e with agenda := e.agenda ++ [] } : Engine) = e := by rw [List.append_nil]
      refine roomy_of_confined.run (hnone ▸ hspares.keeps []) (fun e' he => ?_) fresh
      refine ⟨he.1.noted rfl rfl, fun t ht => ?_⟩
      rcases List.mem_append.mp ht with ht | ht
      · exact he.2 t ht
      · exact he.1.triples t ((Sources.contains_iff _ t).mpr (.inl ht))
  · rcases h with hlimit | hspares
    · exact (roomy_of_limit hlimit).addTriple rfl fresh
    · exact roomy_of_confined.addTriple (hspares.keeps [t]) fresh
  · obtain ⟨w, hw⟩ := exists_performs (c := .run) ho
    have hpushed := hw.nodup_pushed hraw
    refine ⟨w, hw, fun _ _ hw' => hw'.unique hw, hpushed, fun hempty => ?_⟩
    have hagenda := hw.proceeds.agenda
    rw [hempty, List.nil_append] at hagenda
    exact hpushed.sublist ((List.sublist_append_left _ _).trans hagenda)

/-! ## An instance -/

theorem spares_circle :
    (Engine.new beforeBase {} .empty).Spares circleData where
  base := built_beforeBase
  sources := ⟨Store.built_ofList (by decide), Store.built_ofList (by decide), .empty⟩
  guarded r hr := by
    obtain rfl : r = .before := List.mem_singleton.mp hr
    exact CheckedRule.guarded_before
  flat r hr := by
    obtain rfl : r = .before := List.mem_singleton.mp hr
    refine ⟨fun p hp => ?_, fun p hp => ?_⟩
    · simp only [CheckedRule.before, List.mem_cons, Premise.pattern.injEq, reduceCtorEq,
        List.not_mem_nil, or_false] at hp
      rcases hp with rfl | rfl <;> decide
    · have hhead : CheckedRule.before.rule.head =
          [.pattern ⟨.var ⟨"x", 0⟩, .iri "before", .var ⟨"z", 2⟩⟩] := by rfl
      rw [hhead, List.mem_singleton, Conclusion.pattern.injEq] at hp
      subst hp
      decide

/-- A rule that grows terms ends at its limit, and one that makes none ends without a limit. -/
theorem counting_and_circle_end :
    (∃ fuel o, (Engine.new countingBase { ruleThreshold := 3 } .empty).run fuel countingData 0 =
      some o) ∧
    ∃ fuel o w, (Engine.new beforeBase {} .empty).run fuel circleData 0 = some o ∧
      Performs circleData (.new beforeBase {} .empty) 0 .run w o ∧ w.pushed.Nodup ∧
        w.taken.Nodup := by
  have hlimit : 0 < (Engine.new countingBase { ruleThreshold := 3 } .empty).threshold := by decide
  have hcircle := chaining_ends (.inr spares_circle)
  obtain ⟨fuel, o, ho⟩ := hcircle.1 0
  obtain ⟨w, hw, -, hpushed, htaken⟩ := hcircle.2.2 (Store.built_ofList (by decide)) fuel 0 o ho
  exact ⟨(chaining_ends (.inl hlimit)).1 0, fuel, o, w, ho, hw, hpushed, htaken rfl⟩

end Forward.Engine

end TripleRules
