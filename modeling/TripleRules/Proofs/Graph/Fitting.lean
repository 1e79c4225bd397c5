import TripleRules.Proofs.Builtin.Ground
import TripleRules.Proofs.Forward.Policy
import TripleRules.Proofs.Tabling.LeastModel
import TripleRules.Proofs.Tabling.Sessions

/-!
# Whatever is found fits

A pattern of a rule is looked up as what the bindings make of it, and each triple that is found is
then matched with the pattern itself.  The two tests are one: where slots tell the variables of the
pattern apart and its bindings are ground, no triple that is found fails to match, and no answer to
the goal does.  The branches of both engines for what does not fit are never taken.
-/

namespace TripleRules

open Forward Forward.Engine
open Tabling

theorem Bindings.fits_of_mem_find {b : Bindings} (hb : b.Values (·.isGround)) {p : Triple}
    (hapart : ∀ u ∈ p.occurrences, ∀ v ∈ p.occurrences, u.slot = v.slot → u = v)
    (hlt : ∀ v ∈ p.occurrences, v.slot < b.size) {s : Sources} (hs : s.Built) {x : Triple}
    (hx : x ∈ s.find (b.instantiate p)) : (b.match? p x).isSome := by
  obtain ⟨hcontains, hmatches⟩ := (hs.mem_find _ x).mp hx
  exact (match?_isSome_iff hb hapart hlt (hs.isGround hcontains)).mpr hmatches

/-! ## Rules in progress -/

namespace CheckedRule

/-- Some clauses of a rule are still to be passed, under bindings of its variables. -/
structure Underway (r : CheckedRule) (rest : List Premise) (env : Bindings) : Prop where
  checked : r.IsChecked
  body : rest ⊆ r.body
  calls : GroundCalls rest
  size : env.size = r.slots
  values : env.Values (·.isGround)

namespace Underway

variable {r : CheckedRule} {rest : List Premise} {env env' : Bindings} {p x : Triple}

theorem front (hr : r.IsChecked) (hcalls : GroundCalls r.body) :
    r.Underway r.body (.empty r.slots) :=
  ⟨hr, List.Subset.refl _, hcalls, Bindings.size_empty _, Bindings.values_empty _ _⟩

theorem start (hr : r.IsChecked) (hcalls : GroundCalls r.body) {goal : Triple}
    (h : r.start? goal = some env) : r.Underway r.body env :=
  have hstart := start?_extends h
  ⟨hr, List.Subset.refl _, hcalls, hstart.1, hstart.2⟩

theorem extend (h : r.Underway rest env) {rest' : List Premise} (hrest : rest' ⊆ rest)
    {vs : List Variable} (hext : env.Extends env' vs) : r.Underway rest' env' where
  checked := h.checked
  body := List.Subset.trans hrest h.body
  calls b args hcall := h.calls b args (hrest hcall)
  size := hext.size_eq.trans h.size
  values := hext.values h.values

theorem match? (h : r.Underway (.pattern p :: rest) env) (hmatch : env.match? p x = some env') :
    r.Underway rest env' :=
  h.extend (List.subset_cons_self _ _) (Bindings.match?_some hmatch).1

theorem call {b : Builtin} {args : List Term} {fresh fresh' : Nat}
    (h : r.Underway (.call b args :: rest) env)
    (hcall : r.call b args env fresh = (.holds env', fresh')) : r.Underway rest env' :=
  h.extend (List.subset_cons_self _ _)
    (call_extends (h.calls b args List.mem_cons_self) (congrArg Prod.fst hcall))

theorem numbered (h : r.Underway (.pattern p :: rest) env) :
    (∀ u ∈ p.occurrences, ∀ v ∈ p.occurrences, u.slot = v.slot → u = v) ∧
      ∀ v ∈ p.occurrences, v.slot < env.size := by
  have hvars : ∀ v ∈ p.occurrences, v ∈ r.vars := fun v hv =>
    mem_vars_iff.mpr ⟨.pattern p, h.body List.mem_cons_self, hv⟩
  refine ⟨fun u hu v hv => h.checked.eq_of_slot_eq (hvars u hu) (hvars v hv), fun v hv => ?_⟩
  rw [h.size]
  exact h.checked.slot_lt (hvars v hv)

theorem fits_of_mem_find (h : r.Underway (.pattern p :: rest) env) {s : Sources} (hs : s.Built)
    (hx : x ∈ s.find (env.instantiate p)) : (env.match? p x).isSome :=
  Bindings.fits_of_mem_find h.values h.numbered.1 h.numbered.2 hs hx

theorem fits_answer (h : r.Underway (.pattern p :: rest) env) (hx : x.isGround)
    (hgoal : (env.instantiate p).normalize.matches? x) : (env.match? p x).isSome :=
  (Bindings.match?_isSome_iff h.values h.numbered.1 h.numbered.2 hx).mpr
    ((Triple.normalize_matches? _ x).mp hgoal)

end Underway

end CheckedRule

/-! ## The forward engine -/

def Policy.underway (record : Bool) : Policy where
  record := record
  rule r := r.IsChecked ∧ GroundCalls r.body
  triple _ _ := True
  cursor _ c := c.rule.Underway c.rest c.env
  note _ := True
  triple_record _ _ := trivial
  cursor_record _ hc := hc
  front hr := .front hr.1 hr.2
  start hr h := .start hr.1 hr.2 h
  trigger hr _ _ hmatch :=
    (CheckedRule.Underway.front hr.1 hr.2).extend (List.eraseIdx_subset)
      (Bindings.match?_some hmatch).1
  read hc _ hmatch := hc.match? hmatch
  call hc hcall := hc.call hcall
  conclude _ _ _ := trivial
  derive _ _ _ := trivial

theorem Policy.covers_underway {e : Engine} {d : Data} (hbase : e.base.Built)
    (hsources : (e.sources d).Built) (hcalls : ∀ r ∈ e.base.forward, GroundCalls r.body) :
    (Policy.underway e.record).Covers d e where
  base := hbase
  sources := hsources
  record := rfl
  rule r hr := ⟨hbase.consistent.forward r hr, hcalls r hr⟩
  triple _ _ := trivial
  log := fun _ _ => trivial

/-! ## The backward engine -/

namespace Tabling

def underway {ctx : Context} (hctx : ctx.Built)
    (hcalls : ∀ r, ctx.rules.Has r → GroundCalls r.body) : Discipline ctx where
  goal _ := True
  cursor _ r rest env := r.Underway rest env
  answer g x := x.isGround ∧ g.matches? x
  fact _ hx :=
    have hfound := (hctx.sources.mem_find _ _).mp hx
    ⟨hctx.sources.isGround hfound.1, hfound.2⟩
  start _ hr hstart :=
    have hhas := hctx.rules.has_of_mem_candidates hr
    .start (hctx.rules.isChecked hhas) (hcalls _ hhas) hstart
  call h hcall := h.call hcall
  subgoal _ := trivial
  data h _ hmatch := h.match? hmatch
  read h _ hmatch := h.match? hmatch
  head _ _ hground hgoal := ⟨hground, hgoal⟩

theorem Session.obeyed {ctx : Context} {t : Tables} {faulted : Bool} (h : Session ctx t faulted)
    (D : Discipline ctx) (hgoal : ∀ g : Triple, D.goal g.normalize) : Linked t ∧ D.Obeyed t := by
  have hblank : ∀ {ctx : Context} (D : Discipline ctx) {t : Tables}, t.Blank →
      Linked t ∧ D.Obeyed t := fun D _ h => ⟨.blank h, .blank h⟩
  induction h with
  | new _ settings => exact hblank D (Tables.blank_new settings)
  | ask _ goal ih => exact (D.persistent hgoal).ask _ goal (ih D hgoal)
  | pump _ ho ih =>
      rcases (D.persistent hgoal).pump (ih D hgoal) ho with ⟨-, hkept, -⟩ | ⟨-, hkept⟩
      · exact hkept
      · exact hkept
  | @reset _ _ t _ _ _ _ => exact hblank D t.blank_reset

/-- No way leads nowhere: every rule that is tried can start, and every triple or answer that is
read fits. -/
structure Tables.Fitting (t : Tables) : Prop where
  choice : ∀ id, ∀ c ∈ (t.generator id).stack,
    (t.openChoice id (t.generator id).goal c).1 ≠ .unfit
  data : ∀ id s left, .data s left ∈ (t.generator id).stack →
    ∀ x ∈ left, (s.env.match? s.pattern x).isSome
  frame : ∀ f < t.frames.size, ∀ x ∈ (t.generator (t.frame f).target).results,
    ((t.frame f).continuation.env.match? (t.frame f).continuation.pattern x).isSome

theorem Suspension.resume?_ne_none {s : Suspension} {x : Triple}
    (h : (s.env.match? s.pattern x).isSome) (record : Bool) : s.resume? x record ≠ none := by
  obtain ⟨env, hmatch⟩ := Option.isSome_iff_exists.mp h
  rw [resume?, hmatch]
  exact Option.some_ne_none _

namespace Tables

variable {t : Tables}

theorem openChoice_start {id : GeneratorId} {goal : Triple} {r : CheckedRule}
    {rules : List CheckedRule} (h : r.headMatches goal) :
    (t.openChoice id goal (.alternatives [] (r :: rules))).1 ≠ .unfit := by
  obtain ⟨env, hstart⟩ := Option.isSome_iff_exists.mp h
  unfold openChoice
  dsimp only
  rw [hstart]
  exact Opening.noConfusion

theorem openChoice_data {id : GeneratorId} {goal : Triple} {s : Suspension} {x : Triple}
    {left : List Triple} (h : (s.env.match? s.pattern x).isSome) :
    (t.openChoice id goal (.data s (x :: left))).1 ≠ .unfit := by
  unfold openChoice
  dsimp only
  split
  · exact Opening.noConfusion
  · rename_i hresume
    exact absurd hresume (Suspension.resume?_ne_none h _)

theorem openChoice_consume {id : GeneratorId} {goal : Triple} {f : FrameId}
    (h : ∀ x ∈ (t.generator (t.frame f).target).results,
      ((t.frame f).continuation.env.match? (t.frame f).continuation.pattern x).isSome) :
    (t.openChoice id goal (.consume f)).1 ≠ .unfit := by
  have hread : (t.readAnswer f).1 ≠ .unfit := by
    unfold readAnswer
    dsimp only
    split
    · rename_i x hx
      split
      · exact Reading.noConfusion
      · rename_i hresume
        exact absurd hresume (Suspension.resume?_ne_none (h x (Array.mem_of_getElem? hx)) _)
    · exact Reading.noConfusion
  unfold openChoice
  dsimp only
  split
  · exact Opening.noConfusion
  · rename_i heq
    rw [heq] at hread
    exact absurd rfl hread
  · exact Opening.noConfusion

end Tables

theorem fitting_of_obeyed {ctx : Context} {hctx : ctx.Built}
    {hcalls : ∀ r, ctx.rules.Has r → GroundCalls r.body} {t : Tables} (hlinked : Linked t)
    (h : (underway hctx hcalls).Obeyed t) : t.Fitting := by
  have hdata : ∀ id s left, .data s left ∈ (t.generator id).stack →
      ∀ x ∈ left, (s.env.match? s.pattern x).isSome := by
    intro id s left hc x hx
    obtain ⟨hawaits, hleft⟩ := h.choice id _ hc
    exact CheckedRule.Underway.fits_of_mem_find hawaits hctx.sources (hleft x hx)
  have hframe : ∀ f < t.frames.size, ∀ x ∈ (t.generator (t.frame f).target).results,
      ((t.frame f).continuation.env.match? (t.frame f).continuation.pattern x).isSome := by
    intro f hf x hx
    obtain ⟨hground, hmatches⟩ := h.answer _ x hx
    rw [hlinked.goal f hf] at hmatches
    exact CheckedRule.Underway.fits_answer (h.frame f hf) hground hmatches
  refine ⟨fun id c hc => ?_, hdata, hframe⟩
  cases c with
  | alternatives facts rules =>
      cases facts with
      | cons x facts => exact Opening.noConfusion
      | nil =>
          cases rules with
          | nil => exact Opening.noConfusion
          | cons r rules =>
              have hr := (h.choice id _ hc).2 r List.mem_cons_self
              exact Tables.openChoice_start (List.mem_filter.mp hr).2
  | data s left =>
      cases left with
      | nil => exact Opening.noConfusion
      | cons x left => exact Tables.openChoice_data (hdata id s _ hc x List.mem_cons_self)
  | consume f => exact Tables.openChoice_consume (hframe f (hlinked.stack id f hc).1)

/-- Whatever a session pumps, no way leads nowhere. -/
theorem Session.fitting {ctx : Context} {t : Tables} {faulted : Bool} (h : Session ctx t faulted)
    (hcalls : ∀ r, ctx.rules.Has r → GroundCalls r.body) {target : GeneratorId}
    {limit fresh : Nat} {m : Machine} (hm : Passes ctx t target limit fresh m) :
    m.tables.Fitting := by
  obtain ⟨hctx, -⟩ := h.kept
  have hobeyed := h.obeyed (underway hctx hcalls) fun _ => trivial
  obtain ⟨hlinked, hobeyed⟩ :=
    ((underway hctx hcalls).persistent fun _ => trivial).passes hobeyed hm
  exact fitting_of_obeyed hlinked hobeyed

end Tabling

/-! ## Both engines -/

/-- Let the variables of a pattern have the same slot just when they have the same name, let their
slots be slots of bindings, and let all values of the bindings be ground.  Then the bindings match a
ground triple just when it is an instance of what they make of the pattern; a match makes the
pattern the triple, keeps all values, and adds values of variables of the pattern only.  So all that
is found for the pattern under the bindings, and all answers to it as a goal, match.  In a pass
every triple that is found for a clause matches it, and in a pump every triple and every answer that
is read. -/
theorem matchers_agree :
    (∀ (p : Triple) (b : Bindings),
      (∀ u ∈ p.occurrences, ∀ v ∈ p.occurrences, u.slot = v.slot ↔ u.name = v.name) →
      (∀ v ∈ p.occurrences, v.slot < b.size) → b.Values (·.isGround) →
        (∀ t : Triple, t.isGround → ((b.match? p t).isSome ↔ (b.instantiate p).matches? t)) ∧
        (∀ t b', b.match? p t = some b' → b'.instantiate p = t ∧ b.Extends b' p.occurrences) ∧
        (∀ s : Sources, s.Built → ∀ x ∈ s.find (b.instantiate p), (b.match? p x).isSome) ∧
        ∀ ctx t faulted, Session ctx t faulted → ∀ id,
          (t.generator id).goal = (b.instantiate p).normalize →
            ∀ x ∈ (t.generator id).results, (b.match? p x).isSome) ∧
    (∀ (e : Engine) (d : Data), e.base.Built → (e.sources d).Built →
      (∀ r ∈ e.base.forward, GroundCalls r.body) →
        ∀ r env p rest premises, e.WorksOn d ⟨r, env, .pattern p :: rest, premises⟩ →
          ∀ x ∈ (e.sources d).find (env.instantiate p), (env.match? p x).isSome) ∧
    ∀ ctx t faulted, Session ctx t faulted → (∀ r, ctx.rules.Has r → GroundCalls r.body) →
      ∀ target limit fresh m, Passes ctx t target limit fresh m → m.tables.Fitting := by
  refine ⟨fun p b hnames hlt hb => ?_, ?_, fun ctx t faulted h hcalls _ _ _ _ => h.fitting hcalls⟩
  · have hapart : ∀ u ∈ p.occurrences, ∀ v ∈ p.occurrences, u.slot = v.slot → u = v := by
      intro u hu v hv hslot
      have hname := (hnames u hu v hv).mp hslot
      cases u
      cases v
      simp_all only
    refine ⟨fun t ht => Bindings.match?_isSome_iff hb hapart hlt ht, fun t b' h => ?_,
      fun s hs x => Bindings.fits_of_mem_find hb hapart hlt hs, ?_⟩
    · obtain ⟨hext, hinst, -⟩ := Bindings.match?_some h
      exact ⟨hinst, hext⟩
    · intro ctx t faulted h id hgoal x hx
      obtain ⟨hctx, hkept, hattentive⟩ := h.kept
      have hconsistent := hkept.consistent hattentive
      have hmatches := hgoal ▸ hconsistent.matching id x hx
      exact (Bindings.match?_isSome_iff hb hapart hlt (hconsistent.ground id x hx)).mpr
        ((Triple.normalize_matches? _ x).mp hmatches)
  · intro e d hbase hsources hcalls r env p rest premises hworks x hx
    have hunderway := (Policy.covers_underway hbase hsources hcalls).worksOn hworks
    exact CheckedRule.Underway.fits_of_mem_find hunderway hsources hx

/-! ## An instance -/

theorem CheckedRule.Guarded.groundCalls {r : CheckedRule} (h : r.Guarded) :
    GroundCalls r.body := by
  intro b args hcall
  obtain ⟨before, after, hbody⟩ := List.append_of_mem hcall
  exact (h before b args after hbody).1.grounds

def orderEngine : Engine := .new ((RuleBase.empty .standard).add .before) {} .empty

def orderPair : Data :=
  ⟨.ofList [⟨.iri "a", .iri "before", .iri "b"⟩, ⟨.iri "b", .iri "before", .iri "c"⟩], .empty⟩

def circlePump : Option Tabling.Outcome :=
  ((Tables.new {}).generatorFor circle ⟨.iri "a", .iri "before", .named "x"⟩).2.pump
    100 circle 0 10 0

def Tabling.Tables.HasAnswers (t : Tables) : Prop :=
  0 < t.frames.size ∧ 0 < (t.generator (t.frame 0).target).results.size

instance (t : Tables) : Decidable t.HasAnswers :=
  inferInstanceAs
    (Decidable (0 < t.frames.size ∧ 0 < (t.generator (t.frame 0).target).results.size))

/-- A pattern with a variable in two places, one of them in a term, matches; so does what is found
for the second clause of the rule, and so do the answers that are there for a rule that waits. -/
theorem before_matchers_agree :
    ((Bindings.empty 2).match? ⟨.var ⟨"x", 0⟩, .var ⟨"y", 1⟩, .compound "of" [.var ⟨"x", 0⟩]⟩
        ⟨.iri "a", .iri "before", .compound "of" [.iri "a"]⟩).isSome ∧
      (∀ x ∈ (orderEngine.sources orderPair).find ⟨.iri "b", .iri "before", .var ⟨"z", 2⟩⟩,
        ((⟨[some (.iri "a"), some (.iri "b"), none]⟩ : Bindings).match?
          ⟨.var ⟨"y", 1⟩, .iri "before", .var ⟨"z", 2⟩⟩ x).isSome) ∧
      ∃ o m, circlePump = some o ∧ Passes circle o.tables 0 1 0 m ∧ m.tables.HasAnswers ∧
        m.tables.Fitting := by
  obtain ⟨hmatch, hforward, hbackward⟩ := matchers_agree
  have hbase : orderEngine.base.Built :=
    .add (.empty _) CheckedRule.isMade_beforeRule CheckedRule.check_beforeRule
  have hsources : (orderEngine.sources orderPair).Built :=
    ⟨Store.built_ofList (by decide), .empty, .empty⟩
  refine ⟨?_, ?_, ?_⟩
  · refine ((hmatch _ (.empty 2) (by decide) (by decide) (Bindings.values_empty 2 _)).1 _ ?_).mpr ?_
    · decide
    · decide +kernel
  · have henters := Enters.trigger (e := orderEngine) (d := orderPair)
      (t := ⟨.iri "a", .iri "before", .iri "b"⟩) (by decide +kernel)
      (List.mem_cons_self : (⟨0, 0, .before, _, _⟩ : Trigger) ∈
        orderEngine.base.triggersFor (.iri "before")) rfl
    refine hforward orderEngine orderPair hbase hsources ?_ _ _ _ _ _ ⟨_, henters, .refl⟩
    intro r hr
    rw [List.mem_singleton.mp hr]
    exact CheckedRule.guarded_before.groundCalls
  · have hwaits : circlePump.any fun o =>
        decide (if (o.tables.generator 0).state = .ready then o.tables.enqueue 0
          else o.tables).HasAnswers := by
      decide +kernel
    rw [Option.any_eq_true] at hwaits
    obtain ⟨o, ho, hwaits⟩ := hwaits
    have hsession : Session circle o.tables (false || o.fault.isSome) :=
      .pump (.ask (.new built_circle {}) _) ho
    have hfitting := hbackward circle o.tables _ hsession
      (fun r hr => (guarded_circle r hr).groundCalls) 0 1 0 _ .start
    exact ⟨o, _, ho, .start, of_decide_eq_true hwaits, hfitting⟩

end TripleRules
