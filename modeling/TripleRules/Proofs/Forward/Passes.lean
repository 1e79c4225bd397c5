import TripleRules.Proofs.Forward.Trace

/-!
# Passes of the forward engine

A pass enters rules one after the other.  Each time it completes the body of the rule in every way
and draws the conclusions of what was completed; in between it only plans which triples come next.
What holds when a pass begins, and is kept by every conclusion that completed bodies have, holds at
every rule that is entered and when the pass ends.
-/

namespace TripleRules.Forward

namespace Engine

open Tabling (Cursor)

variable {d : Data} {e e' e'' : Engine}

/-! ## Drawing conclusions -/

/-- What an engine does with completed bodies of a kind: it counts them, draws their conclusions one
after the other, and stops for good when the limit is met. -/
inductive Draws (d : Data) (F : Firing → Prop) : Engine → Engine → Prop where
  | refl (e : Engine) : Draws d F e e
  | noted (e : Engine) (failures : List BuiltinFailure) :
      Draws d F e { e with failures := failures }
  | counted (e : Engine) (firings : Nat) :
      Draws d F e { e with stats := { e.stats with firings := firings } }
  | halted (e : Engine) :
      Draws d F e { e with stats := { e.stats with thresholdExceeded := true }, agenda := [] }
  | deduce (e : Engine) {f : Firing} (hf : F f) {p : Triple} (hp : .pattern p ∈ f.rule.rule.head) :
      Draws d F e (e.deduce d f (f.env.instantiate p))
  | install (e : Engine) {f : Firing} (hf : F f) {r : Rule} (hr : .rule r ∈ f.rule.rule.head) :
      Draws d F e (e.install r f.env)
  | trans {e e' e'' : Engine} (h : Draws d F e e') (h' : Draws d F e' e'') : Draws d F e e''

variable {F : Firing → Prop}

theorem Draws.chained (h : Draws d F e e') : Chained d e e' := by
  induction h with
  | refl e => exact .refl e
  | noted | counted | halted => exact .noted rfl rfl rfl
  | deduce e => exact .deduce e _ _
  | install e => exact .install e _ _
  | trans _ _ ih ih' => exact ih.trans ih'

theorem draws_fire (e : Engine) {f : Firing} (hf : F f) : Draws d F e (e.fire d f) := by
  refine List.foldlRecOn _ _ (motive := Draws d F e) (.counted e _) fun e' h c hc => h.trans ?_
  cases c with
  | pattern p => exact .deduce e' hf hc
  | rule r => exact .install e' hf hc

theorem draws_fireAll {fs : List Firing} (hfs : ∀ f ∈ fs, F f) (e : Engine) :
    Draws d F e (fireAll d fs e).1 := by
  induction fs generalizing e with
  | nil => exact .refl e
  | cons f fs ih =>
      unfold fireAll
      split
      · exact .halted e
      · have hf : Draws d F e (e.fire d f) := draws_fire e (hfs f List.mem_cons_self)
        exact hf.trans (ih (fun g hg => hfs g (List.mem_cons_of_mem _ hg)) _)

def Completes (e : Engine) (d : Data) (c : Cursor) (f : Firing) : Prop :=
  ∃ fresh,
    f ∈ (complete (e.sources d) c.rule e.record c.rest c.env c.premises (.start fresh)).firings

theorem draws_matchAndFire (e : Engine) (d : Data) (c : Cursor) (fresh : Nat) :
    Draws d (e.Completes d c) e
      (e.matchAndFire d c.rule c.rest c.env c.premises fresh).1.engine := by
  unfold matchAndFire
  dsimp only
  split
  · exact .noted e _
  · exact (Draws.noted e _).trans (draws_fireAll (fun f hf => ⟨fresh, hf⟩) _)

/-! ## Rules that are entered -/

/-- The ways into a forward rule: one without patterns is entered in front, any other at a pattern
that a triple in the sources matches. -/
inductive Enters (e : Engine) (d : Data) : Cursor → Prop where
  | front {r : CheckedRule} (h : r ∈ e.base.unconditional) :
      Enters e d ⟨r, .empty r.slots, r.body, []⟩
  | trigger {t : Triple} {tr : Trigger} {env : Bindings} (ht : (e.sources d).contains t)
      (htr : tr ∈ e.base.triggersFor t.predicate)
      (hmatch : (Bindings.empty tr.rule.slots).match? tr.pattern t = some env) :
      Enters e d ⟨tr.rule, env, tr.rest, if e.record then [t] else []⟩

/-- From one engine to another in a pass: triples from the sources are planned to come next, and
rules are entered. -/
inductive Reaches (d : Data) (e : Engine) : Engine → Prop where
  | refl : Reaches d e e
  | plan {e' : Engine} (h : Reaches d e e') {ts : List Triple}
      (hts : ∀ t ∈ ts, (e'.sources d).contains t) : Reaches d e { e' with agenda := ts }
  | enter {e' : Engine} (h : Reaches d e e') {c : Cursor} (hc : e'.Enters d c) (fresh : Nat) :
      Reaches d e (e'.matchAndFire d c.rule c.rest c.env c.premises fresh).1.engine

theorem Reaches.chained (h : Reaches d e e') : Chained d e e' := by
  induction h with
  | refl => exact .refl e
  | plan _ _ ih => exact ih.trans (.withAgenda _ _)
  | enter _ _ fresh ih => exact ih.trans (draws_matchAndFire _ d _ fresh).chained

def Planned (e : Engine) (d : Data) : Prop := ∀ t ∈ e.agenda, (e.sources d).contains t

theorem Planned.draws (h : e.Planned d) (hd : Draws d F e e') : e'.Planned d := by
  induction hd with
  | refl | noted | counted => exact h
  | halted => exact fun t ht => absurd ht List.not_mem_nil
  | @deduce e f _ p _ =>
      have hkeep : ∀ t, (e.sources d).contains t →
          ((e.deduce d f (f.env.instantiate p)).sources d).contains t := by
        intro t ht
        have hgrown := (extends_deduce d e f (f.env.instantiate p)).deductions
        rw [Sources.contains_iff] at ht ⊢
        exact ht.imp_right (·.imp_right (hgrown.subset ·))
      intro t ht
      unfold Engine.deduce at ht
      split at ht
      · exact hkeep t (h t ht)
      · rename_i hnew
        rcases List.mem_append.mp ht with ht | ht
        · exact hkeep t (h t ht)
        · rw [Bool.or_eq_true, not_or, Bool.not_eq_true', Bool.not_eq_false] at hnew
          rw [List.mem_singleton.mp ht]
          unfold Engine.deduce
          rw [if_neg (by simpa using hnew), Sources.contains_iff]
          exact .inr (.inr ((Store.mem_insert _ _ _).mpr (.inr rfl)))
  | install e =>
      unfold Engine.install
      split
      · exact h
      · split
        · exact h
        · exact h
  | trans _ _ ih ih' => exact ih' (ih h)

/-! ## Passes -/

structure Passes (d : Data) (e : Engine) (o : Outcome) : Prop where
  reaches : Reaches d e o.engine
  planned : o.engine.Planned d

theorem Opens.enters {seen : List Triple} {c : Cursor} (h : e.Opens seen c)
    (hseen : ∀ t ∈ seen, (e.sources d).contains t) : e.Enters d c := by
  cases h with
  | front hr => exact .front hr
  | trigger ht htr hmatch => exact .trigger (hseen _ ht) htr hmatch

theorem passes_entered {o : Outcome} (h : Passes d e o) {c : Cursor} (hc : o.engine.Enters d c)
    (fresh : Nat) : Passes d e (o.engine.entered d c fresh) :=
  ⟨h.reaches.enter hc fresh, h.planned.draws (draws_matchAndFire o.engine d c fresh)⟩

theorem Passes.plan {o : Outcome} (h : Passes d e o) {ts : List Triple}
    (hts : ∀ t ∈ ts, (o.engine.sources d).contains t) (fresh : Nat) :
    Passes d e ⟨{ o.engine with agenda := ts }, fresh, none⟩ :=
  ⟨h.reaches.plan hts, hts⟩

section Calls

variable {start : Nat} {w : Deeds} {o : Outcome}

theorem Proceeds.at_hand (h : Proceeds d e start w o) (hplan : e.Planned d)
    (hasserted : ∀ t ∈ w.asserted, (e.sources d).contains t) :
    ∀ t ∈ e.agenda ++ w.pushed, (o.engine.sources d).contains t := by
  obtain ⟨ts, hdeduces, hpushed⟩ := h.deduces
  intro t ht
  rw [hdeduces.contains_iff]
  rcases List.mem_append.mp ht with ht | ht
  · exact .inl (hplan t ht)
  · exact (List.mem_append.mp (hpushed.subset ht)).imp_left (hasserted t)

/-- A call is a pass, if all that it begins with is at hand. -/
theorem Proceeds.passes (h : Proceeds d e start w o) (hplan : e.Planned d)
    (hasserted : ∀ t ∈ w.asserted, (e.sources d).contains t) : Passes d e o := by
  induction h with
  | start => exact ⟨.refl, hplan⟩
  | assert h us ih =>
      have hall := (h.assert us).at_hand hplan hasserted
      refine (ih fun t ht => hasserted t (List.mem_append_left _ ht)).plan (fun t ht => ?_) _
      exact hall t ((h.assert us).mem_of_mem_agenda ht)
  | pop h hagenda ih =>
      have hpasses := ih hasserted
      refine hpasses.plan (fun t ht => hpasses.planned t ?_) _
      rw [hagenda]
      exact List.mem_cons_of_mem _ ht
  | drop _ _ ih => exact (ih hasserted).plan (fun t ht => absurd ht List.not_mem_nil) _
  | enter h hc _ _ ih =>
      exact passes_entered (ih hasserted) (hc.enters (h.at_hand hplan hasserted)) _
  | broken h hc _ ih =>
      exact passes_entered (ih hasserted) (hc.enters (h.at_hand hplan hasserted)) _

end Calls

theorem passes_call {c : Call} {fuel fresh : Nat} {o : Outcome} (hplan : e.Planned d)
    (hraw : ∀ t ∈ c.asserted d, t ∈ d.raw.triples) (ho : e.call c fuel d fresh = some o) :
    Passes d e o := by
  obtain ⟨w, hw⟩ := exists_performs ho
  refine hw.proceeds.passes hplan fun t ht => (Sources.contains_iff _ t).mpr (.inl ?_)
  rcases hw.asserted with hnone | hall
  · rw [hnone] at ht
    cases ht
  · exact hraw t (hall ▸ ht)

theorem passes_run {fuel fresh : Nat} {o : Outcome} (hplan : e.Planned d)
    (ho : e.run fuel d fresh = some o) : Passes d e o :=
  passes_call (c := .run) hplan (fun _ ht => ht) ho

theorem passes_addTriple {fuel fresh : Nat} {t : Triple} {o : Outcome} (hplan : e.Planned d)
    (ht : t ∈ d.raw.triples) (ho : e.addTriple fuel d t fresh = some o) : Passes d e o :=
  passes_call (c := .addTriple t) hplan (fun _ hu => List.mem_singleton.mp hu ▸ ht) ho

theorem planned_new (b : RuleBase) (settings : ReasoningSettings) (installed : RuleSet)
    (d : Data) : (Engine.new b settings installed).Planned d :=
  fun _ ht => absurd ht List.not_mem_nil

theorem Planned.assert {raw raw' schema : Store} (h : e.Planned ⟨raw, schema⟩)
    (hraw : ∀ t ∈ raw.triples, t ∈ raw'.triples) : e.Planned ⟨raw', schema⟩ := by
  intro t ht
  have hin := h t ht
  rw [Sources.contains_iff] at hin ⊢
  exact hin.imp_left (hraw t ·)

/-! ## What a pass notes -/

structure Remembers (e e' : Engine) : Prop where
  exceeded : e.stats.thresholdExceeded → e'.stats.thresholdExceeded
  rejected : e.rejected <+: e'.rejected

theorem Remembers.refl (e : Engine) : Remembers e e := ⟨id, List.prefix_refl _⟩

theorem Remembers.trans (h : Remembers e e') (h' : Remembers e' e'') : Remembers e e'' :=
  ⟨h'.exceeded ∘ h.exceeded, h.rejected.trans h'.rejected⟩

theorem Draws.remembers (h : Draws d F e e') : Remembers e e' := by
  induction h with
  | refl e => exact .refl e
  | noted | counted => exact ⟨id, List.prefix_refl _⟩
  | halted => exact ⟨fun _ => rfl, List.prefix_refl _⟩
  | deduce e =>
      unfold Engine.deduce
      split
      · exact .refl e
      · exact ⟨id, List.prefix_refl _⟩
  | install e =>
      unfold Engine.install
      split
      · exact ⟨id, List.prefix_append _ _⟩
      · split
        · exact .refl e
        · exact ⟨id, List.prefix_refl _⟩
  | trans _ _ ih ih' => exact ih.trans ih'

theorem Reaches.remembers (h : Reaches d e e') : Remembers e e' := by
  induction h with
  | refl => exact .refl e
  | plan _ _ ih => exact ih.trans ⟨id, List.prefix_refl _⟩
  | enter _ _ fresh ih => exact ih.trans (draws_matchAndFire _ d _ fresh).remembers

end Engine

end TripleRules.Forward
