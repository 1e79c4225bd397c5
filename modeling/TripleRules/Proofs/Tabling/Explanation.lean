import TripleRules.Proofs.Rule.Explanation
import TripleRules.Proofs.Tabling.Order
import TripleRules.Proofs.Tabling.Policy

/-!
# Explanations of answers

The backward engine records a derivation with every answer that a rule brings and that its goal has
not had.  The triples at hand are the first answers of every goal, so what is recorded is not at
hand.  An answer may be brought for several goals, from other premises each time; those that came
first were at hand or had been brought before.
-/

namespace TripleRules.Tabling

variable {ctx : Context} {t t' : Tables}

def Context.Gives (ctx : Context) (x : Triple) : Prop := ctx.sources.contains x

/-- What has been recorded explains the answers that are not at hand. -/
structure Tables.Explains (ctx : Context) (t : Tables) : Prop where
  governs : (Policy.explaining ctx.Gives).Governs t
  founded : t.log.Founded ctx.Gives
  apart : ∀ x ∈ t.log.conclusions, ¬ ctx.Gives x

namespace Tables.Explains

theorem blank (h : t.Blank) (hrecord : t.record = true) (hlog : t.log = .empty) :
    Explains ctx t := by
  refine ⟨.blank h hrecord hlog, ?_, ?_⟩
  · rw [hlog]
    exact .empty _
  · rw [hlog]
    exact fun x hx => absurd hx List.not_mem_nil

theorem mem_conclusions (h : Explains ctx t) {id : GeneratorId} {x : Triple}
    (hx : x ∈ (t.generator id).results) (hout : ¬ ctx.Gives x) : x ∈ t.log.conclusions :=
  (h.governs.answer id x hx).resolve_left hout

theorem ask (h : Explains ctx t) (hctx : (Policy.explaining ctx.Gives).Supplies ctx)
    (goal : Triple) : Explains ctx (t.generatorFor ctx goal).2 := by
  have hlog := Tables.log_eq (t.book_generatorFor ctx goal)
  refine ⟨h.governs.ask hctx goal, ?_, ?_⟩
  · rw [hlog]
    exact h.founded
  · rw [hlog]
    exact h.apart

theorem not_gives (hctx : ctx.Built) (hfirst : FactsFirst ctx t) (hrecorded : Recorded t)
    {id : GeneratorId} {x : Triple} (hgoal : (t.generator id).goal.matches? x)
    (hopen : (t.generator id).isComplete = false) (hnew : x ∉ (t.generator id).known)
    (hfacts : ∀ y facts rules below,
      (t.generator id).stack ≠ .alternatives (y :: facts) rules :: below) : ¬ ctx.Gives x := by
  intro hin
  have hid : id < t.size := by
    by_contra hlt
    rw [Tables.generator_of_size_le (Nat.le_of_not_lt hlt)] at hopen
    cases hopen
  have hle := (hfirst id hid).prefix_results fun y facts rules => hfacts y facts rules []
  have hfind : x ∈ ctx.sources.find (t.generator id).goal :=
    (hctx.sources.mem_find _ x).mpr ⟨hin, hgoal⟩
  exact hnew ((hrecorded.known id hopen x).mpr (Array.mem_toList_iff.mp (hle.subset hfind)))

theorem writes (h : Explains ctx t) (hctx : ctx.Built) (hfirst : FactsFirst ctx t)
    (hrecorded : Recorded t) {log : DerivationLog}
    (hw : (Policy.explaining ctx.Gives).Writes t log) :
    log.Founded ctx.Gives ∧ ∀ x ∈ log.conclusions, ¬ ctx.Gives x := by
  cases hw with
  | none => exact ⟨h.founded, h.apart⟩
  | @answer id c x d hconcludes hopen hnew hfacts =>
      have hout := not_gives hctx hfirst hrecorded hconcludes.goal hopen hnew hfacts
      have hd : d = ⟨c.rule.rule, x, c.premises⟩ := Option.some.inj hconcludes.derivation
      have hinstance : d.IsInstance := hconcludes.note d rfl
      subst hd
      refine ⟨h.founded.record hinstance hconcludes.cursor.2 (.inr hout), fun y hy => ?_⟩
      rcases (DerivationLog.mem_conclusions_record _ _ _).mp hy with hy | rfl
      · exact h.apart y hy
      · exact hout

theorem step (h : Explains ctx t) (hctx : (Policy.explaining ctx.Gives).Supplies ctx)
    (hfirst : FactsFirst ctx t) (hrecorded : Recorded t) {limit start fresh : Nat}
    {turn : Option Turn} {target : GeneratorId} {m : Machine} (hlimit : 1 ≤ limit)
    (hstep : Machine.step ctx limit start target ⟨t, fresh, turn⟩ = .next m) :
    Explains ctx m.tables := by
  have hgoverns := Policy.Governs.step (m := ⟨t, fresh, turn⟩) h.governs hctx hlimit hstep
  have hwrites := (Policy.Holds.step (m := ⟨t, fresh, turn⟩) h.governs.toHolds hctx h.governs.linked
    hstep).2
  obtain ⟨hfounded, hapart⟩ := h.writes hctx.built hfirst hrecorded hwrites
  exact ⟨hgoverns, hfounded, hapart⟩

/-- Every state that a pump passes through explains its answers. -/
theorem passes (h : Explains ctx t) (hctx : (Policy.explaining ctx.Gives).Supplies ctx)
    {target : GeneratorId} {limit fresh : Nat} {m : Machine}
    (horder : ∀ m, Passes ctx t target limit fresh m → FactsFirst ctx m.tables ∧ Recorded m.tables)
    (hm : Passes ctx t target limit fresh m) : Explains ctx m.tables := by
  induction hm with
  | start =>
      dsimp only
      split
      · have hlog := Tables.log_eq (t.book_enqueue target)
        refine ⟨h.governs.enqueue target, ?_, ?_⟩
        · rw [hlog]
          exact h.founded
        · rw [hlog]
          exact h.apart
      · exact h
  | step hpass hstep ih =>
      obtain ⟨hfirst, hrecorded⟩ := horder _ hpass
      exact ih.step hctx hfirst hrecorded (Nat.le_max_right limit 1) hstep

end Tables.Explains

end TripleRules.Tabling
