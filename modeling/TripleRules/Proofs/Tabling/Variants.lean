import TripleRules.Proofs.Tabling.Order
import TripleRules.Proofs.Tabling.Sessions

/-!
# One generator for all variants

Goals are tabled under their canonical form.  Until the tables are emptied, whatever is asked for
and pumped in between, a goal finds the generator of another just when the two are variants.
-/

namespace TripleRules.Tabling

theorem Kept.runs {ctx : Context} {hctx : ctx.Built} {t t' : Tables} (h : Kept hctx t)
    {id : GeneratorId} (hid : id < t.size) (hruns : Runs ctx t t') :
    Kept hctx t' ∧ Later t id t' :=
  (Kept.persistent.withLater (fun _ _ h => h.linked) t id).runs ⟨h, .refl hid⟩ hruns

/-- A goal that is asked for finds the generator that has its canonical form as goal. -/
theorem Linked.generatorFor_eq_iff {t : Tables} (h : Linked t) (ctx : Context) {goal : Triple}
    {id : GeneratorId} (hid : id < t.size) :
    (t.generatorFor ctx goal).1 = id ↔ goal.normalize = (t.generator id).goal := by
  have hafter := h.generatorFor ctx goal
  have hsize : id < (t.generatorFor ctx goal).2.size :=
    Nat.lt_of_lt_of_le hid (size_le_generatorFor t ctx goal)
  have hgoal : ((t.generatorFor ctx goal).2.generator id).goal = (t.generator id).goal :=
    goal_generatorFor t ctx goal hid
  obtain ⟨hfound, hkey⟩ := h.generatorFor_fst ctx goal
  constructor
  · rintro rfl
    exact hkey.symm.trans hgoal
  · intro heq
    -- both generators are filed under the one key
    have hnew := (hafter.cache goal.normalize _).mpr ⟨hfound, hkey⟩
    have hold := (hafter.cache goal.normalize id).mpr ⟨hsize, hgoal.trans heq.symm⟩
    exact Option.some.inj (hnew.symm.trans hold)

/-- Two patterns have one canonical form just when they are variants; a canonical form is its own,
and it has the instances of the pattern.  So between two times that the tables are emptied, two
goals have one generator just when they are variants. -/
theorem goals_up_to_renaming :
    (∀ p q : Triple, p.normalize = q.normalize ↔ p.Variant q) ∧
      (∀ p : Triple, p.normalize.normalize = p.normalize) ∧
      (∀ p t : Triple, p.normalize.matches? t = p.matches? t) ∧
      ∀ (ctx : Context) (t t' : Tables) (faulted : Bool) (goal goal' : Triple),
        Session ctx t faulted → Runs ctx (t.generatorFor ctx goal).2 t' →
          ((t'.generatorFor ctx goal').1 = (t.generatorFor ctx goal).1 ↔ goal.Variant goal') := by
  refine ⟨Triple.normalize_eq_iff, Triple.normalize_normalize, fun p t => ?_, ?_⟩
  · rw [Bool.eq_iff_iff]
    exact p.normalize_matches? t
  · intro ctx t t' faulted goal goal' hsession hruns
    obtain ⟨hctx, hkept, -⟩ := hsession.kept
    obtain ⟨hfound, hgoal⟩ := hkept.linked.generatorFor_fst ctx goal
    obtain ⟨hkept', hlater⟩ := (hkept.ask goal).runs hfound hruns
    calc (t'.generatorFor ctx goal').1 = (t.generatorFor ctx goal).1
        ↔ goal'.normalize = (t'.generator (t.generatorFor ctx goal).1).goal :=
          hkept'.linked.generatorFor_eq_iff ctx hlater.size
      _ ↔ goal'.normalize = goal.normalize := by rw [hlater.goal, hgoal]
      _ ↔ goal.normalize = goal'.normalize := eq_comm
      _ ↔ goal.Variant goal' := goal.normalize_eq_iff goal'

/-- After a pump that broke off, a goal with other names finds the generator that was asked for, and
one that has the same variable twice does not. -/
theorem generator_of_variant : ∃ o, brokenPump = some o ∧
    (o.tables.generatorFor badPost ⟨.named "y", .iri "gets", .named "x"⟩).1 =
      ((Tables.new {}).generatorFor badPost anyGets).1 ∧
    (o.tables.generatorFor badPost ⟨.named "x", .iri "gets", .named "x"⟩).1 ≠
      ((Tables.new {}).generatorFor badPost anyGets).1 := by
  have hpump : brokenPump.isSome := by decide +kernel
  obtain ⟨o, ho⟩ := Option.isSome_iff_exists.mp hpump
  obtain ⟨hvariant, -, -, hgenerator⟩ := goals_up_to_renaming
  have hnew : Session badPost (Tables.new {}) false := .new (built_posts (by decide)) {}
  have hiff := fun goal' =>
    hgenerator badPost _ o.tables false anyGets goal' hnew (Runs.refl.pump ho)
  refine ⟨o, ho, (hiff _).mpr ((hvariant _ _).mp (by decide +kernel)), fun heq => ?_⟩
  have hsame := (hvariant _ _).mpr ((hiff _).mp heq)
  exact absurd hsame (by decide +kernel)

end TripleRules.Tabling
