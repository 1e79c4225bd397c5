import TripleRules.Proofs.Model.Least
import TripleRules.Proofs.Rule.Filing
import TripleRules.Proofs.Tabling.Linked

/-!
# Runs of the backward engine

The tables are used by asking for the generators of goals and by pumping them, in any order.  What
holds of empty tables, and is kept by every goal that is asked for and by every move, holds of all
tables that can be reached.
-/

namespace TripleRules.Tabling

namespace Context

structure Built (ctx : Context) : Prop where
  sources : ctx.sources.Built
  rules : ctx.rules.Built

def Guarded (ctx : Context) : Prop := ∀ r, ctx.rules.Has r → r.Guarded

def Entails (ctx : Context) : Triple → Prop :=
  Entailed (fun t => ctx.sources.contains t) ctx.rules.Has

end Context

structure Tables.Blank (t : Tables) : Prop where
  generators : t.generators = #[]
  frames : t.frames = #[]
  cache : t.cache = []
  agenda : t.agenda = []

theorem Tables.blank_new (settings : ReasoningSettings) : (Tables.new settings).Blank :=
  ⟨rfl, rfl, rfl, rfl⟩

theorem Tables.blank_reset (t : Tables) : t.reset.Blank := ⟨rfl, rfl, rfl, rfl⟩

/-- The tables after any goals have been asked for and any generators have been pumped. -/
inductive Runs (ctx : Context) (t : Tables) : Tables → Prop where
  | refl : Runs ctx t t
  | ask {t' : Tables} (h : Runs ctx t t') (goal : Triple) : Runs ctx t (t'.generatorFor ctx goal).2
  | pump {t' : Tables} (h : Runs ctx t t') {fuel limit fresh : Nat} {target : GeneratorId}
      {o : Outcome} (ho : t'.pump fuel ctx target limit fresh = some o) : Runs ctx t o.tables

theorem Runs.trans {ctx : Context} {t t' t'' : Tables} (h : Runs ctx t t')
    (h' : Runs ctx t' t'') : Runs ctx t t'' := by
  induction h' with
  | refl => exact h
  | ask _ goal ih => exact ih.ask goal
  | pump _ ho ih => exact ih.pump ho

/-- To find all answers of a goal is to pump it some number of times. -/
theorem Runs.solve {ctx : Context} {t t' : Tables} (h : Runs ctx t t') {fuel limit fresh : Nat}
    {target : GeneratorId} {o : Outcome} (ho : t'.solve fuel ctx target limit fresh = some o) :
    Runs ctx t o.tables := by
  have ho := Option.join_eq_some_iff.mp ho
  have hall : ∀ o' ∈ (some o : Option Outcome), Runs ctx t o'.tables := by
    refine iterate_preserves (I := fun s : Tables × Nat => Runs ctx t s.1)
      (Q := fun o : Option Outcome => ∀ o' ∈ o, Runs ctx t o'.tables) ?_ ?_ h ho
    · rintro ⟨t₁, fresh₁⟩ s' hs hstep
      unfold Tables.solveStep at hstep
      dsimp only at hstep
      split at hstep
      · cases hstep
      · split at hstep
        · cases hstep
        · rename_i o' hpump
          split at hstep
          · cases hstep
          · cases hstep
            exact hs.pump hpump
    · rintro ⟨t₁, fresh₁⟩ b hs hstep
      unfold Tables.solveStep at hstep
      dsimp only at hstep
      split at hstep
      · cases hstep
        rintro o' ⟨⟩
        exact hs
      · split at hstep
        · cases hstep
          rintro o' ⟨⟩
        · rename_i o' hpump
          split at hstep
          · cases hstep
            rintro o'' ⟨⟩
            exact hs.pump hpump
          · cases hstep
  exact hall o rfl

def Reached (ctx : Context) (t : Tables) : Prop := ∃ t₀ : Tables, t₀.Blank ∧ Runs ctx t₀ t

theorem Reached.runs {ctx : Context} {t t' : Tables} (h : Reached ctx t) (h' : Runs ctx t t') :
    Reached ctx t' := by
  obtain ⟨t₀, hblank, hruns⟩ := h
  exact ⟨t₀, hblank, hruns.trans h'⟩

theorem Reached.ask {ctx : Context} {t : Tables} (h : Reached ctx t) (goal : Triple) :
    Reached ctx (t.generatorFor ctx goal).2 := h.runs (Runs.refl.ask goal)

theorem Reached.pump {ctx : Context} {t : Tables} (h : Reached ctx t) {fuel limit fresh : Nat}
    {target : GeneratorId} {o : Outcome} (ho : t.pump fuel ctx target limit fresh = some o) :
    Reached ctx o.tables := h.runs (Runs.refl.pump ho)

theorem Linked.blank {t : Tables} (h : t.Blank) : Linked t := by
  have hsize : t.size = 0 := by rw [Tables.size, h.generators, Array.size_empty]
  have hframes : t.frames.size = 0 := by rw [h.frames, Array.size_empty]
  have hg : ∀ id, t.generator id = default := fun id =>
    Tables.generator_of_size_le (by rw [hsize]; exact Nat.zero_le id)
  have hf : ∀ {P : FrameId → Prop}, ∀ f < t.frames.size, P f := by
    intro P f hlt
    rw [hframes] at hlt
    exact absurd hlt (Nat.not_lt_zero f)
  exact {
    cache := fun key id => by
      rw [h.cache, hsize]
      constructor
      · intro hget
        cases hget
      · rintro ⟨hlt, -⟩
        exact absurd hlt (Nat.not_lt_zero id)
    target_lt := hf
    goal := hf
    consuming := fun id f => by
      rw [hg, hframes]
      constructor
      · intro hmem
        exact absurd hmem List.not_mem_nil
      · rintro ⟨hlt, -⟩
        exact absurd hlt (Nat.not_lt_zero f)
    owner := fun id f hmem => by
      rw [hg] at hmem
      exact absurd hmem List.not_mem_nil
    generating := hf
    nodup := fun id => by
      rw [hg]
      exact List.nodup_nil
    owner_lt := hf
    ready := fun id f hmem => by
      rw [hg] at hmem
      exact absurd hmem List.not_mem_nil
    stack := fun id f hmem => by
      rw [hg] at hmem
      exact absurd hmem List.not_mem_nil }

/-! ## Invariants of runs -/

/-- A property of the tables between steps that moves keep, and what is left of it when a rule has
come to a fault. -/
structure Sustained (ctx : Context) (I : Tables → Option Turn → Prop) (J : Tables → Prop) :
    Prop where
  enqueue : ∀ t id, I t none → (t.generator id).isComplete = false → I (t.enqueue id) none
  move : ∀ t t' turn turn', I t turn → Move ctx t turn t' turn' → I t' turn'
  fault : ∀ t t' turn r rest env premises fresh f, I t (some turn) →
    Takes t turn.id (some (.cursor r rest env)) t' →
    (proceed ctx turn.id (t.generator turn.id).goal r rest env premises t' fresh).1 = .fault f →
      J t'

structure Persistent (ctx : Context) (I : Tables → Option Turn → Prop) (J : Tables → Prop) : Prop
    extends Sustained ctx I J where
  ask : ∀ t goal, I t none → I (t.generatorFor ctx goal).2 none

/-- The states that a pump of a goal passes through, whether it ends or not. -/
inductive Passes (ctx : Context) (t : Tables) (target : GeneratorId) (limit fresh : Nat) :
    Machine → Prop where
  | start : Passes ctx t target limit fresh
      ⟨if (t.generator target).state = .ready then t.enqueue target else t, fresh, none⟩
  | step {m m' : Machine} (h : Passes ctx t target limit fresh m)
      (hstep :
        Machine.step ctx (max limit 1) (t.generator target).results.size target m = .next m') :
      Passes ctx t target limit fresh m'

theorem exists_passes_of_pump {ctx : Context} {t : Tables} {target : GeneratorId}
    {fuel limit fresh : Nat} {o : Outcome} (ho : t.pump fuel ctx target limit fresh = some o) :
    ∃ m, Passes ctx t target limit fresh m ∧
      Machine.step ctx (max limit 1) (t.generator target).results.size target m = .done o := by
  unfold Tables.pump at ho
  refine iterate_preserves (I := Passes ctx t target limit fresh)
    (Q := fun o => ∃ m, Passes ctx t target limit fresh m ∧
      Machine.step ctx (max limit 1) (t.generator target).results.size target m = .done o)
    ?_ ?_ .start ho
  · exact fun m m' hm hstep => hm.step hstep
  · exact fun m o hm hstep => ⟨m, hm, hstep⟩

namespace Sustained

variable {ctx : Context} {I : Tables → Option Turn → Prop} {J : Tables → Prop}

theorem pump_start (h : Sustained ctx I J) {t : Tables} (ht : I t none) (target : GeneratorId) :
    I (if (t.generator target).state = .ready then t.enqueue target else t) none := by
  split
  · rename_i hready
    apply h.enqueue t target ht
    unfold Generator.state at hready
    split at hready
    · cases hready
    · rename_i s hs
      exact Generator.isComplete_of_some hs
  · exact ht

theorem passes (h : Sustained ctx I J) {t : Tables} (ht : I t none) {target : GeneratorId}
    {limit fresh : Nat} {m : Machine} (hm : Passes ctx t target limit fresh m) :
    I m.tables m.turn := by
  induction hm with
  | start => exact h.pump_start ht target
  | step _ hstep ih => exact h.move _ _ _ _ ih (step_next (Nat.le_max_right limit 1) hstep)

/-- A pump that ends without a fault keeps the invariant, and the target has a new answer or all its
answers.  After a fault there is what is left of it. -/
theorem pump (h : Sustained ctx I J) {t : Tables} (ht : I t none) {fuel limit fresh : Nat}
    {target : GeneratorId} {o : Outcome} (ho : t.pump fuel ctx target limit fresh = some o) :
    (o.fault = none ∧ I o.tables none ∧
      ((o.tables.generator target).isComplete ∨
        (t.generator target).results.size < (o.tables.generator target).results.size)) ∨
      o.fault.isSome ∧ J o.tables := by
  unfold Tables.pump at ho
  refine iterate_preserves (I := fun m : Machine => I m.tables m.turn)
    (Q := fun o : Outcome => (o.fault = none ∧ I o.tables none ∧
      ((o.tables.generator target).isComplete ∨
        (t.generator target).results.size < (o.tables.generator target).results.size)) ∨
      o.fault.isSome ∧ J o.tables)
    ?_ ?_ (h.pump_start ht target) ho
  · intro m m' hm hstep
    exact h.move _ _ _ _ hm (step_next (Nat.le_max_right limit 1) hstep)
  · intro m b hm hstep
    rcases step_done hstep with ⟨hturn, htables, hfault, hdone⟩ |
      ⟨turn, r, rest, env, premises, t', fresh', f, hturn, htakes, hproceed, rfl, hfault⟩
    · rw [hturn] at hm
      rw [htables]
      exact .inl ⟨hfault, hm, hdone⟩
    · rw [hturn] at hm
      exact .inr ⟨Option.isSome_iff_exists.mpr ⟨f, hfault⟩,
        h.fault _ _ _ _ _ _ _ _ _ hm htakes hproceed⟩

end Sustained

/-- What holds between steps and after faults alike holds of all tables that can be reached. -/
theorem Persistent.runs {ctx : Context} {K : Tables → Prop}
    (h : Persistent ctx (fun t _ => K t) K) {t t' : Tables} (ht : K t) (hruns : Runs ctx t t') :
    K t' := by
  induction hruns with
  | refl => exact ht
  | ask _ goal ih => exact h.ask _ goal ih
  | pump _ ho ih =>
      rcases h.pump ih ho with ⟨-, hkept, -⟩ | ⟨-, hkept⟩
      · exact hkept
      · exact hkept

/-- A property of the tables between steps that goals and moves keep, and under which no rule that
is taken on comes to a fault. -/
structure Invariant (ctx : Context) (I : Tables → Option Turn → Prop) : Prop where
  ask : ∀ t goal, I t none → I (t.generatorFor ctx goal).2 none
  enqueue : ∀ t id, I t none → (t.generator id).isComplete = false → I (t.enqueue id) none
  move : ∀ t t' turn turn', I t turn → Move ctx t turn t' turn' → I t' turn'
  safe : ∀ t t' turn r rest env premises fresh f, I t (some turn) →
    Takes t turn.id (some (.cursor r rest env)) t' →
    (proceed ctx turn.id (t.generator turn.id).goal r rest env premises t' fresh).1 ≠ .fault f

namespace Invariant

variable {ctx : Context} {I : Tables → Option Turn → Prop}

theorem persistent (h : Invariant ctx I) : Persistent ctx I fun _ => False where
  ask := h.ask
  enqueue := h.enqueue
  move := h.move
  fault _ _ _ _ _ _ _ _ _ ht htakes hfault := h.safe _ _ _ _ _ _ _ _ _ ht htakes hfault

/-- A pump that ends keeps the invariant.  It ends without a fault, when the target has a new answer
or all its answers. -/
theorem pump (h : Invariant ctx I) {t : Tables} (ht : I t none) {fuel limit fresh : Nat}
    {target : GeneratorId} {o : Outcome} (ho : t.pump fuel ctx target limit fresh = some o) :
    I o.tables none ∧ o.fault = none ∧
      ((o.tables.generator target).isComplete ∨
        (t.generator target).results.size < (o.tables.generator target).results.size) := by
  obtain ⟨hfault, hi, hdone⟩ := (h.persistent.pump ht ho).resolve_right And.right
  exact ⟨hi, hfault, hdone⟩

theorem runs (h : Invariant ctx I) {t t' : Tables} (ht : I t none) (hruns : Runs ctx t t') :
    I t' none := by
  induction hruns with
  | refl => exact ht
  | ask _ goal ih => exact h.ask _ goal ih
  | pump _ ho ih => exact (h.pump ih ho).1

theorem reached (h : Invariant ctx I) (hblank : ∀ t : Tables, t.Blank → I t none) {t : Tables}
    (ht : Reached ctx t) : I t none := by
  obtain ⟨t₀, hstart, hruns⟩ := ht
  exact h.runs (hblank t₀ hstart) hruns

end Invariant

end TripleRules.Tabling
