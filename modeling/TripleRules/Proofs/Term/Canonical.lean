import Mathlib.Data.List.Nodup
import Mathlib.Data.Set.Function
import TripleRules.Proofs.Term.Goal
import TripleRules.Proofs.Term.Matching
import TripleRules.Term.Bindings

/-!
# Canonical forms

Two patterns have the same canonical form just when one is the other with its variables renamed: the
numbers are given in the order of first occurrence, which no renaming changes.  Rule heads take the
same from a goal and from its canonical form, since they see the names of the variables only where
they see which are the same.
-/

namespace TripleRules

theorem eraseDups_map_of_injOn {α β : Type} [DecidableEq α] [DecidableEq β] {f : α → β}
    (l : List α) (hf : ∀ a ∈ l, ∀ b ∈ l, f a = f b → a = b) :
    (l.map f).eraseDups = l.eraseDups.map f := by
  induction l using eraseDups_induction with
  | nil => rfl
  | cons a l ih =>
      have hfilter : (l.map f).filter (fun b => !b == f a) =
          (l.filter fun b => !b == a).map f := by
        rw [List.filter_map]
        refine congrArg (List.map f) (List.filter_congr fun b hb => ?_)
        have heq : f b = f a ↔ b = a :=
          ⟨hf b (List.mem_cons_of_mem _ hb) a List.mem_cons_self, congrArg f⟩
        by_cases hba : b = a
        · simp [hba]
        · simp [hba, heq]
      rw [List.map_cons, List.eraseDups_cons, List.eraseDups_cons, hfilter, List.map_cons, ih]
      intro b hb c hc
      exact hf b (List.mem_cons_of_mem _ (List.mem_filter.mp hb).1) c
        (List.mem_cons_of_mem _ (List.mem_filter.mp hc).1)

theorem idxOf_map_of_injOn {α β : Type} [DecidableEq α] [DecidableEq β] {f : α → β} {l : List α}
    (hf : ∀ a ∈ l, ∀ b ∈ l, f a = f b → a = b) {a : α} (ha : a ∈ l) :
    (l.map f).idxOf (f a) = l.idxOf a := by
  induction l with
  | nil => exact absurd ha List.not_mem_nil
  | cons b l ih =>
      rw [List.map_cons]
      by_cases hba : b = a
      · rw [hba, List.idxOf_cons_self, List.idxOf_cons_self]
      · have hne : f b ≠ f a := fun h => hba (hf b List.mem_cons_self a ha h)
        have hmem : a ∈ l := (List.mem_cons.mp ha).resolve_left (Ne.symm hba)
        rw [List.idxOf_cons_ne _ hne, List.idxOf_cons_ne _ hba,
          ih (fun c hc d hd => hf c (List.mem_cons_of_mem _ hc) d (List.mem_cons_of_mem _ hd)) hmem]

namespace Triple

theorem canonicalVar_injective : Function.Injective canonicalVar :=
  fun _ _ h => congrArg Variable.slot h

def number (p : Triple) (v : Variable) : Variable := canonicalVar (p.vars.idxOf v)

theorem number_injOn (p : Triple) :
    ∀ u ∈ p.vars, ∀ v ∈ p.vars, p.number u = p.number v → u = v := by
  intro u hu v _ h
  exact (List.idxOf_inj hu).mp (canonicalVar_injective h)

def rename (f : Variable → Variable) (p : Triple) : Triple := p.mapVars fun v => .var (f v)

/-- The second pattern is the first with its variables renamed, one to one. -/
def Variant (p q : Triple) : Prop :=
  ∃ f, Set.BijOn f {v | v ∈ p.vars} {v | v ∈ q.vars} ∧ p.rename f = q

theorem rename_rename (f g : Variable → Variable) (p : Triple) :
    (p.rename f).rename g = p.rename (g ∘ f) := mapVars_mapVars _ _ p

theorem rename_congr {f g : Variable → Variable} {p : Triple} (h : ∀ v ∈ p.vars, f v = g v) :
    p.rename f = p.rename g :=
  p.mapVars_congr fun v hv => congrArg Term.var (h v ((p.mem_vars v).mpr hv))

theorem rename_id (p : Triple) : p.rename id = p := by
  simp only [rename, id_eq, mapVars, Term.mapVars_var]

theorem vars_rename {f : Variable → Variable} {p : Triple}
    (hf : ∀ u ∈ p.vars, ∀ v ∈ p.vars, f u = f v → u = v) :
    (p.rename f).vars = p.vars.map f := by
  have hoccurrences : (p.rename f).occurrences = p.occurrences.map f := by
    rw [rename, occurrences_mapVars, ← List.flatMap_pure_eq_map]
    rfl
  rw [vars, hoccurrences, eraseDups_map_of_injOn]
  · rfl
  · intro u hu v hv
    exact hf u ((p.mem_vars u).mpr hu) v ((p.mem_vars v).mpr hv)

theorem normalize_rename {f : Variable → Variable} {p : Triple}
    (hf : ∀ u ∈ p.vars, ∀ v ∈ p.vars, f u = f v → u = v) :
    (p.rename f).normalize = p.normalize := by
  have hnumber : ∀ v ∈ p.vars, (p.rename f).number (f v) = p.number v := by
    intro v hv
    rw [number, vars_rename hf, idxOf_map_of_injOn hf hv, number]
  calc (p.rename f).normalize
      = p.rename ((p.rename f).number ∘ f) := rename_rename f (p.rename f).number p
    _ = p.rename p.number := rename_congr hnumber
    _ = p.normalize := rfl

/-- A canonical form is its own canonical form. -/
theorem normalize_normalize (p : Triple) : p.normalize.normalize = p.normalize :=
  normalize_rename p.number_injOn

theorem bijOn_number (p : Triple) :
    Set.BijOn p.number {v | v ∈ p.vars} {v | v ∈ p.normalize.vars} := by
  have hvars : p.normalize.vars = p.vars.map p.number := vars_rename p.number_injOn
  refine ⟨fun v hv => ?_, fun u hu v hv => p.number_injOn u hu v hv, fun w hw => ?_⟩
  · show p.number v ∈ p.normalize.vars
    rw [hvars]
    exact List.mem_map_of_mem hv
  · obtain ⟨v, hv, rfl⟩ := List.mem_map.mp (hvars ▸ hw : w ∈ p.vars.map p.number)
    exact ⟨v, hv, rfl⟩

/-- Two patterns have one canonical form just when they are variants: each is got from the canonical
form by taking the numbers back. -/
theorem normalize_eq_iff (p q : Triple) : p.normalize = q.normalize ↔ p.Variant q := by
  constructor
  · intro h
    let back := Function.invFunOn q.number {v | v ∈ q.vars}
    have hinv : Set.InvOn back q.number {v | v ∈ q.vars} {v | v ∈ q.normalize.vars} :=
      q.bijOn_number.invOn_invFunOn
    have hnumber : Set.BijOn p.number {v | v ∈ p.vars} {v | v ∈ q.normalize.vars} :=
      h ▸ p.bijOn_number
    refine ⟨back ∘ p.number, (hinv.symm.bijOn ?_ ?_).comp hnumber, ?_⟩
    · exact q.bijOn_number.surjOn.mapsTo_invFunOn
    · exact q.bijOn_number.mapsTo
    calc p.rename (back ∘ p.number)
        = p.normalize.rename back := (rename_rename p.number back p).symm
      _ = q.normalize.rename back := by rw [h]
      _ = q.rename (back ∘ q.number) := rename_rename q.number back q
      _ = q.rename id := rename_congr fun v hv => hinv.1 hv
      _ = q := q.rename_id
  · rintro ⟨f, hf, rfl⟩
    exact (normalize_rename fun u hu v hv h => hf.injOn hu hv h).symm

end Triple

/-! ## Renaming a goal -/

namespace Term

def rename (f : Variable → Variable) (t : Term) : Term := t.mapVars fun v => .var (f v)

/-- The renaming keeps variables apart. -/
def Separates (f : Variable → Variable) (vs : List Variable) : Prop :=
  ∀ u ∈ vs, ∀ v ∈ vs, f u = f v → u = v

theorem Separates.subset {f : Variable → Variable} {us vs : List Variable} (h : Separates f vs)
    (hsub : us ⊆ vs) : Separates f us :=
  fun u hu v hv => h u (hsub hu) v (hsub hv)

theorem isGround_rename (f : Variable → Variable) (t : Term) :
    (t.rename f).isGround = t.isGround := by
  rw [Bool.eq_iff_iff, rename, isGround_mapVars_iff, isGround_iff, List.eq_nil_iff_forall_not_mem]
  exact forall₂_congr fun v _ => by simp [isGround]

theorem rename_matches? {f : Variable → Variable} {t : Term} (hf : Separates f t.occurrences)
    (x : Term) : (t.rename f).matches? x = t.matches? x := by
  rw [Bool.eq_iff_iff, matches?_iff, matches?_iff]
  constructor
  · rintro ⟨σ, rfl⟩
    exact ⟨_, (mapVars_mapVars _ _ t).symm⟩
  · rintro ⟨σ, rfl⟩
    -- a name goes back to the variable that it came from
    refine ⟨fun w => σ ((t.occurrences.find? fun v => f v = w).getD w), ?_⟩
    rw [rename, mapVars_mapVars]
    apply mapVars_congr
    intro v hv
    obtain ⟨u, hu⟩ := Option.isSome_iff_exists.mp
      (List.find?_isSome (p := fun u => decide (f u = f v)) |>.mpr ⟨v, hv, by simp⟩)
    have hfu := List.find?_some hu
    have huv : u = v :=
      hf u (List.mem_of_find?_eq_some hu) v hv (by simpa using hfu)
    simp only [mapVars, hu, Option.getD_some, huv]

end Term

namespace Bindings

open Term

theorem unifyGoalAll_rename {f : Variable → Variable} (hs : List Term)
    (ih : ∀ h ∈ hs, ∀ g b, Separates f g.occurrences →
      unifyGoal h (g.rename f) b = unifyGoal h g b) :
    ∀ gs b, Separates f (gs.flatMap Term.occurrences) →
      unifyGoalAll hs (gs.map (rename f)) b = unifyGoalAll hs gs b := by
  induction hs with
  | nil => exact fun gs b _ => by simp [unifyGoalAll]
  | cons h hs ihs =>
      intro gs b hf
      cases gs with
      | nil => rfl
      | cons g gs =>
          have hg := ih h List.mem_cons_self g b (hf.subset (by simp))
          have hgs := fun b' => ihs (fun q hq => ih q (List.mem_cons_of_mem _ hq)) gs b'
            (hf.subset (by simp))
          rw [List.map_cons, unifyGoalAll, unifyGoalAll, hg]
          cases unifyGoal h g b with
          | ok b' => exact hgs b'
          | error b' => rfl

theorem unifyGoal_rename {f : Variable → Variable} (h : Term) :
    ∀ g b, Separates f g.occurrences → unifyGoal h (g.rename f) b = unifyGoal h g b := by
  induction h using Term.induct with
  | iri | literal | blank =>
      intro g b _
      cases g <;> simp [rename, Term.mapVars, unifyGoal]
  | var v =>
      intro g b hf
      cases g with
      | iri | literal | blank => rfl
      | var => simp [rename, Term.mapVars, unifyGoal]
      | compound c gs =>
          have hground := isGround_rename f (.compound c gs)
          have hmatches := fun x => rename_matches? hf x
          by_cases hg : (Term.compound c gs).isGround
          · rw [rename, mapVars_of_isGround hg]
          · rw [Bool.not_eq_true] at hg
            rw [hg] at hground
            have hshape : (Term.compound c gs).rename f = .compound c (mapVarsAll (.var ∘ f) gs) :=
              rfl
            rw [hshape] at hground hmatches ⊢
            simp only [unifyGoal, hg, hground, hmatches, Bool.false_eq_true, if_false]
  | compound c hs ih =>
      intro g b hf
      cases g with
      | iri | literal | blank => rfl
      | var => simp [rename, Term.mapVars, unifyGoal]
      | compound d gs =>
          have hall := unifyGoalAll_rename hs ih gs b (by simpa [Term.occurrences] using hf)
          have hshape : (Term.compound d gs).rename f = .compound d (gs.map (rename f)) := by
            rw [rename, Term.mapVars, mapVarsAll_eq_map]
            rfl
          rw [hshape, unifyGoal, unifyGoal, List.length_map, hall]

/-- A head takes the same from a goal and from its canonical form. -/
theorem withGoal_normalize (b : Bindings) (head goal : Triple) :
    b.withGoal head goal.normalize = b.withGoal head goal := by
  refine unifyGoalAll_rename head.terms (fun h _ => unifyGoal_rename h) goal.terms b ?_
  intro u hu v hv
  exact goal.number_injOn u ((goal.mem_vars u).mpr hu) v ((goal.mem_vars v).mpr hv)

end Bindings

end TripleRules
