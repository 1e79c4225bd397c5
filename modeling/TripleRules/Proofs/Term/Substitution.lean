import Mathlib.Data.List.Basic
import TripleRules.Term.Basic

/-!
# Substitution

How replacing variables acts on terms and triples: it depends on the variables that occur and on no
others, two replacements compose, and a ground term is left as it is.
-/

namespace TripleRules

@[elab_as_elim]
theorem eraseDups_induction {α : Type} [DecidableEq α] {P : List α → Prop} (nil : P [])
    (cons : ∀ a l, P (l.filter fun b => !b == a) → P (a :: l)) : ∀ l, P l
  | [] => nil
  | a :: l => cons a l (eraseDups_induction nil cons (l.filter fun b => !b == a))
termination_by l => l.length
decreasing_by exact Nat.lt_succ_of_le (List.length_filter_le _ _)

/-- What a ground instance puts in the place of each variable. -/
def IsGrounding (σ : Variable → Term) : Prop := ∀ v, (σ v).isGround

namespace Term

/-- Induction on terms, with the claim for every argument of a compound term. -/
theorem induct {P : Term → Prop} (iri : ∀ name, P (.iri name)) (literal : ∀ l, P (.literal l))
    (blank : ∀ b, P (.blank b)) (var : ∀ v, P (.var v))
    (compound : ∀ f args, (∀ a ∈ args, P a) → P (.compound f args)) : ∀ t, P t
  | .iri name => iri name
  | .literal l => literal l
  | .blank b => blank b
  | .var v => var v
  | .compound f args =>
    compound f args fun a _ => induct iri literal blank var compound a
termination_by t => sizeOf t
decreasing_by
  have hlt := List.sizeOf_lt_of_mem ‹a ∈ args›
  simp only [Term.compound.sizeOf_spec]
  omega

theorem isGround_iff (t : Term) : t.isGround ↔ t.occurrences = [] := by
  induction t using induct with
  | iri | literal | blank => simp [isGround, occurrences]
  | var v => simp [isGround, occurrences]
  | compound f args ih =>
      simp only [isGround, occurrences, allGround_eq_all, occurrencesAll_eq_flatMap,
        List.all_eq_true, List.flatMap_eq_nil_iff]
      exact forall₂_congr ih

theorem mapVars_congr {f g : Variable → Term} (t : Term)
    (h : ∀ v ∈ t.occurrences, f v = g v) : t.mapVars f = t.mapVars g := by
  induction t using induct with
  | iri | literal | blank => rfl
  | var v => simpa [mapVars, occurrences] using h
  | compound c args ih =>
      simp only [mapVars, mapVarsAll_eq_map, compound.injEq, true_and, List.map_inj_left]
      intro a ha
      apply ih a ha
      intro v hv
      apply h v
      simpa [occurrences] using ⟨a, ha, hv⟩

theorem mapVars_mapVars (f g : Variable → Term) (t : Term) :
    (t.mapVars f).mapVars g = t.mapVars fun v => (f v).mapVars g := by
  induction t using induct with
  | iri | literal | blank | var => rfl
  | compound c args ih =>
      simp only [mapVars, mapVarsAll_eq_map, List.map_map, compound.injEq, true_and,
        List.map_inj_left]
      exact ih

theorem mapVars_var (t : Term) : t.mapVars .var = t := by
  induction t using induct with
  | iri | literal | blank | var => rfl
  | compound c args ih =>
      simp only [mapVars, mapVarsAll_eq_map, compound.injEq, true_and]
      calc args.map (mapVars var) = args.map id := List.map_congr_left ih
        _ = args := List.map_id args

theorem isVar_of_isGround {t : Term} (h : t.isGround) : t.isVar = false := by
  cases t with
  | var v => cases h
  | iri | literal | blank | compound => rfl

theorem mapVars_of_isGround {t : Term} (h : t.isGround) (f : Variable → Term) :
    t.mapVars f = t := by
  have hcongr : t.mapVars f = t.mapVars .var := by
    apply mapVars_congr
    intro v hv
    rw [(isGround_iff t).mp h] at hv
    exact absurd hv List.not_mem_nil
  rw [hcongr, mapVars_var]

theorem occurrences_mapVars (f : Variable → Term) (t : Term) :
    (t.mapVars f).occurrences = t.occurrences.flatMap fun v => (f v).occurrences := by
  induction t using induct with
  | iri | literal | blank => rfl
  | var v => simp [mapVars, occurrences]
  | compound c args ih =>
      simp only [mapVars, occurrences, mapVarsAll_eq_map, occurrencesAll_eq_flatMap,
        List.flatMap_map, List.flatMap_assoc]
      exact List.flatMap_congr ih

theorem isGround_mapVars_iff (f : Variable → Term) (t : Term) :
    (t.mapVars f).isGround ↔ ∀ v ∈ t.occurrences, (f v).isGround := by
  simp only [isGround_iff, occurrences_mapVars, List.flatMap_eq_nil_iff]

theorem isGround_mapVars {σ : Variable → Term} (h : IsGrounding σ) (t : Term) :
    (t.mapVars σ).isGround :=
  (isGround_mapVars_iff σ t).mpr fun v _ => h v

end Term

namespace Triple

theorem isGround_iff (t : Triple) : t.isGround ↔ t.occurrences = [] := by
  simp [isGround, occurrences, terms, Term.isGround_iff, and_assoc]

theorem isGround_iff_terms (t : Triple) : t.isGround ↔ ∀ x ∈ t.terms, x.isGround := by
  simp [isGround, terms, and_assoc]

theorem terms_mapVars (f : Variable → Term) (t : Triple) :
    (t.mapVars f).terms = t.terms.map (Term.mapVars f) := rfl

theorem eq_of_terms_eq {s t : Triple} (h : s.terms = t.terms) : s = t := by
  cases s
  cases t
  simpa [terms] using h

theorem mapVars_congr {f g : Variable → Term} (t : Triple)
    (h : ∀ v ∈ t.occurrences, f v = g v) : t.mapVars f = t.mapVars g := by
  apply eq_of_terms_eq
  simp only [terms_mapVars, List.map_inj_left]
  intro x hx
  apply Term.mapVars_congr
  intro v hv
  exact h v (List.mem_flatMap.mpr ⟨x, hx, hv⟩)

theorem mapVars_mapVars (f g : Variable → Term) (t : Triple) :
    (t.mapVars f).mapVars g = t.mapVars fun v => (f v).mapVars g := by
  simp [mapVars, Term.mapVars_mapVars]

theorem mapVars_of_isGround {t : Triple} (h : t.isGround) (f : Variable → Term) :
    t.mapVars f = t := by
  simp only [isGround, Bool.and_eq_true] at h
  simp [mapVars, Term.mapVars_of_isGround h.1.1, Term.mapVars_of_isGround h.1.2,
    Term.mapVars_of_isGround h.2]

theorem occurrences_mapVars (f : Variable → Term) (t : Triple) :
    (t.mapVars f).occurrences = t.occurrences.flatMap fun v => (f v).occurrences := by
  simp [occurrences, terms, mapVars, Term.occurrences_mapVars]

theorem isGround_mapVars_iff (f : Variable → Term) (t : Triple) :
    (t.mapVars f).isGround ↔ ∀ v ∈ t.occurrences, (f v).isGround := by
  simp only [isGround_iff, occurrences_mapVars, List.flatMap_eq_nil_iff, Term.isGround_iff]

theorem isGround_mapVars {σ : Variable → Term} (h : IsGrounding σ) (t : Triple) :
    (t.mapVars σ).isGround :=
  (isGround_mapVars_iff σ t).mpr fun v _ => h v

end Triple

end TripleRules
