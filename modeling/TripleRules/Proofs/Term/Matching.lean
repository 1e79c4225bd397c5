import TripleRules.Proofs.Term.Substitution
import TripleRules.Term.Pattern

/-!
# Matching

A pattern matches a triple exactly when some replacement of its variables turns it into the triple.
The canonical form of a pattern therefore matches what the pattern matches.
-/

namespace TripleRules

namespace Assignment

def Agrees (a : Assignment) (σ : Variable → Term) : Prop := ∀ v t, a.lookup v = some t → σ v = t

def Le (a a' : Assignment) : Prop := ∀ v t, a.lookup v = some t → a'.lookup v = some t

theorem Le.refl (a : Assignment) : a.Le a := fun _ _ h => h

theorem Le.trans {a b c : Assignment} (hab : a.Le b) (hbc : b.Le c) : a.Le c :=
  fun v t h => hbc v t (hab v t h)

theorem Agrees.of_le {a a' : Assignment} {σ : Variable → Term} (h : a'.Agrees σ) (hle : a.Le a') :
    a.Agrees σ :=
  fun v t ht => h v t (hle v t ht)

theorem le_cons {a : Assignment} {v : Variable} {t : Term} (h : a.lookup v = none) :
    a.Le ((v, t) :: a) := by
  intro u x hu
  have hne : u ≠ v := by
    rintro rfl
    rw [h] at hu
    cases hu
  rw [List.lookup_cons, beq_false_of_ne hne]
  exact hu

theorem Agrees.cons {a : Assignment} {σ : Variable → Term} (h : a.Agrees σ) (v : Variable) :
    Agrees ((v, σ v) :: a) σ := by
  intro u t hu
  rw [List.lookup_cons] at hu
  by_cases huv : u = v
  · subst huv
    simpa using hu
  · rw [beq_false_of_ne huv] at hu
    exact h u t hu

/-- The replacement that an assignment describes; a variable that was not met is kept. -/
def replacement (a : Assignment) (v : Variable) : Term := (a.lookup v).getD (.var v)

theorem agrees_replacement (a : Assignment) : a.Agrees a.replacement := by
  intro v t h
  rw [replacement, h, Option.getD_some]

end Assignment

namespace Term

open Assignment

def Explains (p g : Term) (a a' : Assignment) : Prop :=
  a.Le a' ∧ ∀ σ, a'.Agrees σ → p.mapVars σ = g

theorem fitAll_sound (ps : List Term)
    (ih : ∀ p ∈ ps, ∀ g a a', p.fit g a = some a' → p.Explains g a a') :
    ∀ gs a a', ps.length = gs.length → fitAll ps gs a = some a' →
      a.Le a' ∧ ∀ σ, a'.Agrees σ → ps.map (mapVars σ) = gs := by
  induction ps with
  | nil =>
      intro gs a a' hlen h
      obtain rfl := List.eq_nil_of_length_eq_zero hlen.symm
      simp only [fitAll, Option.some.injEq] at h
      subst h
      exact ⟨Le.refl a, fun _ _ => rfl⟩
  | cons p ps ihs =>
      intro gs a a' hlen h
      cases gs with
      | nil => simp at hlen
      | cons g gs =>
          rw [fitAll, Option.bind_eq_some_iff] at h
          obtain ⟨b, hb, h⟩ := h
          obtain ⟨hab, hp⟩ := ih p (by simp) g a b hb
          obtain ⟨hba', hps⟩ := ihs (fun q hq => ih q (by simp [hq])) gs b a'
            (by simpa using hlen) h
          refine ⟨hab.trans hba', fun σ hσ => ?_⟩
          rw [List.map_cons, hp σ (hσ.of_le hba'), hps σ hσ]

theorem fit_sound (p : Term) : ∀ g a a', p.fit g a = some a' → p.Explains g a a' := by
  have hconst : ∀ (p g : Term) (a a' : Assignment), p.isGround →
      (if p = g then some a else none) = some a' → p.Explains g a a' := by
    intro p g a a' hp h
    split at h
    · rename_i hpg
      cases h
      exact ⟨Le.refl a, fun σ _ => by rw [mapVars_of_isGround hp, hpg]⟩
    · cases h
  induction p using induct with
  | iri | literal | blank =>
      intro g a a' h
      exact hconst _ g a a' rfl (by simpa [fit] using h)
  | var v =>
      intro g a a' h
      simp only [fit] at h
      cases hv : a.lookup v with
      | some bound =>
          rw [hv] at h
          simp only [Option.ite_none_right_eq_some, Option.some.injEq] at h
          obtain ⟨rfl, rfl⟩ := h
          exact ⟨Le.refl a, fun σ hσ => hσ v bound hv⟩
      | none =>
          rw [hv] at h
          simp only [Option.some.injEq] at h
          subst h
          refine ⟨le_cons hv, fun σ hσ => hσ v g ?_⟩
          rw [List.lookup_cons_self]
  | compound f ps ih =>
      intro g a a' h
      cases g with
      | compound c gs =>
          simp only [fit, Option.ite_none_right_eq_some] at h
          obtain ⟨⟨rfl, hlen⟩, h⟩ := h
          obtain ⟨hle, hps⟩ := fitAll_sound ps ih gs a a' hlen h
          refine ⟨hle, fun σ hσ => ?_⟩
          rw [mapVars, mapVarsAll_eq_map, hps σ hσ]
      | iri | literal | blank | var => simp [fit] at h

theorem fitAll_complete (ps : List Term) {σ : Variable → Term}
    (ih : ∀ p ∈ ps, ∀ a, Agrees a σ → ∃ a', p.fit (p.mapVars σ) a = some a' ∧ a'.Agrees σ) :
    ∀ a, Agrees a σ → ∃ a', fitAll ps (ps.map (mapVars σ)) a = some a' ∧ a'.Agrees σ := by
  induction ps with
  | nil => exact fun a ha => ⟨a, rfl, ha⟩
  | cons p ps ihs =>
      intro a ha
      obtain ⟨b, hfit, hb⟩ := ih p (by simp) a ha
      obtain ⟨a', hfits, ha'⟩ := ihs (fun q hq => ih q (by simp [hq])) b hb
      exact ⟨a', by rw [List.map_cons, fitAll, hfit, Option.bind_some, hfits], ha'⟩

theorem fit_complete {σ : Variable → Term} (p : Term) :
    ∀ a, Agrees a σ → ∃ a', p.fit (p.mapVars σ) a = some a' ∧ a'.Agrees σ := by
  induction p using induct with
  | iri | literal | blank => exact fun a ha => ⟨a, by simp [fit, mapVars], ha⟩
  | var v =>
      intro a ha
      simp only [fit, mapVars]
      cases hv : a.lookup v with
      | some bound => exact ⟨a, by simp [ha v bound hv], ha⟩
      | none => exact ⟨(v, σ v) :: a, rfl, ha.cons v⟩
  | compound f ps ih =>
      intro a ha
      obtain ⟨a', hfit, ha'⟩ := fitAll_complete ps ih a ha
      refine ⟨a', ?_, ha'⟩
      simp [fit, mapVars, hfit]

theorem matches?_iff (p g : Term) : p.matches? g ↔ ∃ σ, p.mapVars σ = g := by
  rw [matches?, Option.isSome_iff_exists]
  constructor
  · rintro ⟨a', h⟩
    exact ⟨a'.replacement, (fit_sound p g [] a' h).2 _ a'.agrees_replacement⟩
  · rintro ⟨σ, rfl⟩
    obtain ⟨a', h, -⟩ := fit_complete (σ := σ) p [] (by simp [Agrees])
    exact ⟨a', h⟩

end Term

namespace Triple

theorem matches?_iff (p g : Triple) : p.matches? g ↔ ∃ σ, p.mapVars σ = g := by
  rw [matches?, Option.isSome_iff_exists]
  constructor
  · rintro ⟨a', h⟩
    refine ⟨a'.replacement, eq_of_terms_eq ?_⟩
    exact (Term.fitAll_sound p.terms (fun p _ => Term.fit_sound p) g.terms [] a' rfl h).2 _
      a'.agrees_replacement
  · rintro ⟨σ, rfl⟩
    obtain ⟨a', h, -⟩ := Term.fitAll_complete p.terms (σ := σ)
      (fun p _ => Term.fit_complete p) [] (by simp [Assignment.Agrees])
    exact ⟨a', h⟩

theorem matches?_iff_eq_of_isGround {p : Triple} (hp : p.isGround) (g : Triple) :
    p.matches? g ↔ p = g := by
  rw [matches?_iff]
  constructor
  · rintro ⟨σ, rfl⟩
    rw [mapVars_of_isGround hp]
  · rintro rfl
    exact ⟨.var, mapVars_of_isGround hp _⟩

theorem mem_vars (p : Triple) (v : Variable) : v ∈ p.vars ↔ v ∈ p.occurrences :=
  List.mem_eraseDups

/-- The canonical form asks for the same triples as the pattern. -/
theorem normalize_matches? (p g : Triple) : p.normalize.matches? g ↔ p.matches? g := by
  rw [matches?_iff, matches?_iff]
  constructor
  · rintro ⟨σ, rfl⟩
    exact ⟨_, (mapVars_mapVars _ _ p).symm⟩
  · rintro ⟨σ, rfl⟩
    refine ⟨fun w => σ (p.vars[w.slot]?.getD w), ?_⟩
    rw [normalize, mapVars_mapVars]
    apply mapVars_congr
    intro v hv
    have hmem : v ∈ p.vars := (mem_vars p v).mpr hv
    have hget : p.vars[p.vars.idxOf v]? = some v := List.getElem?_idxOf hmem
    simp only [Term.mapVars, canonicalVar, hget, Option.getD_some]

end Triple

end TripleRules
