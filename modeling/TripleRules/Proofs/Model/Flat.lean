import TripleRules.Proofs.Model.Least
import TripleRules.Proofs.Rule.Filing

/-!
# Flat rules

The terms of a flat rule are variables and ground terms; no compound term in it holds a variable.
Such rules make no new terms: every triple that follows by them consists of terms of the facts and
of the rules, and so does every value that a rule in progress has read.
-/

namespace TripleRules

/-- A variable, or a term without variables. -/
def Term.isFlat (t : Term) : Bool := t.isVar || t.isGround

theorem Term.isFlat_cases {t : Term} (h : t.isFlat) : (∃ v, t = .var v) ∨ t.isGround := by
  cases t with
  | var v => exact .inl ⟨v, rfl⟩
  | iri | literal | blank | compound =>
      exact .inr (by simpa [isFlat, isVar] using h)

namespace Triple

def isFlat (t : Triple) : Bool := t.terms.all Term.isFlat

theorem isFlat_of_mem {t : Triple} (h : t.isFlat) {x : Term} (hx : x ∈ t.terms) : x.isFlat :=
  List.all_eq_true.mp h x hx

theorem var_mem_terms {t : Triple} (h : t.isFlat) {v : Variable} (hv : v ∈ t.occurrences) :
    .var v ∈ t.terms := by
  obtain ⟨x, hx, hv⟩ := List.mem_flatMap.mp hv
  rcases Term.isFlat_cases (isFlat_of_mem h hx) with ⟨w, rfl⟩ | hground
  · have hvw : v = w := List.mem_singleton.mp hv
    rw [hvw]
    exact hx
  · rw [(Term.isGround_iff x).mp hground] at hv
    exact absurd hv List.not_mem_nil

/-! ## Triples over some terms -/

def Over (us : List Term) (t : Triple) : Prop := ∀ x ∈ t.terms, x ∈ us

theorem Over.mono {us ws : List Term} {t : Triple} (h : t.Over us) (hsub : us ⊆ ws) : t.Over ws :=
  fun x hx => hsub (h x hx)

def allOver (us : List Term) : List Triple :=
  us.flatMap fun s => us.flatMap fun p => us.map fun o => ⟨s, p, o⟩

theorem mem_allOver {us : List Term} {t : Triple} (h : t.Over us) : t ∈ allOver us := by
  have hsubject : t.subject ∈ us := h _ (by simp [terms])
  have hpredicate : t.predicate ∈ us := h _ (by simp [terms])
  have hobject : t.object ∈ us := h _ (by simp [terms])
  refine List.mem_flatMap.mpr ⟨_, hsubject, List.mem_flatMap.mpr ⟨_, hpredicate, ?_⟩⟩
  exact List.mem_map.mpr ⟨_, hobject, rfl⟩

theorem over_of_mem_allOver {us : List Term} {t : Triple} (h : t ∈ allOver us) : t.Over us := by
  obtain ⟨s, hs, h⟩ := List.mem_flatMap.mp h
  obtain ⟨p, hp, h⟩ := List.mem_flatMap.mp h
  obtain ⟨o, ho, rfl⟩ := List.mem_map.mp h
  intro x hx
  simp only [terms, List.mem_cons, List.not_mem_nil, or_false] at hx
  rcases hx with rfl | rfl | rfl
  · exact hs
  · exact hp
  · exact ho

/-! ## Canonical forms -/

theorem length_occurrences_le {t : Triple} (h : t.isFlat) : t.occurrences.length ≤ 3 := by
  have hterm : ∀ x ∈ t.terms, x.occurrences.length ≤ 1 := by
    intro x hx
    rcases Term.isFlat_cases (isFlat_of_mem h hx) with ⟨v, rfl⟩ | hground
    · exact Nat.le_refl 1
    · rw [(Term.isGround_iff x).mp hground]
      exact Nat.zero_le 1
  have hsubject := hterm t.subject (by simp [terms])
  have hpredicate := hterm t.predicate (by simp [terms])
  have hobject := hterm t.object (by simp [terms])
  simp only [occurrences, terms, List.flatMap_cons, List.flatMap_nil, List.length_append,
    List.length_nil]
  omega

theorem length_eraseDups_le (vs : List Variable) : vs.eraseDups.length ≤ vs.length := by
  induction vs using eraseDups_induction with
  | nil => exact Nat.le_refl 0
  | cons v vs ih =>
      have hfilter := List.length_filter_le (fun w => !w == v) vs
      rw [List.eraseDups_cons, List.length_cons, List.length_cons]
      omega

def canonicalTerms : List Term := (List.range 3).map fun i => .var (canonicalVar i)

theorem over_normalize {us : List Term} {t : Triple} (hflat : t.isFlat)
    (hus : ∀ x ∈ t.terms, x.isGround → x ∈ us) : t.normalize.Over (us ++ canonicalTerms) := by
  intro y hy
  rw [normalize, terms_mapVars, List.mem_map] at hy
  obtain ⟨x, hx, rfl⟩ := hy
  rcases Term.isFlat_cases (isFlat_of_mem hflat hx) with ⟨v, rfl⟩ | hground
  · have hv : v ∈ t.vars := by
      rw [mem_vars]
      exact List.mem_flatMap.mpr ⟨_, hx, List.mem_singleton_self v⟩
    have hindex : t.vars.idxOf v < t.vars.length := List.idxOf_lt_length_iff.mpr hv
    have hvars : t.vars.length ≤ t.occurrences.length := length_eraseDups_le t.occurrences
    have hoccurrences := length_occurrences_le hflat
    have hrange : t.vars.idxOf v ∈ List.range 3 := List.mem_range.mpr (by omega)
    exact List.mem_append_right _ (List.mem_map.mpr ⟨_, hrange, rfl⟩)
  · rw [Term.mapVars_of_isGround hground]
    exact List.mem_append_left _ (hus x hx hground)

end Triple

/-! ## What flat patterns bind -/

namespace Bindings

variable {us : List Term} {b b' : Bindings}

theorem flat_resolve {x : Term} (hx : x.isFlat) (hxs : x ∈ us) (hground : b.Values (·.isGround))
    (hb : b.Values (· ∈ us)) :
    (b.resolve x).isFlat ∧ ((b.resolve x).isGround → b.resolve x ∈ us) := by
  rcases Term.isFlat_cases hx with ⟨v, rfl⟩ | hx
  · rw [resolve_var]
    cases hget : b.get? v with
    | none => exact ⟨rfl, fun h => Bool.noConfusion h⟩
    | some t =>
        have hhas := (get?_eq_some_iff b v t).mp hget
        have ht : t.isGround := hground _ t hhas
        refine ⟨?_, fun _ => hb _ t hhas⟩
        rw [Option.getD_some, Term.isFlat, ht, Bool.or_true]
  · rw [resolve, Term.mapVars_of_isGround hx]
    refine ⟨?_, fun _ => hxs⟩
    rw [Term.isFlat, hx, Bool.or_true]

theorem over_normalize_instantiate {p : Triple} (hp : p.isFlat) (hps : p.Over us)
    (hground : b.Values (·.isGround)) (hb : b.Values (· ∈ us)) :
    (b.instantiate p).normalize.Over (us ++ Triple.canonicalTerms) := by
  have hterm : ∀ y ∈ (b.instantiate p).terms, y.isFlat ∧ (y.isGround → y ∈ us) := by
    intro y hy
    rw [instantiate_eq_mapVars, Triple.terms_mapVars, List.mem_map] at hy
    obtain ⟨x, hx, rfl⟩ := hy
    exact flat_resolve (Triple.isFlat_of_mem hp hx) (hps x hx) hground hb
  apply Triple.over_normalize
  · exact List.all_eq_true.mpr fun y hy => (hterm y hy).1
  · exact fun y hy => (hterm y hy).2

theorem values_match? {p x : Triple} (hflat : p.isFlat) (hx : x.Over us)
    (hb : b.Values (· ∈ us)) (h : b.match? p x = some b') : b'.Values (· ∈ us) := by
  obtain ⟨hext, hinst, -⟩ := match?_some h
  intro i t ht
  rcases hext.adds i t ht with ht | ⟨-, v, hv, rfl⟩
  · exact hb i t ht
  · have hterm := Triple.var_mem_terms hflat hv
    have hresolve : b'.resolve (.var v) = t := by
      rw [resolve_var, (get?_eq_some_iff b' v t).mpr ht, Option.getD_some]
    have hmem : b'.resolve (.var v) ∈ (b'.instantiate p).terms := List.mem_map_of_mem hterm
    rw [hinst, hresolve] at hmem
    exact hx t hmem

theorem values_unifyGoal {h g : Term} (hflat : h.isFlat) (hg : g.isGround → g ∈ us)
    (hb : b.Values (· ∈ us)) (hok : unifyGoal h g b = .ok b') : b'.Values (· ∈ us) := by
  rcases Term.isFlat_cases hflat with ⟨v, rfl⟩ | hground
  · rcases unifyGoal_var_ok hok with rfl | ⟨hground, hbind⟩
    · exact hb
    · obtain ⟨hext, hhas⟩ := bind_ok hground hbind
      intro i t ht
      rcases hext.adds i t ht with ht | ⟨-, w, hw, rfl⟩
      · exact hb i t ht
      · rw [List.mem_singleton.mp hw] at ht
        rw [ht.unique hhas]
        exact hg hground
  · have hext := unifyGoal_ok h g b b' hok
    rw [(Term.isGround_iff h).mp hground] at hext
    intro i t ht
    rcases hext.adds i t ht with ht | ⟨-, w, hw, -⟩
    · exact hb i t ht
    · exact absurd hw List.not_mem_nil

theorem values_unifyGoalAll (hs gs : List Term) (hflat : ∀ h ∈ hs, h.isFlat)
    (hgs : ∀ g ∈ gs, g.isGround → g ∈ us) (hb : b.Values (· ∈ us))
    (hok : unifyGoalAll hs gs b = .ok b') : b'.Values (· ∈ us) := by
  induction hs generalizing gs b with
  | nil =>
      simp only [unifyGoalAll, Except.ok.injEq] at hok
      exact hok ▸ hb
  | cons h hs ih =>
      cases gs with
      | nil =>
          simp only [unifyGoalAll, Except.ok.injEq] at hok
          exact hok ▸ hb
      | cons g gs =>
          rw [unifyGoalAll] at hok
          split at hok
          · rename_i c hc
            have hcvalues := values_unifyGoal (hflat h (by simp)) (hgs g (by simp)) hb hc
            exact ih gs (fun x hx => hflat x (by simp [hx])) (fun x hx => hgs x (by simp [hx]))
              hcvalues hok
          · cases hok

end Bindings

/-! ## Flat rules -/

namespace CheckedRule

def patterns (r : CheckedRule) : List Triple :=
  r.headPattern?.toList ++ r.body.filterMap fun
    | .pattern p => some p
    | .call _ _ => none

theorem mem_patterns_of_body {r : CheckedRule} {p : Triple} (h : .pattern p ∈ r.body) :
    p ∈ r.patterns :=
  List.mem_append_right _ (List.mem_filterMap.mpr ⟨_, h, rfl⟩)

theorem mem_patterns_of_head {r : CheckedRule} {p : Triple} (h : r.headPattern? = some p) :
    p ∈ r.patterns :=
  List.mem_append_left _ (by rw [h]; exact List.mem_singleton_self p)

def IsFlat (r : CheckedRule) : Prop := ∀ p ∈ r.patterns, p.isFlat

instance (r : CheckedRule) : Decidable r.IsFlat :=
  inferInstanceAs (Decidable (∀ p ∈ r.patterns, p.isFlat))

theorem values_start? {r : CheckedRule} {goal : Triple} {env : Bindings} {us : List Term}
    (hflat : r.IsFlat) (hgoal : ∀ g ∈ goal.terms, g.isGround → g ∈ us)
    (h : r.start? goal = some env) : env.Values (· ∈ us) := by
  obtain ⟨head, hhead, hok⟩ := start?_some h
  have hhead := hflat head (mem_patterns_of_head hhead)
  exact Bindings.values_unifyGoalAll head.terms goal.terms
    (fun x hx => Triple.isFlat_of_mem hhead hx) hgoal (Bindings.values_empty _ _) hok

theorem IsFlat.over_head {r : CheckedRule} {us : List Term} (hflat : r.IsFlat)
    (hchecked : r.IsChecked) (hguard : r.Guarded) (hterms : ∀ p ∈ r.patterns, p.Over us)
    {σ : Variable → Term} (hbody : ∀ p, .pattern p ∈ r.body → (p.mapVars σ).Over us)
    {head : Triple} (hhead : r.headPattern? = some head) : (head.mapVars σ).Over us := by
  have hmem := mem_patterns_of_head hhead
  intro y hy
  rw [Triple.terms_mapVars, List.mem_map] at hy
  obtain ⟨x, hx, rfl⟩ := hy
  rcases Term.isFlat_cases (Triple.isFlat_of_mem (hflat head hmem) hx) with ⟨v, rfl⟩ | hground
  · -- a variable of the head occurs in a pattern of the body, as one of its terms
    have hoccurs : v ∈ head.occurrences := by
      refine List.mem_flatMap.mpr ⟨_, hx, ?_⟩
      rw [Term.occurrences]
      exact List.mem_singleton_self v
    have hvars : v ∈ r.vars := by
      apply hchecked.mem_vars_of_head _ hoccurs
      rw [headPattern?_eq_some.mp hhead]
      exact List.mem_singleton_self _
    obtain ⟨p, hp, hv⟩ := hguard.exists_pattern hvars
    have hterm := Triple.var_mem_terms (hflat p (mem_patterns_of_body hp)) hv
    exact hbody p hp _ (List.mem_map_of_mem hterm)
  · rw [Term.mapVars_of_isGround hground]
    exact hterms head hmem x hx

end CheckedRule

/-- What follows by flat rules consists of terms of the facts and of the rules. -/
theorem Entailed.over {facts : Triple → Prop} {rules : CheckedRule → Prop} {us : List Term}
    (hfacts : ∀ t, facts t → t.Over us)
    (hrules : ∀ r, rules r → r.IsChecked ∧ r.Guarded ∧ r.IsFlat ∧ ∀ p ∈ r.patterns, p.Over us)
    (hheads : ∀ r, rules r → ∀ p, .pattern p ∈ r.rule.head → r.headPattern? = some p)
    {t : Triple} (ht : Entailed facts rules t) : t.Over us := by
  induction ht with
  | fact ht => exact hfacts _ ht
  | rule hr _ _ _ hhead ih =>
      obtain ⟨hchecked, hguard, hflat, hterms⟩ := hrules _ hr
      exact hflat.over_head hchecked hguard hterms ih (hheads _ hr _ hhead)

end TripleRules
