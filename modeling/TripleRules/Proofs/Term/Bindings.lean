import TripleRules.Proofs.Term.Matching
import TripleRules.Term.Bindings

/-!
# Bindings

What matching does to bindings.  A match that succeeds binds the variables of the pattern to ground
terms and changes no value; and bindings that agree with an instance of the pattern can always be
extended so that they still agree with it.  So matching takes just the triples that are instances of
what the bindings make of the pattern.
-/

namespace TripleRules

/-- Replaces a variable by what its slot stands for. -/
def bySlot (τ : Nat → Term) (v : Variable) : Term := τ v.slot

theorem isGrounding_bySlot {τ : Nat → Term} (h : ∀ i, (τ i).isGround) : IsGrounding (bySlot τ) :=
  fun v => h v.slot

theorem exists_bySlot {vs : List Variable} (hvs : ∀ u ∈ vs, ∀ v ∈ vs, u.slot = v.slot → u = v)
    {σ : Variable → Term} (hσ : ∀ v ∈ vs, (σ v).isGround) :
    ∃ τ : Nat → Term, (∀ i, (τ i).isGround) ∧ ∀ v ∈ vs, σ v = bySlot τ v := by
  let τ (i : Nat) : Term := ((vs.find? (·.slot = i)).map σ).getD (.plain "")
  refine ⟨τ, fun i => ?_, fun v hv => ?_⟩
  · cases hfind : vs.find? (·.slot = i) with
    | none => simp [τ, hfind, Term.plain, Term.isGround]
    | some v => simpa [τ, hfind] using hσ v (List.mem_of_find?_eq_some hfind)
  · simp only [bySlot, τ]
    cases hfind : vs.find? (·.slot = v.slot) with
    | none =>
        rw [List.find?_eq_none] at hfind
        simpa using hfind v hv
    | some u =>
        have hu := List.find?_some hfind
        have huv : u = v := hvs u (List.mem_of_find?_eq_some hfind) v hv (by simpa using hu)
        rw [huv, Option.map_some, Option.getD_some]

namespace Bindings

def Has (b : Bindings) (i : Nat) (t : Term) : Prop := b.slots[i]? = some (some t)

def Agrees (b : Bindings) (τ : Nat → Term) : Prop := ∀ i t, b.Has i t → t = τ i

def Values (b : Bindings) (P : Term → Prop) : Prop := ∀ i t, b.Has i t → P t

def Keeps (b b' : Bindings) : Prop := ∀ i t, b.Has i t → b'.Has i t

/-- The same slots with the same values, and ground values for some slots of the variables. -/
structure Extends (b b' : Bindings) (vs : List Variable) : Prop where
  size_eq : b'.size = b.size
  keeps : ∀ i t, b.Has i t → b'.Has i t
  adds : ∀ i t, b'.Has i t → b.Has i t ∨ t.isGround ∧ ∃ v ∈ vs, v.slot = i

theorem get?_eq_some_iff (b : Bindings) (v : Variable) (t : Term) :
    b.get? v = some t ↔ b.Has v.slot t := by
  rw [get?, Option.join_eq_some_iff, Has]

theorem Has.unique {b : Bindings} {i : Nat} {s t : Term} (hs : b.Has i s) (ht : b.Has i t) :
    s = t := by
  rw [Has, hs] at ht
  simpa using ht

theorem not_has_empty (n i : Nat) (t : Term) : ¬ (empty n).Has i t := by
  intro h
  simp only [Has, empty, List.getElem?_replicate] at h
  split at h <;> simp at h

@[simp] theorem size_empty (n : Nat) : (empty n).size = n := by
  simp [size, empty]

theorem agrees_empty (n : Nat) (τ : Nat → Term) : (empty n).Agrees τ :=
  fun i t h => absurd h (not_has_empty n i t)

theorem Agrees.values {b : Bindings} {τ : Nat → Term} (h : b.Agrees τ)
    (hτ : ∀ i, (τ i).isGround) : b.Values (·.isGround) := by
  intro i t ht
  rw [h i t ht]
  exact hτ i

theorem values_empty (n : Nat) (P : Term → Prop) : (empty n).Values P :=
  fun i t h => absurd h (not_has_empty n i t)

namespace Extends

theorem refl (b : Bindings) (vs : List Variable) : b.Extends b vs :=
  ⟨rfl, fun _ _ h => h, fun _ _ h => .inl h⟩

theorem mono {b b' : Bindings} {vs ws : List Variable} (h : b.Extends b' vs) (hsub : vs ⊆ ws) :
    b.Extends b' ws := by
  refine ⟨h.size_eq, h.keeps, fun i t ht => ?_⟩
  rcases h.adds i t ht with ht | ⟨hg, v, hv, hi⟩
  · exact .inl ht
  · exact .inr ⟨hg, v, hsub hv, hi⟩

theorem trans {b c d : Bindings} {vs : List Variable} (hbc : b.Extends c vs)
    (hcd : c.Extends d vs) : b.Extends d vs := by
  refine ⟨hcd.size_eq.trans hbc.size_eq, fun i t h => hcd.keeps i t (hbc.keeps i t h), ?_⟩
  intro i t ht
  rcases hcd.adds i t ht with ht | ht
  · exact hbc.adds i t ht
  · exact .inr ht

theorem values {b b' : Bindings} {vs : List Variable} (h : b.Extends b' vs)
    (hb : b.Values (·.isGround)) : b'.Values (·.isGround) := by
  intro i t ht
  rcases h.adds i t ht with ht | ⟨hg, -⟩
  · exact hb i t ht
  · exact hg

end Extends

/-! ## Resolving -/

theorem resolve_var (b : Bindings) (v : Variable) :
    b.resolve (.var v) = (b.get? v).getD (.var v) := rfl

theorem resolve_var_empty (n : Nat) (v : Variable) : (empty n).resolve (.var v) = .var v := by
  rw [resolve_var]
  cases hget : (empty n).get? v with
  | none => rfl
  | some t => exact absurd ((get?_eq_some_iff _ v t).mp hget) (not_has_empty n v.slot t)

theorem Has.resolve_eq {b : Bindings} {v : Variable} {t : Term} (h : b.Has v.slot t) :
    b.resolve (.var v) = t := by
  rw [resolve_var, (get?_eq_some_iff b v t).mpr h, Option.getD_some]

theorem has_of_resolve_eq {b : Bindings} {v : Variable} {t : Term} (h : b.resolve (.var v) = t)
    (ht : t.isGround) : b.Has v.slot t := by
  rw [resolve_var] at h
  cases hget : b.get? v with
  | none =>
      rw [hget, Option.getD_none] at h
      rw [← h] at ht
      cases ht
  | some x =>
      rw [hget, Option.getD_some] at h
      rw [h] at hget
      exact (get?_eq_some_iff b v t).mp hget

theorem eq_var_of_resolve_eq {b : Bindings} (hb : b.Values (·.isGround)) {t : Term} {v : Variable}
    (h : b.resolve t = .var v) : t = .var v ∧ b.get? v = none := by
  cases t with
  | var w =>
      cases hget : b.get? w with
      | none =>
          rw [resolve_var, hget, Option.getD_none] at h
          cases h
          exact ⟨rfl, hget⟩
      | some x =>
          have hx : x.isGround := hb _ _ ((get?_eq_some_iff b w x).mp hget)
          rw [resolve_var, hget, Option.getD_some] at h
          rw [h] at hx
          cases hx
  | _ => cases h

theorem instantiate_eq_mapVars (b : Bindings) (p : Triple) :
    b.instantiate p = p.mapVars fun v => (b.get? v).getD (.var v) := rfl

theorem isGround_resolve_iff {b : Bindings} (hb : b.Values (·.isGround)) (t : Term) :
    (b.resolve t).isGround ↔ ∀ v ∈ t.occurrences, ∃ x, b.Has v.slot x := by
  rw [resolve, Term.isGround_mapVars_iff]
  apply forall₂_congr
  intro v _
  constructor
  · intro hv
    cases hget : b.get? v with
    | none => simp [hget, Term.isGround] at hv
    | some x => exact ⟨x, (get?_eq_some_iff b v x).mp hget⟩
  · rintro ⟨x, hx⟩
    rw [(get?_eq_some_iff b v x).mpr hx]
    exact hb _ _ hx

theorem isGround_instantiate_iff {b : Bindings} (hb : b.Values (·.isGround)) (p : Triple) :
    (b.instantiate p).isGround ↔ ∀ v ∈ p.occurrences, ∃ x, b.Has v.slot x := by
  rw [Triple.isGround_iff_terms]
  have hterms : (b.instantiate p).terms = p.terms.map b.resolve := rfl
  simp only [hterms, List.forall_mem_map, isGround_resolve_iff hb, Triple.occurrences,
    List.forall_mem_flatMap]

theorem resolve_eq_bySlot {b : Bindings} {τ : Nat → Term} (hb : b.Agrees τ) (t : Term)
    (ht : ∀ v ∈ t.occurrences, ∃ x, b.Has v.slot x) : b.resolve t = t.mapVars (bySlot τ) := by
  apply Term.mapVars_congr
  intro v hv
  obtain ⟨x, hx⟩ := ht v hv
  rw [(get?_eq_some_iff b v x).mpr hx, Option.getD_some]
  exact hb _ _ hx

theorem instantiate_eq_bySlot {b : Bindings} {τ : Nat → Term} (hb : b.Agrees τ) (p : Triple)
    (hp : ∀ v ∈ p.occurrences, ∃ x, b.Has v.slot x) :
    b.instantiate p = p.mapVars (bySlot τ) := by
  rw [instantiate_eq_mapVars]
  apply Triple.mapVars_congr
  intro v hv
  obtain ⟨x, hx⟩ := hp v hv
  rw [(get?_eq_some_iff b v x).mpr hx, Option.getD_some]
  exact hb _ _ hx

theorem instantiate_matches? {b : Bindings} {τ : Nat → Term} (hb : b.Agrees τ)
    (hτ : ∀ i, (τ i).isGround) (p : Triple) :
    (b.instantiate p).matches? (p.mapVars (bySlot τ)) := by
  rw [Triple.matches?_iff]
  refine ⟨bySlot τ, ?_⟩
  rw [instantiate_eq_mapVars, Triple.mapVars_mapVars]
  apply Triple.mapVars_congr
  intro v _
  cases hget : b.get? v with
  | none => rfl
  | some x =>
      have hx : x = τ v.slot := hb _ _ ((get?_eq_some_iff b v x).mp hget)
      rw [Option.getD_some, hx, Term.mapVars_of_isGround (hτ v.slot), bySlot]

theorem Keeps.resolve_eq {b b' : Bindings} (h : b.Keeps b') {t : Term}
    (ht : (b.resolve t).isGround) : b'.resolve t = b.resolve t := by
  apply Term.mapVars_congr
  intro v hv
  have hground := (Term.isGround_mapVars_iff _ t).mp ht v hv
  cases hget : b.get? v with
  | none => simp [hget, Term.isGround] at hground
  | some x =>
      have hx := h _ _ ((get?_eq_some_iff b v x).mp hget)
      rw [(get?_eq_some_iff b' v x).mpr hx]

theorem Keeps.instantiate_eq {b b' : Bindings} (h : b.Keeps b') {p : Triple}
    (hp : (b.instantiate p).isGround) : b'.instantiate p = b.instantiate p := by
  simp only [instantiate, Triple.isGround, Bool.and_eq_true] at hp
  simp only [instantiate, h.resolve_eq hp.1.1, h.resolve_eq hp.1.2, h.resolve_eq hp.2]

theorem resolve_eq_of_extends {b b' : Bindings} {vs : List Variable} (h : b.Extends b' vs)
    {t : Term} (ht : (b.resolve t).isGround) : b'.resolve t = b.resolve t :=
  Keeps.resolve_eq h.keeps ht

theorem instantiate_eq_of_extends {b b' : Bindings} {vs : List Variable} (h : b.Extends b' vs)
    {p : Triple} (hp : (b.instantiate p).isGround) : b'.instantiate p = b.instantiate p :=
  Keeps.instantiate_eq h.keeps hp

/-! ## Filling the gaps -/

/-- What the slots stand for, when unbound ones stand for the given terms. -/
def fill (b : Bindings) (τ : Nat → Term) (i : Nat) : Term := ((b.slots[i]?).join).getD (τ i)

theorem agrees_fill (b : Bindings) (τ : Nat → Term) : b.Agrees (b.fill τ) := by
  intro i t ht
  rw [Has] at ht
  rw [fill, ht, Option.join_some, Option.getD_some]

theorem bySlot_fill (b : Bindings) (τ : Nat → Term) (v : Variable) :
    bySlot (b.fill τ) v = (b.get? v).getD (bySlot τ v) := rfl

theorem isGround_fill {b : Bindings} (hb : b.Values (·.isGround)) {τ : Nat → Term}
    (hτ : ∀ i, (τ i).isGround) (i : Nat) : (b.fill τ i).isGround := by
  unfold fill
  cases hget : (b.slots[i]?).join with
  | none => exact hτ i
  | some t => exact hb i t (Option.join_eq_some_iff.mp hget)

/-- What the slots stand for, when unbound ones may stand for anything. -/
def filled (b : Bindings) (i : Nat) : Term := ((b.slots[i]?).join).getD (.plain "")

theorem agrees_filled (b : Bindings) : b.Agrees b.filled := b.agrees_fill fun _ => .plain ""

theorem isGround_filled {b : Bindings} (hb : b.Values (·.isGround)) (i : Nat) :
    (b.filled i).isGround := isGround_fill hb (τ := fun _ => .plain "") (fun _ => rfl) i

/-! ## Binding one variable -/

theorem bind_ok {b b' : Bindings} {v : Variable} {x : Term} (hx : x.isGround)
    (h : b.bind v x = .ok b') : b.Extends b' [v] ∧ b'.Has v.slot x := by
  unfold bind at h
  split at h
  · cases h
  · rename_i hv
    simp only [Except.ok.injEq] at h
    subst h
    obtain ⟨hlt, hv⟩ := List.getElem?_eq_some_iff.mp hv
    refine ⟨⟨by simp [size], fun i t ht => ?_, fun i t ht => ?_⟩, by simp [Has, hlt]⟩
    · simp only [Has, List.getElem?_set] at ht ⊢
      split
      · rename_i hi
        subst hi
        rw [List.getElem?_eq_getElem hlt, hv] at ht
        simp at ht
      · exact ht
    · simp only [Has, List.getElem?_set] at ht
      split at ht
      · rename_i hi
        simp only [Option.some.injEq] at ht
        exact .inr ⟨ht ▸ hx, v, by simp, hi⟩
      · exact .inl ht
  · rename_i bound hv
    split at h
    · rename_i hbound
      cases h
      exact ⟨.refl b _, hbound ▸ hv⟩
    · cases h

theorem bind_agrees {b : Bindings} {τ : Nat → Term} (hb : b.Agrees τ) {v : Variable}
    (hv : v.slot < b.size) : ∃ b', b.bind v (τ v.slot) = .ok b' ∧ b'.Agrees τ := by
  have hget : b.slots[v.slot]? = some b.slots[v.slot] := List.getElem?_eq_getElem hv
  unfold bind
  cases hslot : b.slots[v.slot] with
  | none =>
      rw [hget, hslot]
      refine ⟨_, rfl, fun i t ht => ?_⟩
      simp only [Has, List.getElem?_set] at ht
      split at ht
      · rename_i hi
        rw [if_pos (by simpa [size] using hv)] at ht
        simp only [Option.some.injEq] at ht
        rw [← ht, hi]
      · exact hb i t ht
  | some bound =>
      rw [hslot] at hget
      have hbound : bound = τ v.slot := hb _ _ hget
      refine ⟨b, ?_, hb⟩
      rw [hget]
      simp [hbound]

/-! ## Matching against a ground term -/

def Unifies (p g : Term) (b b' : Bindings) : Prop :=
  b.Extends b' p.occurrences ∧ b'.resolve p = g ∧ g.isGround

theorem unifyAll_ok (ps : List Term)
    (ih : ∀ p ∈ ps, ∀ g b b', unify p g b = .ok b' → Unifies p g b b') :
    ∀ gs b b', ps.length = gs.length → unifyAll ps gs b = .ok b' →
      b.Extends b' (ps.flatMap Term.occurrences) ∧ ps.map b'.resolve = gs ∧
        ∀ g ∈ gs, g.isGround := by
  induction ps with
  | nil =>
      intro gs b b' hlen h
      obtain rfl := List.eq_nil_of_length_eq_zero hlen.symm
      simp only [unifyAll, Except.ok.injEq] at h
      subst h
      exact ⟨.refl b _, rfl, by simp⟩
  | cons p ps ihs =>
      intro gs b b' hlen h
      cases gs with
      | nil => simp at hlen
      | cons g gs =>
          simp only [unifyAll] at h
          split at h
          · rename_i c hc
            obtain ⟨hbc, hp, hg⟩ := ih p (by simp) g b c hc
            obtain ⟨hcb, hps, hgs⟩ := ihs (fun q hq => ih q (by simp [hq])) gs c b'
              (by simpa using hlen) h
            refine ⟨(hbc.mono (by simp)).trans (hcb.mono (by simp)), ?_, ?_⟩
            · rw [List.map_cons, hps, resolve_eq_of_extends hcb (hp ▸ hg), hp]
            · simpa using ⟨hg, hgs⟩
          · cases h

theorem unify_ok (p : Term) : ∀ g b b', unify p g b = .ok b' → Unifies p g b b' := by
  have hconst : ∀ (p g : Term) (b b' : Bindings), p.isGround →
      (if p = g then Except.ok b else .error b) = .ok b' → Unifies p g b b' := by
    intro p g b b' hp h
    split at h
    · rename_i hpg
      cases h
      exact ⟨.refl b _, by rw [resolve, Term.mapVars_of_isGround hp, hpg], hpg ▸ hp⟩
    · cases h
  induction p using Term.induct with
  | iri | literal | blank =>
      intro g b b' h
      exact hconst _ g b b' rfl (by simpa [unify] using h)
  | var v =>
      intro g b b' h
      simp only [unify] at h
      split at h
      · rename_i hg
        obtain ⟨hext, hv⟩ := bind_ok hg h
        refine ⟨by simpa [Term.occurrences] using hext, ?_, hg⟩
        rw [resolve_var, (get?_eq_some_iff b' v g).mpr hv, Option.getD_some]
      · cases h
  | compound f ps ih =>
      intro g b b' h
      cases g with
      | compound c gs =>
          simp only [unify] at h
          split at h
          · rename_i hhead
            obtain ⟨hext, hps, hgs⟩ := unifyAll_ok ps ih gs b b' hhead.2 h
            refine ⟨by simpa [Term.occurrences] using hext, ?_, by simpa [Term.isGround] using hgs⟩
            have hargs : ps.map (Term.mapVars fun v => (b'.get? v).getD (.var v)) = gs := hps
            rw [resolve, Term.mapVars, Term.mapVarsAll_eq_map, hargs, hhead.1]
          · cases h
      | iri | literal | blank | var => simp [unify] at h

theorem unifyAll_agrees (ps : List Term) {τ : Nat → Term}
    (ih : ∀ p ∈ ps, ∀ b, Agrees b τ → (∀ v ∈ p.occurrences, v.slot < b.size) →
      ∃ b', unify p (p.mapVars (bySlot τ)) b = .ok b' ∧ b'.Agrees τ) :
    ∀ b, Agrees b τ → (∀ v ∈ ps.flatMap Term.occurrences, v.slot < b.size) →
      ∃ b', unifyAll ps (ps.map (Term.mapVars (bySlot τ))) b = .ok b' ∧ b'.Agrees τ := by
  induction ps with
  | nil => exact fun b hb _ => ⟨b, rfl, hb⟩
  | cons p ps ihs =>
      intro b hb hlt
      obtain ⟨c, hc, hagr⟩ := ih p (by simp) b hb fun v hv => hlt v (by simp [hv])
      have hsize : c.size = b.size := (unify_ok p _ b c hc).1.size_eq
      obtain ⟨b', hb', hagr'⟩ := ihs (fun q hq => ih q (by simp [hq])) c hagr
        fun v hv => hsize ▸ hlt v (by simp only [List.flatMap_cons, List.mem_append, hv, or_true])
      refine ⟨b', ?_, hagr'⟩
      simp only [List.map_cons, unifyAll, hc, hb']

theorem unify_agrees {τ : Nat → Term} (hτ : ∀ i, (τ i).isGround) (p : Term) :
    ∀ b, Agrees b τ → (∀ v ∈ p.occurrences, v.slot < b.size) →
      ∃ b', unify p (p.mapVars (bySlot τ)) b = .ok b' ∧ b'.Agrees τ := by
  induction p using Term.induct with
  | iri | literal | blank => exact fun b hb _ => ⟨b, by simp [unify, Term.mapVars], hb⟩
  | var v =>
      intro b hb hlt
      have hv : v.slot < b.size := hlt v (by simp [Term.occurrences])
      obtain ⟨b', h, hagr⟩ := bind_agrees hb hv
      exact ⟨b', by simp [unify, Term.mapVars, bySlot, hτ, h], hagr⟩
  | compound f ps ih =>
      intro b hb hlt
      obtain ⟨b', h, hagr⟩ := unifyAll_agrees ps ih b hb (by simpa [Term.occurrences] using hlt)
      exact ⟨b', by simp [unify, Term.mapVars, h], hagr⟩

/-- A match that succeeds binds the pattern to the triple. -/
theorem match?_some {b b' : Bindings} {p g : Triple} (h : b.match? p g = some b') :
    b.Extends b' p.occurrences ∧ b'.instantiate p = g ∧ g.isGround := by
  rw [match?] at h
  cases hu : unifyAll p.terms g.terms b with
  | error c => simp [hu, Except.toOption] at h
  | ok c =>
      obtain rfl : c = b' := by simpa [hu, Except.toOption] using h
      obtain ⟨hext, hres, hground⟩ := unifyAll_ok p.terms (fun q _ => unify_ok q) g.terms b c rfl hu
      exact ⟨hext, Triple.eq_of_terms_eq hres, (Triple.isGround_iff_terms g).mpr hground⟩

theorem match?_agrees {b : Bindings} {τ : Nat → Term} (hb : b.Agrees τ)
    (hτ : ∀ i, (τ i).isGround) {p : Triple} (hp : ∀ v ∈ p.occurrences, v.slot < b.size) :
    ∃ b', b.match? p (p.mapVars (bySlot τ)) = some b' ∧ b'.Agrees τ := by
  obtain ⟨b', h, hagr⟩ := unifyAll_agrees p.terms (fun q _ => unify_agrees hτ q) b hb hp
  refine ⟨b', ?_, hagr⟩
  rw [match?, Triple.terms_mapVars, h]
  rfl

/-! ## The two matchers -/

theorem match?_some_matches? {b b' : Bindings} (hb : b.Values (·.isGround)) {p g : Triple}
    (h : b.match? p g = some b') : (b.instantiate p).matches? g := by
  obtain ⟨hext, hinst, hground⟩ := match?_some h
  have hvalues : b'.Values (·.isGround) := hext.values hb
  have hbound : ∀ v ∈ p.occurrences, ∃ x, b'.Has v.slot x :=
    (isGround_instantiate_iff hvalues p).mp (hinst ▸ hground)
  have hfilled : p.mapVars (bySlot b'.filled) = g :=
    (instantiate_eq_bySlot b'.agrees_filled p hbound).symm.trans hinst
  have hagr : b.Agrees b'.filled := fun i t ht => b'.agrees_filled i t (hext.keeps i t ht)
  exact hfilled ▸ instantiate_matches? hagr (isGround_filled hvalues) p

/-- Bindings whose slots tell the variables of a pattern apart match a ground triple just when it is
an instance of what they make of the pattern. -/
theorem match?_isSome_iff {b : Bindings} (hb : b.Values (·.isGround)) {p g : Triple}
    (hapart : ∀ u ∈ p.occurrences, ∀ v ∈ p.occurrences, u.slot = v.slot → u = v)
    (hlt : ∀ v ∈ p.occurrences, v.slot < b.size) (hg : g.isGround) :
    (b.match? p g).isSome ↔ (b.instantiate p).matches? g := by
  constructor
  · intro h
    obtain ⟨b', h⟩ := Option.isSome_iff_exists.mp h
    exact match?_some_matches? hb h
  · rw [Triple.matches?_iff]
    rintro ⟨σ, rfl⟩
    -- what a variable of the pattern comes to, first by the bindings and then by the match
    let ρ (v : Variable) : Term := ((b.get? v).getD (.var v)).mapVars σ
    have hinst : (b.instantiate p).mapVars σ = p.mapVars ρ := Triple.mapVars_mapVars _ σ p
    rw [hinst] at hg ⊢
    obtain ⟨τ, hτ, hρ⟩ := exists_bySlot hapart ((Triple.isGround_mapVars_iff ρ p).mp hg)
    have hfill : p.mapVars ρ = p.mapVars (bySlot (b.fill τ)) := by
      apply Triple.mapVars_congr
      intro v hv
      cases hget : b.get? v with
      | none =>
          rw [bySlot_fill, hget, Option.getD_none]
          exact hρ v hv
      | some x =>
          have hx : x.isGround := hb _ _ ((get?_eq_some_iff b v x).mp hget)
          rw [bySlot_fill, hget, Option.getD_some]
          simp only [ρ, hget, Option.getD_some, Term.mapVars_of_isGround hx]
    obtain ⟨b', h, -⟩ := match?_agrees (b.agrees_fill τ) (isGround_fill hb hτ) hlt
    rw [hfill, h]
    rfl

end Bindings

end TripleRules
