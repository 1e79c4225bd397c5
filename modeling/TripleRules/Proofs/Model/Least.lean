import Mathlib.Order.Bounds.Basic
import TripleRules.Proofs.Rule.Checked

/-!
# The least model

What rules say about facts: the least set of triples that contains the facts and that is closed
under all ground instances of the rules.  An instance of a rule applies when its patterns are in the
set and its calls hold; it gives the instances of the patterns of its head.
-/

namespace TripleRules

/-- The triples that follow from facts by rules. -/
inductive Entailed (facts : Triple → Prop) (rules : CheckedRule → Prop) : Triple → Prop where
  | fact {t : Triple} (ht : facts t) : Entailed facts rules t
  | rule {r : CheckedRule} (hr : rules r) {σ : Variable → Term} (hσ : IsGrounding σ)
      (hpatterns : ∀ p, .pattern p ∈ r.body → Entailed facts rules (p.mapVars σ))
      (hcalls : ∀ b args, .call b args ∈ r.body → b.Accepts (args.map (Term.mapVars σ)))
      {head : Triple} (hhead : .pattern head ∈ r.rule.head) :
      Entailed facts rules (head.mapVars σ)

structure Applies (M : Triple → Prop) (body : List Premise) (σ : Variable → Term) : Prop where
  patterns : ∀ p, .pattern p ∈ body → M (p.mapVars σ)
  calls : ∀ b args, .call b args ∈ body → b.Accepts (args.map (Term.mapVars σ))

theorem Applies.mono {M M' : Triple → Prop} {body : List Premise} {σ : Variable → Term}
    (h : Applies M body σ) (hM : ∀ t, M t → M' t) : Applies M' body σ :=
  ⟨fun p hp => hM _ (h.patterns p hp), h.calls⟩

structure SameInstance (r : CheckedRule) (σ σ' : Variable → Term) : Prop where
  patterns : ∀ p, .pattern p ∈ r.body → p.mapVars σ = p.mapVars σ'
  calls : ∀ b args, .call b args ∈ r.body →
    args.map (Term.mapVars σ) = args.map (Term.mapVars σ')
  heads : ∀ p, .pattern p ∈ r.rule.head → p.mapVars σ = p.mapVars σ'

theorem SameInstance.applies {r : CheckedRule} {σ σ' : Variable → Term} (h : SameInstance r σ σ')
    {M : Triple → Prop} (happ : Applies M r.body σ) : Applies M r.body σ' := by
  refine ⟨fun p hp => ?_, fun b args hcall => ?_⟩
  · rw [← h.patterns p hp]
    exact happ.patterns p hp
  · rw [← h.calls b args hcall]
    exact happ.calls b args hcall

/-- Every ground instance of a checked rule is given by what the slots stand for. -/
theorem CheckedRule.IsChecked.exists_instance {r : CheckedRule} (hr : r.IsChecked)
    {σ : Variable → Term} (hσ : IsGrounding σ) :
    ∃ τ : Nat → Term, (∀ i, (τ i).isGround) ∧ SameInstance r σ (bySlot τ) := by
  obtain ⟨τ, hτ, hστ⟩ := hr.exists_bySlot hσ
  refine ⟨τ, hτ, ?_, ?_, ?_⟩
  · intro p hp
    exact Triple.mapVars_congr p fun v hv => hστ v (mem_vars_iff.mpr ⟨_, hp, hv⟩)
  · intro b args hcall
    apply List.map_congr_left
    intro a ha
    apply Term.mapVars_congr
    intro v hv
    exact hστ v (mem_vars_iff.mpr ⟨_, hcall, List.mem_flatMap.mpr ⟨a, ha, hv⟩⟩)
  · intro p hp
    exact Triple.mapVars_congr p fun v hv => hστ v (hr.mem_vars_of_head hp hv)

def ClosedUnder (M : Triple → Prop) (r : CheckedRule) : Prop :=
  ∀ σ, IsGrounding σ → Applies M r.body σ → ∀ head, .pattern head ∈ r.rule.head →
    M (head.mapVars σ)

theorem ClosedUnder.of_bySlot {M : Triple → Prop} {r : CheckedRule} (hr : r.IsChecked)
    (h : ∀ τ : Nat → Term, (∀ i, (τ i).isGround) → Applies M r.body (bySlot τ) →
      ∀ head, .pattern head ∈ r.rule.head → M (head.mapVars (bySlot τ))) : ClosedUnder M r := by
  intro σ hσ happ head hhead
  obtain ⟨τ, hτ, hsame⟩ := hr.exists_instance hσ
  rw [hsame.heads head hhead]
  exact h τ hτ (hsame.applies happ) head hhead

/-- A set that contains the facts and is closed under the rules. -/
structure IsModel (facts : Triple → Prop) (rules : CheckedRule → Prop) (M : Triple → Prop) :
    Prop where
  facts : ∀ t, facts t → M t
  rules : ∀ r, rules r → ClosedUnder M r

namespace Entailed

variable {facts facts' : Triple → Prop} {rules rules' : CheckedRule → Prop}

theorem isModel : IsModel facts rules (Entailed facts rules) :=
  ⟨fun _ ht => .fact ht, fun _ hr _ hσ happ _ hhead => .rule hr hσ happ.patterns happ.calls hhead⟩

theorem mem_of_isModel {M : Triple → Prop} (hM : IsModel facts rules M) {t : Triple}
    (ht : Entailed facts rules t) : M t := by
  induction ht with
  | fact ht => exact hM.facts _ ht
  | rule hr hσ _ hcalls hhead ih => exact hM.rules _ hr _ hσ ⟨ih, hcalls⟩ _ hhead

/-- What follows from the facts is the least model. -/
theorem isLeast : IsLeast {M | IsModel facts rules M} (Entailed facts rules) :=
  ⟨isModel, fun _ hM _ ht => mem_of_isModel hM ht⟩

theorem mono (hfacts : ∀ t, facts t → facts' t) (hrules : ∀ r, rules r → rules' r) {t : Triple}
    (ht : Entailed facts rules t) : Entailed facts' rules' t :=
  mem_of_isModel ⟨fun u hu => .fact (hfacts u hu), fun r hr => isModel.rules r (hrules r hr)⟩ ht

theorem congr (hfacts : ∀ t, facts t ↔ facts' t) (hrules : ∀ r, rules r ↔ rules' r)
    (t : Triple) : Entailed facts rules t ↔ Entailed facts' rules' t :=
  ⟨mono (fun u => (hfacts u).mp) fun r => (hrules r).mp,
    mono (fun u => (hfacts u).mpr) fun r => (hrules r).mpr⟩

theorem of_sameRules (hfacts : ∀ t, facts t → facts' t)
    (hrules : ∀ r, rules r → ∃ r', rules' r' ∧ r'.body = r.body ∧ r'.rule.head = r.rule.head)
    {t : Triple} (ht : Entailed facts rules t) : Entailed facts' rules' t := by
  refine mem_of_isModel ⟨fun u hu => .fact (hfacts u hu), fun r hr σ hσ happ head hhead => ?_⟩ ht
  obtain ⟨r', hr', hbody, heq⟩ := hrules r hr
  rw [← hbody] at happ
  rw [← heq] at hhead
  exact isModel.rules r' hr' σ hσ happ head hhead

theorem iff_facts (hrules : ∀ r, ¬ rules r) (t : Triple) : Entailed facts rules t ↔ facts t := by
  refine ⟨fun ht => ?_, .fact⟩
  cases ht with
  | fact ht => exact ht
  | rule hr => exact absurd hr (hrules _)

theorem absorb (t : Triple) :
    Entailed (fun u => facts u ∨ Entailed facts' rules u) rules t ↔
      Entailed (fun u => facts u ∨ facts' u) rules t := by
  refine ⟨fun ht => mem_of_isModel ⟨fun u hu => ?_, isModel.rules⟩ ht,
    mono (fun u hu => hu.imp_right .fact) fun _ hr => hr⟩
  rcases hu with hu | hu
  · exact .fact (.inl hu)
  · exact mono (fun _ => .inr) (fun _ hr => hr) hu

theorem isGround (hfacts : ∀ t, facts t → t.isGround) {t : Triple}
    (ht : Entailed facts rules t) : t.isGround := by
  cases ht with
  | fact ht => exact hfacts t ht
  | rule _ hσ _ _ _ => exact Triple.isGround_mapVars hσ _

end Entailed

end TripleRules
