import Mathlib.Data.List.Perm.Basic
import TripleRules.Proofs.Builtin.Ground
import TripleRules.Proofs.Derivation.Log
import TripleRules.Proofs.Rule.Acceptance
import TripleRules.Proofs.Rule.Policy

/-!
# Explanations

When derivations are recorded, a rule in progress keeps the triples that have matched the patterns
of its body.  Whichever pattern it was entered at and whatever calls come in between, these are the
instances of the patterns under the bindings that the rule ends with, so that what is recorded is an
instance of the rule.
-/

namespace TripleRules

open Tabling (Cursor)

def patternsOf (body : List Premise) : List Triple :=
  body.filterMap fun
    | .pattern t => some t
    | .call .. => none

theorem mem_patternsOf {body : List Premise} {p : Triple} :
    p ∈ patternsOf body ↔ .pattern p ∈ body := by
  rw [patternsOf, List.mem_filterMap]
  constructor
  · rintro ⟨c, hc, heq⟩
    cases c with
    | pattern q => cases heq; exact hc
    | call b args => cases heq
  · exact fun h => ⟨_, h, rfl⟩

theorem patternsOf_append (xs ys : List Premise) :
    patternsOf (xs ++ ys) = patternsOf xs ++ patternsOf ys := List.filterMap_append

theorem CheckedRule.patternsOf_body {known : Registry} {c : CheckedRule}
    (h : c.rule.check known = .ok c) : patternsOf c.body = c.rule.patterns := by
  have hall := resolveBody_ok (Rule.check_ok h).2.1
  unfold Rule.patterns
  generalize c.rule.body = clauses at hall
  generalize c.body = premises at hall
  induction hall with
  | nil => rfl
  | @cons clause premise clauses premises hc _ ih =>
      unfold patternsOf at *
      rcases Clause.resolve_ok hc with ⟨t, rfl, rfl⟩ | ⟨name, args, b, rfl, rfl, -⟩
      · rw [List.filterMap_cons, List.filterMap_cons, ih]
      · rw [List.filterMap_cons, List.filterMap_cons, ih]

theorem Bindings.Extends.map_instantiate {b b' : Bindings} {vs : List Variable}
    (h : b.Extends b' vs) {ps : List Triple} (hps : ∀ x ∈ ps.map b.instantiate, x.isGround) :
    ps.map b'.instantiate = ps.map b.instantiate :=
  List.map_congr_left fun _ hp => instantiate_eq_of_extends h (hps _ (List.mem_map_of_mem hp))

structure CheckedRule.IsReliable (c : CheckedRule) : Prop where
  checked : ∃ known, c.rule.check known = .ok c
  calls : GroundCalls c.body

/-- A rule in progress accounts for its premises: they are the ground instances of the patterns that
are done, under the bindings made so far. -/
structure Tabling.Cursor.Accounts (c : Cursor) : Prop where
  checked : ∃ known, c.rule.rule.check known = .ok c.rule
  calls : GroundCalls c.rest
  ground : ∀ x ∈ c.premises, x.isGround
  done : ∃ done, (done ++ c.rest).Perm c.rule.body ∧
    c.premises = (patternsOf done).map c.env.instantiate

namespace Tabling.Cursor.Accounts

variable {r : CheckedRule} {env env' : Bindings} {rest : List Premise} {premises : List Triple}
  {p t : Triple}

theorem enter (h : r.IsReliable) (env : Bindings) : Accounts ⟨r, env, r.body, []⟩ :=
  ⟨h.checked, h.calls, fun _ hx => absurd hx List.not_mem_nil, [], .refl _, rfl⟩

theorem trigger (h : r.IsReliable) {i : Nat} (hp : r.body[i]? = some (.pattern p))
    (hmatch : (Bindings.empty r.slots).match? p t = some env) :
    Accounts ⟨r, env, r.body.eraseIdx i, [t]⟩ := by
  obtain ⟨-, hinstance, hground⟩ := Bindings.match?_some hmatch
  refine ⟨h.checked, fun b args hcall => h.calls b args (List.mem_of_mem_eraseIdx hcall),
    fun x hx => ?_, [.pattern p], ?_, ?_⟩
  · rw [List.mem_singleton.mp hx]
    exact hground
  · exact perm_cons_eraseIdx hp
  · exact congrArg (fun x => [x]) hinstance.symm

theorem next {c : Premise} {new : List Triple} {vs : List Variable}
    (h : Accounts ⟨r, env, c :: rest, premises⟩) (hextends : env.Extends env' vs)
    (hground : ∀ x ∈ new, x.isGround) (hnew : (patternsOf [c]).map env'.instantiate = new) :
    Accounts ⟨r, env', rest, premises ++ new⟩ := by
  obtain ⟨hchecked, hcalls, hpremises, done, hperm, heq⟩ := h
  refine ⟨hchecked, hcalls.tail, fun x hx => ?_, done ++ [c], ?_, ?_⟩
  · rcases List.mem_append.mp hx with hx | hx
    · exact hpremises x hx
    · exact hground x hx
  · rw [List.append_assoc]
    exact hperm
  · dsimp only at heq hpremises
    rw [heq] at hpremises
    rw [patternsOf_append, List.map_append, hextends.map_instantiate hpremises, heq, hnew]

theorem read (h : Accounts ⟨r, env, .pattern p :: rest, premises⟩)
    (hmatch : env.match? p t = some env') : Accounts ⟨r, env', rest, premises ++ [t]⟩ := by
  obtain ⟨hextends, hinstance, hground⟩ := Bindings.match?_some hmatch
  refine h.next hextends (fun x hx => ?_) (congrArg (fun x => [x]) hinstance)
  rw [List.mem_singleton.mp hx]
  exact hground

theorem call {b : Builtin} {args : List Term} {fresh fresh' : Nat}
    (h : Accounts ⟨r, env, .call b args :: rest, premises⟩)
    (hcall : r.call b args env fresh = (.holds env', fresh')) :
    Accounts ⟨r, env', rest, premises⟩ := by
  have hextends := CheckedRule.call_extends (h.calls b args List.mem_cons_self)
    (congrArg Prod.fst hcall)
  have hnext := h.next hextends (fun _ hx => absurd hx List.not_mem_nil) rfl
  rwa [List.append_nil] at hnext

/-- When the body is done, the premises and a pattern of the head are an instance of the rule. -/
theorem isInstance (h : Accounts ⟨r, env, [], premises⟩) (hp : .pattern p ∈ r.rule.head) :
    Derivation.IsInstance ⟨r.rule, env.instantiate p, premises⟩ := by
  obtain ⟨⟨known, hchecked⟩, -, -, done, hperm, heq⟩ := h
  refine ⟨fun v => (env.get? v).getD (.var v), p, hp, fun hback => ?_, rfl, ?_⟩
  · have hwellFormed := Rule.validate_ok_iff.mp (Rule.check_ok hchecked).1
    obtain ⟨q, hhead⟩ := hwellFormed.single hback
    rw [hhead] at hp ⊢
    rw [List.mem_singleton.mp hp]
  · dsimp only at heq hperm
    rw [List.append_nil] at hperm
    rw [heq, ← CheckedRule.patternsOf_body hchecked]
    exact (hperm.filterMap _).map _

end Tabling.Cursor.Accounts

/-! ## The policy -/

def Policy.explaining (given : Triple → Prop) : Policy where
  record := true
  rule := CheckedRule.IsReliable
  triple log t := given t ∨ t ∈ log.conclusions
  cursor log c := c.Accounts ∧ ∀ x ∈ c.premises, given x ∨ x ∈ log.conclusions
  note := Derivation.IsInstance
  triple_record d ht := ht.imp_right fun ht =>
    (DerivationLog.mem_conclusions_record _ d _).mpr (.inl ht)
  cursor_record d hc := hc.imp_right fun hpremises x hx => (hpremises x hx).imp_right fun hx =>
    (DerivationLog.mem_conclusions_record _ d _).mpr (.inl hx)
  front hr := ⟨.enter hr _, fun _ hx => absurd hx List.not_mem_nil⟩
  start hr _ := ⟨.enter hr _, fun _ hx => absurd hx List.not_mem_nil⟩
  trigger hr hp ht hmatch := ⟨.trigger hr hp hmatch, fun _ hx => List.mem_singleton.mp hx ▸ ht⟩
  read hc ht hmatch := by
    refine ⟨hc.1.read hmatch, fun x hx => ?_⟩
    rcases List.mem_append.mp hx with hx | hx
    · exact hc.2 x hx
    · rw [List.mem_singleton.mp hx]
      exact ht
  call hc hcall := ⟨hc.1.call hcall, hc.2⟩
  conclude _ _ _ := .inr ((DerivationLog.mem_conclusions_record _ _ _).mpr (.inr rfl))
  derive hc hp _ := hc.1.isInstance hp

end TripleRules
