import TripleRules.Proofs.Rule.Base
import TripleRules.Tabling.Basic

/-!
# Policies

Both engines work a rule off in the same way: it is entered, its clauses are passed one by one with
calls and with triples that are read, and at the end its head is concluded.  A policy is a property
of rules in progress that all this keeps; it may speak of premises and of what has been recorded so
far.  What a policy says holds in both engines, whatever the order of their work.
-/

namespace TripleRules

open Tabling (Cursor)

namespace Tabling.Cursor

/-- From a rule in progress to the same rule later on.  `F` are the triples that may be read for a
pattern; premises are kept if `record` is set. -/
inductive Leads (record : Bool) (F : Triple → Triple → Prop) (c : Cursor) : Cursor → Prop where
  | refl : Leads record F c c
  | read {r : CheckedRule} {env env' : Bindings} {p t : Triple} {rest : List Premise}
      {premises : List Triple} (h : Leads record F c ⟨r, env, .pattern p :: rest, premises⟩)
      (ht : F (env.instantiate p) t) (hmatch : env.match? p t = some env') :
      Leads record F c ⟨r, env', rest, if record then premises ++ [t] else premises⟩
  | call {r : CheckedRule} {env env' : Bindings} {b : Builtin} {args : List Term}
      {rest : List Premise} {premises : List Triple} {fresh fresh' : Nat}
      (h : Leads record F c ⟨r, env, .call b args :: rest, premises⟩)
      (hcall : r.call b args env fresh = (.holds env', fresh')) :
      Leads record F c ⟨r, env', rest, premises⟩

theorem Leads.trans {record : Bool} {F : Triple → Triple → Prop} {c c' c'' : Cursor}
    (h : Leads record F c c') (h' : Leads record F c' c'') : Leads record F c c'' := by
  induction h' with
  | refl => exact h
  | read _ ht hmatch ih => exact ih.read ht hmatch
  | call _ hcall ih => exact ih.call hcall

theorem Leads.rule_eq {record : Bool} {F : Triple → Triple → Prop} {c c' : Cursor}
    (h : Leads record F c c') : c'.rule = c.rule := by
  induction h with
  | refl => rfl
  | read _ _ _ ih => exact ih
  | call _ _ ih => exact ih

end Tabling.Cursor

open Tabling.Cursor (Leads)

/-- A property of rules, of triples that are read or concluded, of rules in progress and of
derivations, which every single inference keeps.  What is said of triples and of rules in progress
may depend on the derivations recorded so far. -/
structure Policy where
  /-- Whether premises are kept and derivations are recorded. -/
  record : Bool
  rule : CheckedRule → Prop
  triple : DerivationLog → Triple → Prop
  cursor : DerivationLog → Cursor → Prop
  /-- What holds of the derivations that are recorded. -/
  note : Derivation → Prop
  triple_record : ∀ {log t} (d : Derivation), triple log t → triple (log.record d) t
  cursor_record : ∀ {log c} (d : Derivation), cursor log c → cursor (log.record d) c
  /-- A rule is entered in front. -/
  front : ∀ {log r}, rule r → cursor log ⟨r, .empty r.slots, r.body, []⟩
  /-- A rule is entered in front to prove a goal. -/
  start : ∀ {log r goal env}, rule r → r.start? goal = some env → cursor log ⟨r, env, r.body, []⟩
  /-- A rule is entered at one of its patterns. -/
  trigger : ∀ {log r i p t env}, rule r → r.body[i]? = some (.pattern p) → triple log t →
    (Bindings.empty r.slots).match? p t = some env →
      cursor log ⟨r, env, r.body.eraseIdx i, if record then [t] else []⟩
  read : ∀ {log r env p rest premises t env'}, cursor log ⟨r, env, .pattern p :: rest, premises⟩ →
    triple log t → env.match? p t = some env' →
      cursor log ⟨r, env', rest, if record then premises ++ [t] else premises⟩
  call : ∀ {log r env b args rest premises fresh env' fresh'},
    cursor log ⟨r, env, .call b args :: rest, premises⟩ →
      r.call b args env fresh = (.holds env', fresh') → cursor log ⟨r, env', rest, premises⟩
  conclude : ∀ {log r env premises p}, cursor log ⟨r, env, [], premises⟩ →
    .pattern p ∈ r.rule.head → (env.instantiate p).isGround →
      triple (if record then log.record ⟨r.rule, env.instantiate p, premises⟩ else log)
        (env.instantiate p)
  derive : ∀ {log r env premises p}, cursor log ⟨r, env, [], premises⟩ →
    .pattern p ∈ r.rule.head → (env.instantiate p).isGround →
      note ⟨r.rule, env.instantiate p, premises⟩

namespace Policy

variable (P : Policy)

/-- Whatever a rule in progress leads to keeps to the policy. -/
theorem leads {log : DerivationLog} {F : Triple → Triple → Prop}
    (hF : ∀ g t, F g t → P.triple log t) {c c' : Cursor} (hc : P.cursor log c)
    (h : Leads P.record F c c') : P.cursor log c' := by
  induction h with
  | refl => exact hc
  | read _ ht hmatch ih => exact P.read ih (hF _ _ ht) hmatch
  | call _ hcall ih => exact P.call ih hcall

end Policy

end TripleRules
