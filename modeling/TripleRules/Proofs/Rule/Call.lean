import TripleRules.Rule.Call

/-!
# Calls in rules

What a call in a rule comes to depends on what the builtin answers, and fresh nodes are counted on
from where the builtin leaves them.  So whatever is known of the answer is known of the call.
-/

namespace TripleRules.CheckedRule

variable {r : CheckedRule} {b : Builtin} {args : List Term} {env next : Bindings} {fresh : Nat}
  {given : Except BuiltinError Answer} {f : Fault}

/-- What a call comes to, given what the builtin answers to its arguments. -/
def outcome (r : CheckedRule) (b : Builtin) (args : List Term) (env : Bindings) :
    Except BuiltinError Answer → CallResult
  | .error e =>
    if e.isFatal then .fault (.builtinFailed r.rule.label b.name e)
    else .noted ⟨r.rule.label, b.name, e.message⟩
  | .ok .fails => .fails
  | .ok (.holds values) =>
    match env.accept (args.map env.resolve) values with
    | some next => .holds next
    | none => .fails

theorem call_eq (r : CheckedRule) (b : Builtin) (args : List Term) (env : Bindings) (fresh : Nat) :
    r.call b args env fresh =
      (r.outcome b args env (b.run (args.map env.resolve) fresh).1,
        (b.run (args.map env.resolve) fresh).2) := by
  rcases hrun : b.run (args.map env.resolve) fresh with ⟨given, n⟩
  simp only [call, Builtin.call, hrun]
  cases given with
  | error e =>
      dsimp only [outcome]
      split <;> rfl
  | ok answer =>
      cases answer with
      | fails => rfl
      | holds values =>
          dsimp only [outcome]
          cases env.accept (args.map env.resolve) values <;> rfl

theorem outcome_cases (r : CheckedRule) (b : Builtin) (args : List Term) (env : Bindings)
    (given : Except BuiltinError Answer) :
    (∃ e, given = .error e ∧ e.isFatal = true ∧
      r.outcome b args env given = .fault (.builtinFailed r.rule.label b.name e)) ∨
    (∃ e, given = .error e ∧ e.isFatal = false ∧
      r.outcome b args env given = .noted ⟨r.rule.label, b.name, e.message⟩) ∨
    (given = .ok .fails ∧ r.outcome b args env given = .fails) ∨
    (∃ values, given = .ok (.holds values) ∧ env.accept (args.map env.resolve) values = none ∧
      r.outcome b args env given = .fails) ∨
    ∃ values next, given = .ok (.holds values) ∧
      env.accept (args.map env.resolve) values = some next ∧
      r.outcome b args env given = .holds next := by
  cases given with
  | error e =>
      cases hfatal : e.isFatal with
      | true => exact .inl ⟨e, rfl, hfatal, by simp [outcome, hfatal]⟩
      | false => exact .inr (.inl ⟨e, rfl, hfatal, by simp [outcome, hfatal]⟩)
  | ok answer =>
      refine .inr (.inr ?_)
      cases answer with
      | fails => exact .inl ⟨rfl, rfl⟩
      | holds values =>
          cases haccept : env.accept (args.map env.resolve) values with
          | none => exact .inr (.inl ⟨values, rfl, haccept, by rw [outcome, haccept]⟩)
          | some next => exact .inr (.inr ⟨values, next, rfl, haccept, by rw [outcome, haccept]⟩)

theorem outcome_holds_iff : r.outcome b args env given = .holds next ↔
    ∃ values, given = .ok (.holds values) ∧
      env.accept (args.map env.resolve) values = some next := by
  obtain ⟨e, rfl, hfatal, h⟩ | ⟨e, rfl, hfatal, h⟩ | ⟨rfl, h⟩ | ⟨values, rfl, haccept, h⟩ |
    ⟨values, env', rfl, haccept, h⟩ := r.outcome_cases b args env given
  all_goals simp [*]

theorem outcome_fails_iff : r.outcome b args env given = .fails ↔
    given = .ok .fails ∨ ∃ values, given = .ok (.holds values) ∧
      env.accept (args.map env.resolve) values = none := by
  obtain ⟨e, rfl, hfatal, h⟩ | ⟨e, rfl, hfatal, h⟩ | ⟨rfl, h⟩ | ⟨values, rfl, haccept, h⟩ |
    ⟨values, env', rfl, haccept, h⟩ := r.outcome_cases b args env given
  all_goals simp [*]

theorem outcome_noted_iff {f : BuiltinFailure} : r.outcome b args env given = .noted f ↔
    ∃ e, given = .error e ∧ e.isFatal = false ∧ f = ⟨r.rule.label, b.name, e.message⟩ := by
  obtain ⟨e, rfl, hfatal, h⟩ | ⟨e, rfl, hfatal, h⟩ | ⟨rfl, h⟩ | ⟨values, rfl, haccept, h⟩ |
    ⟨values, env', rfl, haccept, h⟩ := r.outcome_cases b args env given
  all_goals simp [*, eq_comm (a := f)]

theorem outcome_fault_iff : r.outcome b args env given = .fault f ↔
    ∃ e, given = .error e ∧ e.isFatal = true ∧ f = .builtinFailed r.rule.label b.name e := by
  obtain ⟨e, rfl, hfatal, h⟩ | ⟨e, rfl, hfatal, h⟩ | ⟨rfl, h⟩ | ⟨values, rfl, haccept, h⟩ |
    ⟨values, env', rfl, haccept, h⟩ := r.outcome_cases b args env given
  all_goals simp [*, eq_comm (a := f)]

/-- A call in a rule holds just when the builtin does and the bindings take its values. -/
theorem call_holds_iff : (r.call b args env fresh).1 = .holds next ↔
    ∃ values, (b.run (args.map env.resolve) fresh).1 = .ok (.holds values) ∧
      env.accept (args.map env.resolve) values = some next := by
  rw [call_eq]
  exact outcome_holds_iff

theorem call_fault_iff : (r.call b args env fresh).1 = .fault f ↔
    ∃ e, (b.run (args.map env.resolve) fresh).1 = .error e ∧ e.isFatal = true ∧
      f = .builtinFailed r.rule.label b.name e := by
  rw [call_eq]
  exact outcome_fault_iff

end TripleRules.CheckedRule
