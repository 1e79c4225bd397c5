import TripleRules.Proofs.Rule.Numbering

/-!
# Checked rules

What the numbering of variables and the checks give: in a rule that was made and passed the checks,
slots tell variables apart, every slot exists, and every variable of a head pattern occurs in the
body.
-/

namespace TripleRules

namespace Premise

def occurrences : Premise → List Variable
  | pattern t => t.occurrences
  | call _ args => args.flatMap Term.occurrences

end Premise

namespace Rule

theorem validate_ok {r : Rule} (h : r.validate = .ok ()) :
    (r.direction.isBackward → r.headPattern?.isSome) ∧ r.unsafeVariable? = none := by
  unfold validate at h
  split at h
  · cases h
  · split at h
    · cases h
    · rename_i hback
      split at h
      · cases h
      · refine ⟨fun hdir => ?_, ‹_›⟩
        simpa [hdir, ← Option.isSome_iff_ne_none, Option.isNone_iff_eq_none] using hback

theorem check_ok {r : Rule} {known : Registry} {c : CheckedRule} (h : r.check known = .ok c) :
    r.validate = .ok () ∧ resolveBody known r.label r.body = .ok c.body ∧ c.rule = r := by
  unfold check at h
  cases hv : r.validate with
  | error e =>
      rw [hv] at h
      cases h
  | ok u =>
      cases hb : resolveBody known r.label r.body with
      | error e =>
          rw [hv, hb] at h
          cases h
      | ok body =>
          cases hc : Conclusion.checkAllCalls known r.head with
          | error e =>
              rw [hv, hb, hc] at h
              cases h
          | ok u' =>
              rw [hv, hb, hc] at h
              cases h
              exact ⟨rfl, rfl, rfl⟩

theorem mem_body_of_unsafeVariable?_eq_none {r : Rule} (h : r.unsafeVariable? = none)
    {t : Triple} (ht : .pattern t ∈ r.head) {v : Variable} (hv : v ∈ t.occurrences) :
    v ∈ r.body.flatMap Clause.occurrences := by
  simp only [unsafeVariable?, List.findSome?_eq_none_iff] at h
  have hfind := h _ ht
  simp only [List.find?_eq_none] at hfind
  simpa using hfind v ((Triple.mem_vars t v).mpr hv)

end Rule

theorem Clause.resolve_ok {known : Registry} {label : String} {c : Clause} {p : Premise}
    (h : c.resolve known label = .ok p) :
    (∃ t, c = .pattern t ∧ p = .pattern t) ∨
      ∃ name args b, c = .call name args ∧ p = .call b args ∧ known.find? name = some b := by
  cases c with
  | pattern t =>
      simp only [resolve, Except.ok.injEq] at h
      exact .inl ⟨t, rfl, h.symm⟩
  | call name args =>
      simp only [resolve, Registry.resolve] at h
      split at h
      · cases h
      · rename_i b hb
        split at h
        · cases h
          exact .inr ⟨name, args, b, rfl, rfl, hb⟩
        · cases h

theorem resolveBody_ok {known : Registry} {label : String} {body : List Clause}
    {premises : List Premise} (h : resolveBody known label body = .ok premises) :
    List.Forall₂ (fun c p => c.resolve known label = .ok p) body premises := by
  unfold resolveBody at h
  induction body generalizing premises with
  | nil =>
      rw [List.mapM_nil] at h
      cases h
      exact .nil
  | cons c cs ih =>
      rw [List.mapM_cons] at h
      cases hc : c.resolve known label with
      | error e =>
          rw [hc] at h
          cases h
      | ok p =>
          cases hcs : cs.mapM (Clause.resolve known label) with
          | error e =>
              rw [hc, hcs] at h
              cases h
          | ok ps =>
              rw [hc, hcs] at h
              cases h
              exact .cons hc (ih hcs)

theorem flatMap_occurrences_of_resolveBody {known : Registry} {label : String}
    {body : List Clause} {premises : List Premise}
    (h : resolveBody known label body = .ok premises) :
    premises.flatMap Premise.occurrences = body.flatMap Clause.occurrences := by
  have hall := resolveBody_ok h
  clear h
  induction hall with
  | nil => rfl
  | @cons c p cs ps hc _ ih =>
      rw [List.flatMap_cons, List.flatMap_cons, ih]
      rcases Clause.resolve_ok hc with ⟨t, rfl, rfl⟩ | ⟨name, args, b, rfl, rfl, -⟩ <;> rfl

namespace CheckedRule

def IsChecked (c : CheckedRule) : Prop := ∃ known r, Rule.IsMade r ∧ r.check known = .ok c

theorem isChecked_specialize {r : Rule} {env : Bindings} {known : Registry} {c : CheckedRule}
    (h : (r.specialize env).check known = .ok c) :
    c.IsChecked ∧ c.rule.direction.isBackward := by
  refine ⟨⟨known, r.specialize env, ⟨_, _, _, _, rfl⟩, h⟩, ?_⟩
  rw [(Rule.check_ok h).2.2, Rule.specialize, Rule.direction_withName]
  rfl

def vars (c : CheckedRule) : List Variable := c.body.flatMap Premise.occurrences

theorem mem_vars_iff {c : CheckedRule} {v : Variable} :
    v ∈ c.vars ↔ ∃ p ∈ c.body, v ∈ p.occurrences := List.mem_flatMap

theorem IsChecked.vars_eq {c : CheckedRule} (h : c.IsChecked) :
    c.vars = c.rule.body.flatMap Clause.occurrences := by
  obtain ⟨known, r, -, hcheck⟩ := h
  obtain ⟨-, hbody, rfl⟩ := Rule.check_ok hcheck
  exact flatMap_occurrences_of_resolveBody hbody

theorem IsChecked.slot_lt {c : CheckedRule} (h : c.IsChecked) {v : Variable} (hv : v ∈ c.vars) :
    v.slot < c.slots := by
  rw [h.vars_eq] at hv
  obtain ⟨known, r, hmade, hcheck⟩ := h
  obtain ⟨-, -, rfl⟩ := Rule.check_ok hcheck
  obtain ⟨names, hslots, hnum⟩ := hmade.numbered
  rw [slots, hslots]
  exact (hnum v (List.mem_append_left _ hv)).slot_lt

theorem IsChecked.eq_of_slot_eq {c : CheckedRule} (h : c.IsChecked) {u v : Variable}
    (hu : u ∈ c.vars) (hv : v ∈ c.vars) (huv : u.slot = v.slot) : u = v := by
  rw [h.vars_eq] at hu hv
  obtain ⟨known, r, hmade, hcheck⟩ := h
  obtain ⟨-, -, rfl⟩ := Rule.check_ok hcheck
  obtain ⟨names, -, hnum⟩ := hmade.numbered
  exact (hnum u (List.mem_append_left _ hu)).eq_of_slot_eq (hnum v (List.mem_append_left _ hv)) huv

theorem IsChecked.mem_vars_of_head {c : CheckedRule} (h : c.IsChecked) {t : Triple}
    (ht : .pattern t ∈ c.rule.head) {v : Variable} (hv : v ∈ t.occurrences) : v ∈ c.vars := by
  rw [h.vars_eq]
  obtain ⟨known, r, -, hcheck⟩ := h
  obtain ⟨hvalid, -, rfl⟩ := Rule.check_ok hcheck
  exact Rule.mem_body_of_unsafeVariable?_eq_none (Rule.validate_ok hvalid).2 ht hv

theorem IsChecked.headPattern?_isSome {c : CheckedRule} (h : c.IsChecked)
    (hback : c.rule.direction.isBackward) : c.headPattern?.isSome := by
  obtain ⟨known, r, -, hcheck⟩ := h
  obtain ⟨hvalid, -, rfl⟩ := Rule.check_ok hcheck
  exact (Rule.validate_ok hvalid).1 hback

theorem headPattern?_eq_some {c : CheckedRule} {t : Triple} :
    c.headPattern? = some t ↔ c.rule.head = [.pattern t] := by
  unfold CheckedRule.headPattern? Rule.headPattern?
  constructor
  · intro h
    split at h
    · rename_i u hu
      cases h
      exact hu
    · cases h
  · intro h
    rw [h]

theorem IsChecked.exists_bySlot {c : CheckedRule} (h : c.IsChecked) {σ : Variable → Term}
    (hσ : IsGrounding σ) :
    ∃ τ : Nat → Term, (∀ i, (τ i).isGround) ∧ ∀ v ∈ c.vars, σ v = bySlot τ v :=
  TripleRules.exists_bySlot (fun _ hu _ hv => h.eq_of_slot_eq hu hv) fun v _ => hσ v

/-! ## Guarded rules -/

/-- Every call is to a test, and every variable of a call occurs in a pattern before it. -/
def Guarded (c : CheckedRule) : Prop :=
  ∀ before b args after, c.body = before ++ .call b args :: after →
    b.IsTest ∧ ∀ a ∈ args, ∀ v ∈ a.occurrences, ∃ p, .pattern p ∈ before ∧ v ∈ p.occurrences

/-- Every variable of a guarded rule occurs in a pattern. -/
theorem Guarded.exists_pattern {c : CheckedRule} (h : c.Guarded) {v : Variable}
    (hv : v ∈ c.vars) : ∃ p, .pattern p ∈ c.body ∧ v ∈ p.occurrences := by
  obtain ⟨q, hq, hv⟩ := mem_vars_iff.mp hv
  cases q with
  | pattern p => exact ⟨p, hq, hv⟩
  | call b args =>
      obtain ⟨before, after, hbody⟩ := List.append_of_mem hq
      obtain ⟨a, ha, hv⟩ := List.mem_flatMap.mp hv
      obtain ⟨p, hp, hv⟩ := (h before b args after hbody).2 a ha v hv
      exact ⟨p, by rw [hbody]; exact List.mem_append_left _ hp, hv⟩

/-! ## An instance -/

def beforeRule : Rule :=
  .make
    [.pattern ⟨.named "x", .iri "before", .named "y"⟩,
      .pattern ⟨.named "y", .iri "before", .named "z"⟩,
      .call "notEqual" [.named "x", .named "z"]]
    [.pattern ⟨.named "x", .iri "before", .named "z"⟩] .both

def notEqual : Builtin := .ofFun "notEqual" (.exactly 2) (Builtin.equality false)

def before : CheckedRule :=
  ⟨beforeRule,
    [.pattern ⟨.var ⟨"x", 0⟩, .iri "before", .var ⟨"y", 1⟩⟩,
      .pattern ⟨.var ⟨"y", 1⟩, .iri "before", .var ⟨"z", 2⟩⟩,
      .call notEqual [.var ⟨"x", 0⟩, .var ⟨"z", 2⟩]]⟩

theorem check_beforeRule : beforeRule.check .standard = .ok before := by rfl

theorem isMade_beforeRule : beforeRule.IsMade := ⟨_, _, _, none, rfl⟩

theorem isChecked_before : before.IsChecked := ⟨_, _, isMade_beforeRule, check_beforeRule⟩

theorem isTest_notEqual : notEqual.IsTest := by
  have hfind : Registry.standard.find? "notEqual" = some notEqual := by rfl
  exact Builtin.isTest_of_find? hfind (by decide)

theorem guarded_before : before.Guarded := by
  intro front b args after hbody
  have hfront : front = before.body.take 2 ∧ b = notEqual ∧
      args = [.var ⟨"x", 0⟩, .var ⟨"z", 2⟩] := by
    match front, hbody with
    | [_, _], hbody => simp_all [before]
    | [], hbody | [_], hbody | _ :: _ :: _ :: _, hbody => simp [before] at hbody
  obtain ⟨rfl, rfl, rfl⟩ := hfront
  refine ⟨isTest_notEqual, ?_⟩
  simp [before, Term.occurrences, Triple.occurrences, Triple.terms]

end CheckedRule

end TripleRules
