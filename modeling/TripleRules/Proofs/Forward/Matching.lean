import Mathlib.Data.List.Perm.Basic
import TripleRules.Forward.Matching
import TripleRules.Proofs.Rule.Base
import TripleRules.Proofs.Rule.Passed

/-!
# Matching bodies

Matching the rest of a guarded body never ends in a fault.  It comes to bindings that have passed
the whole body, and it misses no instance that applies in the sources.
-/

namespace TripleRules.Forward

/-! ## What a matching gains -/

structure Matching.Adds (m m' : Matching) (P : Firing → Prop) : Prop where
  fault : m'.fault = none
  keeps : ∀ f ∈ m.firings, f ∈ m'.firings
  adds : ∀ f ∈ m'.firings, f ∈ m.firings ∨ P f

namespace Matching

variable {m m' m'' : Matching} {P Q : Firing → Prop}

theorem Adds.refl (hm : m.fault = none) : m.Adds m P := ⟨hm, fun _ h => h, fun _ h => .inl h⟩

theorem Adds.of_eq (hfault : m'.fault = none) (hfirings : m'.firings = m.firings) :
    m.Adds m' P := by
  refine ⟨hfault, fun f hf => ?_, fun f hf => ?_⟩
  · rwa [hfirings]
  · rw [hfirings] at hf
    exact .inl hf

theorem Adds.trans (h : m.Adds m' P) (h' : m'.Adds m'' P) : m.Adds m'' P := by
  refine ⟨h'.fault, fun f hf => h'.keeps f (h.keeps f hf), fun f hf => ?_⟩
  rcases h'.adds f hf with hf | hf
  · exact h.adds f hf
  · exact .inr hf

theorem Adds.imp (h : m.Adds m' P) (hPQ : ∀ f, P f → Q f) : m.Adds m' Q :=
  ⟨h.fault, h.keeps, fun f hf => (h.adds f hf).imp_right (hPQ f)⟩

variable {step : Matching → Triple → Matching} {xs : List Triple}

theorem foldl_adds
    (hstep : ∀ (m : Matching), ∀ x ∈ xs, m.fault = none → m.Adds (step m x) P)
    (hm : m.fault = none) : m.Adds (xs.foldl step m) P := by
  induction xs generalizing m with
  | nil => exact .refl hm
  | cons x xs ih =>
      have hx : m.Adds (step m x) P := hstep m x List.mem_cons_self hm
      rw [List.foldl_cons]
      exact hx.trans (ih (fun m y hy => hstep m y (List.mem_cons_of_mem _ hy)) hx.fault)

theorem exists_mem_foldl
    (hstep : ∀ (m : Matching), ∀ x ∈ xs, m.fault = none → m.Adds (step m x) P)
    {x : Triple} (hx : x ∈ xs)
    (hgives : ∀ m : Matching, m.fault = none → ∃ f ∈ (step m x).firings, Q f)
    (hm : m.fault = none) : ∃ f ∈ (xs.foldl step m).firings, Q f := by
  obtain ⟨front, back, rfl⟩ := List.append_of_mem hx
  have hfront : m.Adds (front.foldl step m) P :=
    foldl_adds (fun m y hy => hstep m y (List.mem_append_left _ hy)) hm
  obtain ⟨f, hf, hQ⟩ := hgives _ hfront.fault
  have hadds := hstep (front.foldl step m) x hx hfront.fault
  have hback : ∀ (m : Matching), ∀ y ∈ back, m.fault = none → m.Adds (step m y) P := fun m y hy =>
    hstep m y (List.mem_append_right _ (List.mem_cons_of_mem _ hy))
  rw [List.foldl_append, List.foldl_cons]
  exact ⟨f, (foldl_adds hback hadds.fault).keeps f hf, hQ⟩

end Matching

/-! ## Bodies on the way -/

structure Begun (sources : Sources) (done rest : List Premise) (env : Bindings) : Prop where
  built : sources.Built
  guarded : GuardedAfter done rest
  values : env.Values (·.isGround)
  passed : Passed (sources.contains ·) done env

namespace Begun

variable {sources : Sources} {done rest : List Premise} {env env' : Bindings}

theorem match? {p x : Triple} (h : Begun sources done (.pattern p :: rest) env)
    (hx : sources.contains x) (hmatch : env.match? p x = some env') :
    Begun sources (done ++ [.pattern p]) rest env' where
  built := h.built
  guarded := h.guarded.tail
  values := (Bindings.match?_some hmatch).1.values h.values
  passed := h.passed.match? hx hmatch

theorem call {b : Builtin} {args : List Term} (h : Begun sources done (.call b args :: rest) env)
    (hacc : b.Accepts (args.map env.resolve)) :
    Begun sources (done ++ [.call b args]) rest env where
  built := h.built
  guarded := h.guarded.tail
  values := h.values
  passed := h.passed.call (h.passed.isTest h.values h.guarded).2 hacc

end Begun

structure Firing.Completes (f : Firing) (sources : Sources) (rule : CheckedRule)
    (done rest : List Premise) (env : Bindings) : Prop where
  rule : f.rule = rule
  binds : env.Extends f.env (rest.flatMap Premise.occurrences)
  passed : Passed (sources.contains ·) (done ++ rest) f.env

namespace Firing.Completes

variable {f : Firing} {sources : Sources} {rule : CheckedRule} {done rest : List Premise}
  {env env' : Bindings}

theorem of_match? {p x : Triple} (h : f.Completes sources rule (done ++ [.pattern p]) rest env')
    (hmatch : env.match? p x = some env') :
    f.Completes sources rule done (.pattern p :: rest) env := by
  have hpassed := h.passed
  rw [List.append_assoc, List.singleton_append] at hpassed
  refine ⟨h.rule, ?_, hpassed⟩
  rw [List.flatMap_cons]
  exact ((Bindings.match?_some hmatch).1.mono (List.subset_append_left _ _)).trans
    (h.binds.mono (List.subset_append_right _ _))

theorem of_call {b : Builtin} {args : List Term}
    (h : f.Completes sources rule (done ++ [.call b args]) rest env) :
    f.Completes sources rule done (.call b args :: rest) env := by
  have hpassed := h.passed
  rw [List.append_assoc, List.singleton_append] at hpassed
  refine ⟨h.rule, ?_, hpassed⟩
  rw [List.flatMap_cons]
  exact h.binds.mono (List.subset_append_right _ _)

end Firing.Completes

/-! ## Matching the rest of a body -/

variable {sources : Sources} {rule : CheckedRule} {record : Bool}

def visit (sources : Sources) (rule : CheckedRule) (record : Bool) (p : Triple)
    (rest : List Premise) (env : Bindings) (premises : List Triple) (m : Matching) (t : Triple) :
    Matching :=
  if m.fault.isSome then m
  else
    match env.match? p t with
    | none => m
    | some env' =>
      complete sources rule record rest env' (if record then premises ++ [t] else premises) m

theorem complete_pattern (p : Triple) (rest : List Premise) (env : Bindings)
    (premises : List Triple) (m : Matching) :
    complete sources rule record (.pattern p :: rest) env premises m =
      (sources.find (env.instantiate p)).foldl
        (visit sources rule record p rest env premises) m := by
  rw [complete]
  rfl

theorem complete_call {done rest : List Premise} {env : Bindings} {b : Builtin} {args : List Term}
    (h : Begun sources done (.call b args :: rest) env) (premises : List Triple) (m : Matching) :
    (b.Accepts (args.map env.resolve) ∧ ∃ m' : Matching, m'.fault = m.fault ∧
      m'.firings = m.firings ∧ complete sources rule record (.call b args :: rest) env premises m =
        complete sources rule record rest env premises m') ∨
    (¬ b.Accepts (args.map env.resolve) ∧ ∃ m' : Matching, m'.fault = m.fault ∧
      m'.firings = m.firings ∧
        complete sources rule record (.call b args :: rest) env premises m = m') := by
  obtain ⟨htest, hargs⟩ := h.passed.isTest h.values h.guarded
  rw [complete]
  rcases rule.call_eq_of_isTest htest hargs m.fresh with
    ⟨hacc, heq⟩ | ⟨hacc, heq | ⟨f, heq⟩⟩ <;> rw [heq]
  · exact .inl ⟨hacc, _, rfl, rfl, rfl⟩
  · exact .inr ⟨hacc, m, rfl, rfl, rfl⟩
  · exact .inr ⟨hacc, { m with failures := m.failures ++ [f] }, rfl, rfl, rfl⟩

/-- Matching adds bodies that were completed, and nothing else. -/
theorem complete_adds {rest done : List Premise} {env : Bindings} {m : Matching}
    (h : Begun sources done rest env) (premises : List Triple) (hm : m.fault = none) :
    m.Adds (complete sources rule record rest env premises m)
      (·.Completes sources rule done rest env) := by
  induction rest generalizing done env premises m with
  | nil =>
      rw [complete]
      refine ⟨hm, fun f hf => List.mem_append_left _ hf, fun f hf => ?_⟩
      rcases List.mem_append.mp hf with hf | hf
      · exact .inl hf
      · rw [List.mem_singleton] at hf
        subst hf
        have hpassed := h.passed
        rw [← List.append_nil done] at hpassed
        exact .inr ⟨rfl, .refl env _, hpassed⟩
  | cons c rest ih =>
      cases c with
      | pattern p =>
          rw [complete_pattern]
          refine Matching.foldl_adds (fun m x hx hm => ?_) hm
          have hin : sources.contains x := ((h.built.mem_find _ x).mp hx).1
          rw [visit, hm, Option.isSome_none, if_neg Bool.false_ne_true]
          cases hmatch : env.match? p x with
          | none => exact .refl hm
          | some env' => exact (ih (h.match? hin hmatch) _ hm).imp fun f hf => hf.of_match? hmatch
      | call b args =>
          rcases complete_call h premises m with
            ⟨hacc, m', hfault, hfirings, heq⟩ | ⟨-, m', hfault, hfirings, heq⟩
          · rw [heq]
            have hm' : m'.fault = none := hfault.trans hm
            have hcall : m.Adds m' (·.Completes sources rule done (.call b args :: rest) env) :=
              .of_eq hm' hfirings
            exact hcall.trans ((ih (h.call hacc) premises hm').imp fun f hf => hf.of_call)
          · rw [heq]
            exact .of_eq (hfault.trans hm) hfirings

theorem visit_adds {done rest : List Premise} {env : Bindings} {p : Triple}
    (h : Begun sources done (.pattern p :: rest) env) (premises : List Triple) :
    ∀ (m : Matching), ∀ x ∈ sources.find (env.instantiate p), m.fault = none →
      m.Adds (visit sources rule record p rest env premises m x) fun _ => True := by
  intro m x hx hm
  have hin : sources.contains x := ((h.built.mem_find _ x).mp hx).1
  rw [visit, hm, Option.isSome_none, if_neg Bool.false_ne_true]
  cases hmatch : env.match? p x with
  | none => exact .refl hm
  | some env' => exact (complete_adds (h.match? hin hmatch) _ hm).imp fun _ _ => trivial

/-- Matching misses no instance of the rest of the body that applies. -/
theorem complete_covers {τ : Nat → Term} (hτ : ∀ i, (τ i).isGround) {rest done : List Premise}
    {env : Bindings} {m : Matching} (h : Begun sources done rest env) (premises : List Triple)
    (hm : m.fault = none) (hagr : env.Agrees τ)
    (hslots : ∀ c ∈ rest, ∀ v ∈ c.occurrences, v.slot < env.size)
    (happ : Applies (sources.contains ·) rest (bySlot τ)) :
    ∃ f ∈ (complete sources rule record rest env premises m).firings, f.env.Agrees τ := by
  induction rest generalizing done env premises m with
  | nil =>
      rw [complete]
      exact ⟨⟨rule, env, premises⟩, List.mem_append_right _ (List.mem_singleton_self _), hagr⟩
  | cons c rest ih =>
      have hrest : Applies (sources.contains ·) rest (bySlot τ) :=
        ⟨fun p hp => happ.patterns p (List.mem_cons_of_mem _ hp),
          fun b args hcall => happ.calls b args (List.mem_cons_of_mem _ hcall)⟩
      cases c with
      | pattern p =>
          have hin : sources.contains (p.mapVars (bySlot τ)) := happ.patterns p List.mem_cons_self
          obtain ⟨env', hmatch, hagr'⟩ :=
            Bindings.match?_agrees hagr hτ (hslots (.pattern p) List.mem_cons_self)
          have hfind : p.mapVars (bySlot τ) ∈ sources.find (env.instantiate p) :=
            (h.built.mem_find _ _).mpr ⟨hin, Bindings.instantiate_matches? hagr hτ p⟩
          rw [complete_pattern]
          refine Matching.exists_mem_foldl (visit_adds h premises) hfind (fun m hm => ?_) hm
          rw [visit, hm, Option.isSome_none, if_neg Bool.false_ne_true, hmatch]
          refine ih (h.match? hin hmatch) _ hm hagr' (fun c hc v hv => ?_) hrest
          rw [(Bindings.match?_some hmatch).1.size_eq]
          exact hslots c (List.mem_cons_of_mem _ hc) v hv
      | call b args =>
          have hargs := (h.passed.isTest h.values h.guarded).2
          have hres : args.map env.resolve = args.map (Term.mapVars (bySlot τ)) :=
            List.map_congr_left fun a ha => Bindings.resolve_eq_bySlot hagr a
              ((Bindings.isGround_resolve_iff h.values a).mp (hargs a ha))
          have haccepts : b.Accepts (args.map env.resolve) := by
            rw [hres]
            exact happ.calls b args List.mem_cons_self
          rcases complete_call h premises m with ⟨hacc, m', hfault, -, heq⟩ | ⟨hacc, -⟩
          · rw [heq]
            exact ih (h.call hacc) premises (hfault.trans hm) hagr
              (fun c hc => hslots c (List.mem_cons_of_mem _ hc)) hrest
          · exact absurd haccepts hacc

/-! ## Ways into a rule -/

/-- A rule is entered: some clauses have been passed, and only variables of the rule are bound. -/
structure Entry (sources : Sources) (r : CheckedRule) (done rest : List Premise)
    (env : Bindings) : Prop where
  begun : Begun sources done rest env
  body : ∀ c, c ∈ r.body ↔ c ∈ done ++ rest
  size : env.size = r.slots
  slots : ∀ i x, env.Has i x → i ∈ r.vars.map (·.slot)

namespace Entry

variable {r : CheckedRule} {done rest : List Premise} {env : Bindings}

theorem front (hs : sources.Built) (hguard : r.Guarded) :
    Entry sources r [] r.body (.empty r.slots) where
  begun := ⟨hs, hguard.guardedAfter rfl, Bindings.values_empty _ _, .nil⟩
  body _ := Iff.rfl
  size := Bindings.size_empty _
  slots i x hx := absurd hx (Bindings.not_has_empty _ i x)

theorem trigger {tr : Trigger} (hs : sources.Built) (hguard : r.Guarded) (htr : tr.IsOf r)
    {t : Triple} (ht : sources.contains t)
    (hmatch : (Bindings.empty r.slots).match? tr.pattern t = some env) :
    Entry sources r [.pattern tr.pattern] tr.rest env := by
  have hext := (Bindings.match?_some hmatch).1
  have hbody : ∀ c, c ∈ r.body ↔ c ∈ [.pattern tr.pattern] ++ tr.rest := by
    intro c
    rw [htr.rest]
    exact (perm_cons_eraseIdx htr.clause).mem_iff.symm
  refine ⟨⟨hs, ?_, hext.values (Bindings.values_empty _ _), ?_⟩, hbody, ?_, fun i x hx => ?_⟩
  · rw [htr.rest]
    exact hguard.guardedAfter_eraseIdx htr.clause
  · exact Passed.nil.match? ht hmatch
  · rw [hext.size_eq, Bindings.size_empty]
  · rcases hext.adds i x hx with hx | ⟨-, v, hv, rfl⟩
    · exact absurd hx (Bindings.not_has_empty _ i x)
    · have hmem : v ∈ r.vars :=
        CheckedRule.mem_vars_iff.mpr ⟨.pattern tr.pattern, (hbody _).mpr List.mem_cons_self, hv⟩
      exact List.mem_map_of_mem hmem

theorem applies (h : Entry sources r done rest env) {f : Firing}
    (hf : f.Completes sources r done rest env) {τ : Nat → Term} (hτ : f.env.Agrees τ) :
    Applies (sources.contains ·) r.body (bySlot τ) ∧ f.env = r.bindings τ := by
  have hvalues : f.env.Values (·.isGround) := hf.binds.values h.begun.values
  have hpassed : Passed (sources.contains ·) r.body f.env :=
    hf.passed.subset fun c hc => (h.body c).mp hc
  refine ⟨hpassed.applies hvalues hτ, CheckedRule.eq_bindings ?_ (fun i x hx => ?_) ?_ hτ⟩
  · rw [hf.binds.size_eq, h.size]
  · rcases hf.binds.adds i x hx with hx | ⟨-, v, hv, rfl⟩
    · exact h.slots i x hx
    · obtain ⟨c, hc, hv⟩ := List.mem_flatMap.mp hv
      have hmem : v ∈ r.vars :=
        CheckedRule.mem_vars_iff.mpr ⟨c, (h.body c).mpr (List.mem_append_right _ hc), hv⟩
      exact List.mem_map_of_mem hmem
  · intro v hv
    obtain ⟨c, hc, hv⟩ := CheckedRule.mem_vars_iff.mp hv
    exact hpassed.has_of_mem hvalues hc hv

/-- Every instance of a rule that applies is found from an entry that agrees with it. -/
theorem covers (h : Entry sources r done rest env) (hr : r.IsChecked) (record : Bool)
    (premises : List Triple) (fresh : Nat) {τ : Nat → Term} (hτ : ∀ i, (τ i).isGround)
    (hagr : env.Agrees τ) (happ : Applies (sources.contains ·) r.body (bySlot τ)) :
    ∃ f ∈ (complete sources r record rest env premises (.start fresh)).firings,
      f.env.Agrees τ := by
  refine complete_covers hτ h.begun premises rfl hagr (fun c hc v hv => ?_) ⟨?_, ?_⟩
  · rw [h.size]
    have hmem : c ∈ r.body := (h.body c).mpr (List.mem_append_right _ hc)
    exact hr.slot_lt (CheckedRule.mem_vars_iff.mpr ⟨c, hmem, hv⟩)
  · exact fun p hp => happ.patterns p ((h.body _).mpr (List.mem_append_right _ hp))
  · exact fun b args hcall => happ.calls b args ((h.body _).mpr (List.mem_append_right _ hcall))

end Entry

end TripleRules.Forward
