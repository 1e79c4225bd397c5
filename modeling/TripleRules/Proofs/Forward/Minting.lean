import TripleRules.Proofs.Forward.Triggers

/-!
# Minting nodes

A call that mints nodes does so whenever its argument is open.  Behind clauses that mint nothing it
mints one node for every solution that leaves its argument open, whatever comes behind it; and if
nothing does, as many bodies are completed as nodes are minted.
-/

namespace TripleRules

namespace Builtin

/-! ## The call that mints -/

theorem neverFatal_makeTemp : makeTemp.NeverFatal := by
  intro args fresh
  unfold makeTemp
  dsimp only
  split <;> exact soft_ok _

section MakeTemp

variable (r : CheckedRule) {a : Term} {env : Bindings} (fresh : Nat)

theorem makeTemp_fresh (a : Term) (env : Bindings) :
    (r.call makeTemp [a] env fresh).2 = fresh + if (env.resolve a).isVar then 1 else 0 := by
  rw [rule_call_fresh, List.map_singleton]
  cases env.resolve a <;> rfl

theorem makeTemp_fails (ha : (env.resolve a).isVar = false) :
    (r.call makeTemp [a] env fresh).1 = .fails := by
  cases hres : env.resolve a with
  | var v => rw [hres] at ha; cases ha
  | iri | literal | blank | compound =>
      rw [CheckedRule.call_eq, List.map_singleton, hres]
      rfl

theorem exists_var_of_isVar_resolve (henv : env.Values (·.isGround))
    (ha : (env.resolve a).isVar) : ∃ v, a = .var v ∧ env.get? v = none := by
  cases hres : env.resolve a with
  | var v => exact ⟨v, Bindings.eq_var_of_resolve_eq henv hres⟩
  | iri | literal | blank | compound => rw [hres] at ha; cases ha

theorem makeTemp_holds (henv : env.Values (·.isGround))
    (hslots : ∀ v ∈ a.occurrences, v.slot < env.size) (ha : (env.resolve a).isVar) :
    ∃ env', (r.call makeTemp [a] env fresh).1 = .holds env' := by
  obtain ⟨v, rfl, hget⟩ := exists_var_of_isVar_resolve henv ha
  have hresolve : env.resolve (.var v) = .var v := by
    rw [Bindings.resolve_var, hget, Option.getD_none]
  have hslot : env.slots[v.slot]? = some none := by
    rw [Bindings.get?, Option.join_eq_none_iff] at hget
    have hlt : v.slot < env.slots.length := hslots v (by simp [Term.occurrences])
    rw [List.getElem?_eq_getElem hlt] at hget ⊢
    simpa using hget
  refine ⟨⟨env.slots.set v.slot (some (.blank (.fresh fresh)))⟩,
    CheckedRule.call_holds_iff.mpr ⟨[(0, .blank (.fresh fresh))], ?_, ?_⟩⟩
  · rw [List.map_singleton, hresolve]
    rfl
  · simp [hresolve, Bindings.accept, Bindings.bind, hslot]

end MakeTemp

end Builtin

namespace Forward

variable {sources : Sources} {r : CheckedRule} {record : Bool} {rest before : List Premise}
  {env : Bindings} {envs : List Bindings} {premises : List Triple} {m m' : Matching} {a : Term}

/-! ## How many nodes are minted -/

theorem neverFatal_of_makeTemp (hrest : FunctionalCalls rest) :
    ∀ b args, .call b args ∈ .call .makeTemp [a] :: rest → b.NeverFatal := by
  intro b args hcall
  rcases List.mem_cons.mp hcall with heq | hcall
  · cases heq
    exact Builtin.neverFatal_makeTemp
  · exact (hrest b args hcall).toIsPure.neverFatal

theorem Resumes.minted (h : Resumes sources r record (.call .makeTemp [a] :: rest) m envs m')
    (hrest : FunctionalCalls rest) (hm : m.fault = none) :
    m'.fresh = m.fresh + envs.countP fun env => (env.resolve a).isVar := by
  induction h with
  | start => rfl
  | note _ _ ih => exact ih
  | @resume envs m' h env premises ih =>
      have hfault := h.fault_eq_none (neverFatal_of_makeTemp hrest) hm
      have hfresh := Builtin.makeTemp_fresh r m'.fresh a env
      have hone : (complete sources r record (.call .makeTemp [a] :: rest) env premises m').fresh =
          m'.fresh + if (env.resolve a).isVar then 1 else 0 := by
        rw [complete]
        rcases hcall : r.call Builtin.makeTemp [a] env m'.fresh with ⟨result, fresh⟩
        rw [hcall] at hfresh
        cases result with
        | holds env' =>
            exact (complete_solutions (m := { m' with fresh := fresh }) hrest hfault).1.trans hfresh
        | fails | noted | fault => exact hfresh
      rw [hone, ih, List.countP_append, List.countP_singleton, Nat.add_assoc]

/-- A call that mints nodes mints one for each solution of the clauses before it that leaves its
argument open, whatever comes behind it. -/
theorem fresh_complete_makeTemp (hbefore : FunctionalCalls before) (hrest : FunctionalCalls rest)
    (hm : m.fault = none) :
    (complete sources r record (before ++ .call .makeTemp [a] :: rest) env premises m).fresh =
      m.fresh + (solutions sources r before env).countP fun env' => (env'.resolve a).isVar :=
  (complete_resumes hbefore (neverFatal_of_makeTemp hrest) hm).minted hrest hm

/-! ## How many bodies are completed -/

theorem Resumes.balanced (h : Resumes sources r record [.call .makeTemp [a]] m envs m')
    (henvs : ∀ env ∈ envs, env.Values (·.isGround) ∧ ∀ v ∈ a.occurrences, v.slot < env.size) :
    m'.firings.length + m.fresh = m.firings.length + m'.fresh := by
  induction h with
  | start => rfl
  | note _ _ ih => exact ih henvs
  | @resume envs m' _ env premises ih =>
      have hbefore := ih fun env' henv' => henvs env' (List.mem_append_left _ henv')
      obtain ⟨hvalues, hslots⟩ := henvs env (List.mem_append_right _ (List.mem_singleton_self env))
      have hfresh := Builtin.makeTemp_fresh r m'.fresh a env
      rw [complete]
      cases hopen : (env.resolve a).isVar with
      | true =>
          obtain ⟨env', hholds⟩ := Builtin.makeTemp_holds r m'.fresh hvalues hslots hopen
          rcases hcall : r.call Builtin.makeTemp [a] env m'.fresh with ⟨result, fresh⟩
          rw [hcall, hopen, if_pos rfl] at hfresh
          rw [hcall] at hholds
          obtain rfl : result = .holds env' := hholds
          obtain rfl : fresh = m'.fresh + 1 := hfresh
          simp only [complete, List.length_append, List.length_singleton]
          omega
      | false =>
          have hfails := Builtin.makeTemp_fails r m'.fresh hopen
          rcases hcall : r.call Builtin.makeTemp [a] env m'.fresh with ⟨result, fresh⟩
          rw [hcall, hopen, if_neg Bool.false_ne_true] at hfresh
          rw [hcall] at hfails
          obtain rfl : result = .fails := hfails
          obtain rfl : fresh = m'.fresh := hfresh
          exact hbefore

/-- Matching that ends with a call that mints nodes mints one for each body that it completes. -/
theorem fresh_eq_length_makeTemp (hs : sources.Built) (hbefore : FunctionalCalls before)
    (hgrounds : GroundCalls before) (henv : env.Values (·.isGround))
    (hslots : ∀ v ∈ a.occurrences, v.slot < env.size) (fresh : Nat) :
    (complete sources r record (before ++ [.call .makeTemp [a]]) env premises
        (.start fresh)).fresh =
      fresh + (complete sources r record (before ++ [.call .makeTemp [a]]) env premises
        (.start fresh)).firings.length := by
  have hnone : FunctionalCalls [] := fun _ _ h => absurd h List.not_mem_nil
  have hresumes : Resumes sources r record [.call .makeTemp [a]] (.start fresh)
      (solutions sources r before env) (complete sources r record
        (before ++ [.call .makeTemp [a]]) env premises (.start fresh)) :=
    complete_resumes hbefore (neverFatal_of_makeTemp hnone) rfl
  have hbalanced := hresumes.balanced fun env' henv' => by
    obtain ⟨vs, hext⟩ :=
      ((mem_solutions_iff hs hbefore hgrounds henv).mp henv').exists_extends hgrounds
    exact ⟨hext.values henv, fun v hv => hext.size_eq ▸ hslots v hv⟩
  rw [Matching.start, List.length_nil, Nat.zero_add] at hbalanced
  rw [Matching.start, ← hbalanced, Nat.add_comm]

end Forward

end TripleRules
