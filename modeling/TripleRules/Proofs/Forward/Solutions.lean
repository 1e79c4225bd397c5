import TripleRules.Proofs.Forward.Deeds
import TripleRules.Proofs.Forward.Matching
import TripleRules.Proofs.Tabling.Confluence

/-!
# Solutions

Most calls depend on their arguments only and mint nothing.  Clauses that make no other calls have
the same solutions whatever has been minted before, and matching goes through them in order: what
comes behind such clauses is completed from each of their solutions in turn.
-/

namespace TripleRules

namespace Builtin

structure IsFunctional (b : Builtin) : Prop extends b.IsPure where
  mints_nothing : ∀ args fresh, (b.run args fresh).2 = fresh

theorem IsUsual.isFunctional {b : Builtin} (h : b.IsUsual) : b.IsFunctional := by
  obtain ⟨f, hrun, -⟩ := id h
  exact ⟨h.isPure, fun args fresh => by rw [hrun]⟩

theorem rule_call_fresh (b : Builtin) (r : CheckedRule) (args : List Term) (env : Bindings)
    (fresh : Nat) : (r.call b args env fresh).2 = (b.run (args.map env.resolve) fresh).2 := by
  rw [r.call_eq]

end Builtin

namespace Forward

/-- The bindings to which clauses carry given ones, in order, when nothing has been minted yet. -/
def solutions (sources : Sources) (r : CheckedRule) : List Premise → Bindings → List Bindings
  | [], env => [env]
  | .pattern p :: rest, env =>
    (sources.find (env.instantiate p)).flatMap fun t =>
      match env.match? p t with
      | none => []
      | some env' => solutions sources r rest env'
  | .call b args :: rest, env =>
    match (r.call b args env 0).1 with
    | .holds env' => solutions sources r rest env'
    | _ => []

def FunctionalCalls (rest : List Premise) : Prop :=
  ∀ b args, .call b args ∈ rest → b.IsFunctional

theorem FunctionalCalls.tail {c : Premise} {rest : List Premise}
    (h : FunctionalCalls (c :: rest)) : FunctionalCalls rest := fun b args hcall =>
  h b args (List.mem_cons_of_mem _ hcall)

variable {sources : Sources} {r : CheckedRule} {record : Bool} {rest before : List Premise}
  {env : Bindings} {envs envs' : List Bindings} {premises : List Triple} {m m' m'' : Matching}

theorem complete_fault_eq_none (hcalls : ∀ b args, .call b args ∈ rest → b.NeverFatal)
    (hm : m.fault = none) : (complete sources r record rest env premises m).fault = none := by
  by_contra hfault
  obtain ⟨f, hf⟩ := Option.ne_none_iff_exists'.mp hfault
  rcases exists_call_of_fault hf with hold | ⟨b, args, env', n, hmem, hcall⟩
  · rw [hm] at hold
    cases hold
  · exact (hcalls b args hmem).rule_call_ne_fault _ _ _ _ _ hcall

theorem Engine.matching_fault_eq_none (e : Engine) (d : Data) {c : Tabling.Cursor}
    (hcalls : ∀ f args, .call f args ∈ c.rest → f.NeverFatal) (fresh : Nat) :
    (e.matching d c fresh).fault = none :=
  complete_fault_eq_none hcalls rfl

theorem complete_functional_call {b : Builtin} {args : List Term} (hb : b.IsFunctional) :
    (∃ env', (r.call b args env 0).1 = .holds env' ∧
      complete sources r record (.call b args :: rest) env premises m =
        complete sources r record rest env' premises m) ∨
    (∀ env', (r.call b args env 0).1 ≠ .holds env') ∧ ∃ failures,
      complete sources r record (.call b args :: rest) env premises m =
        { m with failures := failures } := by
  have hsame := hb.toIsPure.isDeterministic.rule_call_steady r args env m.fresh 0
  have hfresh : (r.call b args env m.fresh).2 = m.fresh :=
    (b.rule_call_fresh r args env m.fresh).trans (hb.mints_nothing _ _)
  have hfault := hb.toIsPure.neverFatal.rule_call_ne_fault r args env m.fresh
  rw [← hsame, complete]
  rcases hcall : r.call b args env m.fresh with ⟨result, fresh⟩
  rw [hcall] at hfresh hfault
  obtain rfl : fresh = m.fresh := hfresh
  cases result with
  | holds env' => exact .inl ⟨env', rfl, rfl⟩
  | fails => exact .inr ⟨fun _ => CallResult.noConfusion, m.failures, rfl⟩
  | noted f => exact .inr ⟨fun _ => CallResult.noConfusion, m.failures ++ [f], rfl⟩
  | fault f => exact absurd rfl (hfault f)

inductive Resumes (sources : Sources) (r : CheckedRule) (record : Bool) (rest : List Premise)
    (m : Matching) : List Bindings → Matching → Prop where
  | start : Resumes sources r record rest m [] m
  | note {envs : List Bindings} {m' : Matching} (h : Resumes sources r record rest m envs m')
      (failures : List BuiltinFailure) :
      Resumes sources r record rest m envs { m' with failures := failures }
  | resume {envs : List Bindings} {m' : Matching} (h : Resumes sources r record rest m envs m')
      (env : Bindings) (premises : List Triple) :
      Resumes sources r record rest m (envs ++ [env])
        (complete sources r record rest env premises m')

namespace Resumes

theorem trans (h : Resumes sources r record rest m envs m')
    (h' : Resumes sources r record rest m' envs' m'') :
    Resumes sources r record rest m (envs ++ envs') m'' := by
  induction h' with
  | start => rwa [List.append_nil]
  | note _ failures ih => exact ih.note failures
  | resume _ env premises ih =>
      rw [← List.append_assoc]
      exact ih.resume env premises

theorem fault_eq_none (h : Resumes sources r record rest m envs m')
    (hrest : ∀ b args, .call b args ∈ rest → b.NeverFatal) (hm : m.fault = none) :
    m'.fault = none := by
  induction h with
  | start => exact hm
  | note _ _ ih => exact ih
  | resume _ _ _ ih => exact complete_fault_eq_none hrest ih

theorem foldl {step : Matching → Triple → Matching} {envs : Triple → List Bindings}
    {ts : List Triple} (hrest : ∀ b args, .call b args ∈ rest → b.NeverFatal)
    (hstep : ∀ (m : Matching) t, m.fault = none →
      Resumes sources r record rest m (envs t) (step m t)) (hm : m.fault = none) :
    Resumes sources r record rest m (ts.flatMap envs) (ts.foldl step m) := by
  induction ts generalizing m with
  | nil => exact .start
  | cons t ts ih =>
      have ht := hstep m t hm
      rw [List.flatMap_cons, List.foldl_cons]
      exact ht.trans (ih (ht.fault_eq_none hrest hm))

end Resumes

/-- Behind clauses that mint nothing the rest of a body is completed from each of their solutions
in turn. -/
theorem complete_resumes (hbefore : FunctionalCalls before)
    (hrest : ∀ b args, .call b args ∈ rest → b.NeverFatal) (hm : m.fault = none) :
    Resumes sources r record rest m (solutions sources r before env)
      (complete sources r record (before ++ rest) env premises m) := by
  induction before generalizing env premises m with
  | nil => exact Resumes.start.resume env premises
  | cons c before ih =>
      rw [List.cons_append, solutions.eq_def]
      cases c with
      | pattern p =>
          rw [complete_pattern]
          refine Resumes.foldl hrest (fun m t hm => ?_) hm
          rw [visit, hm, Option.isSome_none, if_neg Bool.false_ne_true]
          cases env.match? p t with
          | none => exact .start
          | some env' => exact ih hbefore.tail hm
      | call b args =>
          dsimp only
          rcases complete_functional_call (hbefore b args List.mem_cons_self) with
            ⟨env', hcall, heq⟩ | ⟨hnot, failures, heq⟩
          · rw [heq, hcall]
            exact ih hbefore.tail hm
          · rw [heq]
            cases hcall : (r.call b args env 0).1 with
            | holds env' => exact absurd hcall (hnot env')
            | fails | noted | fault => exact Resumes.start.note failures

theorem Resumes.completed (h : Resumes sources r record [] m envs m') : m'.fresh = m.fresh ∧
    m'.firings.map Firing.env = m.firings.map Firing.env ++ envs := by
  induction h with
  | start => exact ⟨rfl, (List.append_nil _).symm⟩
  | note _ _ ih => exact ih
  | resume _ env premises ih =>
      refine ⟨ih.1, ?_⟩
      rw [complete, List.map_append, ih.2, List.append_assoc]
      rfl

/-- Clauses that mint nothing are completed with their solutions, in order. -/
theorem complete_solutions (hrest : FunctionalCalls rest) (hm : m.fault = none) :
    (complete sources r record rest env premises m).fresh = m.fresh ∧
      (complete sources r record rest env premises m).firings.map Firing.env =
        m.firings.map Firing.env ++ solutions sources r rest env := by
  have hresumes : Resumes sources r record [] m (solutions sources r rest env)
      (complete sources r record (rest ++ []) env premises m) :=
    complete_resumes hrest (fun _ _ h => absurd h List.not_mem_nil) hm
  rw [List.append_nil] at hresumes
  exact hresumes.completed

end Forward

end TripleRules
