import TripleRules.Rule.Call
import TripleRules.Store.Sources

/-!
# Matching bodies

Every way to complete a body from given bindings, clause by clause from left to right.  Patterns are
matched against the sources as they stand when the matching begins.
-/

namespace TripleRules.Forward

/-- A completed body: the bindings of the rule and the triples that its patterns matched. -/
structure Firing where
  rule : CheckedRule
  env : Bindings
  premises : List Triple
  deriving Inhabited

/-- What matching has come to so far: completed bodies, calls that failed with an error, the number
of the next fresh node, and the fault that ended the matching if there is one. -/
structure Matching where
  firings : List Firing
  failures : List BuiltinFailure
  fresh : Nat
  fault : Option Fault

def Matching.start (fresh : Nat) : Matching := ⟨[], [], fresh, none⟩

/-- Completes the rest of a body in every way.  Premises are kept only if `record` is set. -/
def complete (sources : Sources) (rule : CheckedRule) (record : Bool) :
    (rest : List Premise) → Bindings → List Triple → Matching → Matching
  | [], env, premises, m => { m with firings := m.firings ++ [⟨rule, env, premises⟩] }
  | .pattern p :: rest, env, premises, m =>
    (sources.find (env.instantiate p)).foldl (fun m t =>
      if m.fault.isSome then m
      else
        match env.match? p t with
        | none => m
        | some env' =>
          complete sources rule record rest env' (if record then premises ++ [t] else premises) m)
      m
  | .call b args :: rest, env, premises, m =>
    match rule.call b args env m.fresh with
    | (.holds env', fresh) =>
      complete sources rule record rest env' premises { m with fresh := fresh }
    | (.fails, fresh) => { m with fresh := fresh }
    | (.noted f, fresh) => { m with fresh := fresh, failures := m.failures ++ [f] }
    | (.fault f, fresh) => { m with fresh := fresh, fault := some f }

end TripleRules.Forward
