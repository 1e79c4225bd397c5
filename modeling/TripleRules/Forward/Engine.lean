import TripleRules.Derivation.Log
import TripleRules.Forward.Matching
import TripleRules.Iteration
import TripleRules.Rule.Base
import TripleRules.Settings.Basic

/-!
# The forward engine

Derives everything that forward rules say about the data.  Each triple, asserted or deduced, is put
on the agenda once; when its turn comes it is tried on every clause that it may match, and the rest
of the body is matched against all sources.  A conclusion that is new joins the deductions and the
agenda; a nested rule is installed for the backward engine.  A limit on firings ends it all for
good.
-/

namespace TripleRules.Forward

structure Stats where
  firings : Nat := 0
  deductions : Nat := 0
  rulesInstalled : Nat := 0
  thresholdExceeded : Bool := false
  deriving DecidableEq, Inhabited

structure Engine where
  base : RuleBase
  /-- How many times rules may fire; without limit if zero. -/
  threshold : Nat
  /-- Whether derivations are kept. -/
  record : Bool
  deductions : Store
  installed : RuleSet
  agenda : List Triple
  log : DerivationLog
  failures : List BuiltinFailure
  /-- Why nested rules could not be installed. -/
  rejected : List Fault
  stats : Stats
  deriving Inhabited

/-- The asserted triples and the schema, which the engine reads and does not change. -/
structure Data where
  raw : Store
  schema : Store
  deriving Inhabited

/-- Where chaining has come to: the engine, the number of the next fresh node, and the fault that
ended it if there is one. -/
structure Outcome where
  engine : Engine
  fresh : Nat
  fault : Option Fault

namespace Engine

def new (base : RuleBase) (settings : ReasoningSettings) (installed : RuleSet) : Engine where
  base := base
  threshold := settings.ruleThreshold
  record := settings.derivationLogging
  deductions := .empty
  installed := installed
  agenda := []
  log := .empty
  failures := []
  rejected := []
  stats := {}

def sources (e : Engine) (d : Data) : Sources := ⟨d.raw, d.schema, e.deductions⟩

/-- Whether the limit on firings has been reached. -/
def atThreshold (e : Engine) : Bool := 0 < e.threshold && e.threshold ≤ e.stats.firings

/-- Adds a conclusion to the deductions and to the agenda, unless it is known or not ground. -/
def deduce (e : Engine) (d : Data) (f : Firing) (t : Triple) : Engine :=
  if !t.isGround || (e.sources d).contains t then e
  else
    { e with
      log := if e.record then e.log.record ⟨f.rule.rule, t, f.premises⟩ else e.log
      deductions := e.deductions.insert t
      stats := { e.stats with deductions := e.stats.deductions + 1 }
      agenda := e.agenda ++ [t] }

def install (e : Engine) (r : Rule) (env : Bindings) : Engine :=
  match (r.specialize env).check e.base.known with
  | .error f => { e with rejected := e.rejected ++ [f] }
  | .ok r =>
    if e.installed.contains r.rule then e
    else
      { e with
        installed := e.installed.insert r
        stats := { e.stats with rulesInstalled := e.stats.rulesInstalled + 1 } }

def conclude (d : Data) (f : Firing) (e : Engine) : Conclusion → Engine
  | .pattern p => e.deduce d f (f.env.instantiate p)
  | .rule r => e.install r f.env

def fire (e : Engine) (d : Data) (f : Firing) : Engine :=
  f.rule.rule.head.foldl (conclude d f)
    { e with stats := { e.stats with firings := e.stats.firings + 1 } }

/-- Fires completed bodies in order.  At the limit it stops with an empty agenda and says so. -/
def fireAll (d : Data) : List Firing → Engine → Engine × Bool
  | [], e => (e, true)
  | f :: fs, e =>
    if e.atThreshold then
      ({ e with stats := { e.stats with thresholdExceeded := true }, agenda := [] }, false)
    else fireAll d fs (e.fire d f)

/-- Completes a body in every way and fires what was completed.  Says whether chaining may go on. -/
def matchAndFire (e : Engine) (d : Data) (rule : CheckedRule) (rest : List Premise)
    (env : Bindings) (premises : List Triple) (fresh : Nat) : Outcome × Bool :=
  let m := complete (e.sources d) rule e.record rest env premises (.start fresh)
  let e := { e with failures := e.failures ++ m.failures }
  match m.fault with
  | some f => (⟨e, m.fresh, some f⟩, false)
  | none =>
    let (e, goOn) := fireAll d m.firings e
    (⟨e, m.fresh, none⟩, goOn)

def fireUnconditional (d : Data) : List CheckedRule → Engine → Nat → Outcome
  | [], e, fresh => ⟨e, fresh, none⟩
  | r :: rs, e, fresh =>
    match e.matchAndFire d r r.body (.empty r.slots) [] fresh with
    | (o, true) => fireUnconditional d rs o.engine o.fresh
    | (o, false) => o

def tryTriggers (d : Data) (t : Triple) : List Trigger → Engine → Nat → Outcome
  | [], e, fresh => ⟨e, fresh, none⟩
  | tr :: trs, e, fresh =>
    match (Bindings.empty tr.rule.slots).match? tr.pattern t with
    | none => tryTriggers d t trs e fresh
    | some env =>
      match e.matchAndFire d tr.rule tr.rest env (if e.record then [t] else []) fresh with
      | (o, true) => tryTriggers d t trs o.engine o.fresh
      | (o, false) => o

def drainStep (d : Data) : Engine × Nat → Progress (Engine × Nat) Outcome
  | (e, fresh) =>
    match e.agenda with
    | [] => .done ⟨e, fresh, none⟩
    | t :: rest =>
      if e.stats.thresholdExceeded then .done ⟨{ e with agenda := [] }, fresh, none⟩
      else
        let o := tryTriggers d t (e.base.triggersFor t.predicate) { e with agenda := rest } fresh
        if o.fault.isSome then .done o else .next (o.engine, o.fresh)

def drain (e : Engine) (fuel : Nat) (d : Data) (fresh : Nat) : Option Outcome :=
  iterate (drainStep d) fuel (e, fresh)

/-- The first pass: rules without pattern clauses fire, and then every asserted triple goes on the
agenda.  The schema is read and not pushed, since it is expected to be closed. -/
def run (e : Engine) (fuel : Nat) (d : Data) (fresh : Nat) : Option Outcome :=
  let o := fireUnconditional d e.base.unconditional e fresh
  if o.fault.isSome then some o
  else { o.engine with agenda := o.engine.agenda ++ d.raw.triples }.drain fuel d o.fresh

/-- Chains from an asserted triple.  There is nothing to do if it was deduced before. -/
def addTriple (e : Engine) (fuel : Nat) (d : Data) (t : Triple) (fresh : Nat) : Option Outcome :=
  if e.deductions.contains t then some ⟨e, fresh, none⟩
  else { e with agenda := e.agenda ++ [t] }.drain fuel d fresh

end Engine

end TripleRules.Forward
