import TripleRules.Forward.Engine

/-!
# Reasoners

Rules and settings, ready to be bound to data.  A schema that many data graphs share is closed under
the forward rules once.
-/

namespace TripleRules

/-- A schema with everything that forward rules say about it. -/
structure SchemaClosure where
  /-- The schema and its deductions. -/
  graph : Store
  /-- The backward rules that forward rules installed. -/
  installed : RuleSet
  stats : Forward.Stats
  log : DerivationLog
  deriving Inhabited

namespace SchemaClosure

/-- A schema on which no rules are run. -/
def plain (schema : Store) : SchemaClosure := ⟨schema, .empty, {}, .empty⟩

def empty : SchemaClosure := plain .empty

def ofEngine (schema : Store) (e : Forward.Engine) : SchemaClosure :=
  ⟨schema.insertAll e.deductions.triples, e.installed, e.stats, e.log⟩

end SchemaClosure

structure Reasoner where
  base : RuleBase
  settings : ReasoningSettings
  schema : SchemaClosure
  deriving Inhabited

namespace Reasoner

def build (known : Registry) (rules : List Rule) (settings : ReasoningSettings) :
    Except Fault Reasoner :=
  match settings.flaw? with
  | some (key, problem) => .error (.invalidSetting key problem)
  | none => (RuleBase.ofRules known rules).map fun base => ⟨base, settings, .empty⟩

def bindSchema (r : Reasoner) (fuel : Nat) (schema : Store) (fresh : Nat) :
    Option (Except Fault Reasoner × Nat) :=
  if r.settings.mode.runsForward then
    ((Forward.Engine.new r.base r.settings .empty).run fuel ⟨schema, .empty⟩ fresh).map fun o =>
      match o.fault with
      | some f => (.error f, o.fresh)
      | none => (.ok { r with schema := .ofEngine schema o.engine }, o.fresh)
  else some (.ok { r with schema := .plain schema }, fresh)

end Reasoner

end TripleRules
