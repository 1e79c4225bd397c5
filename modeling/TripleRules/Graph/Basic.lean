import TripleRules.Derivation.Tree
import TripleRules.Reasoner
import TripleRules.Tabling.Engine

/-!
# Inference graphs

A data graph with what follows from it: the deductions of the forward engine, and tables for the
goals that have been asked.
-/

namespace TripleRules

structure InferenceGraph where
  base : RuleBase
  settings : ReasoningSettings
  schema : SchemaClosure
  raw : Store
  forward : Forward.Engine
  tables : Tabling.Tables
  /-- Whether the graph has been given up. -/
  closed : Bool
  deriving Inhabited

/-- What an operation on a graph gives, with the graph and the number of the next fresh node after
it. -/
structure Reply (α : Type) where
  value : α
  graph : InferenceGraph
  fresh : Nat

structure GraphStats where
  raw : Nat
  schema : Nat
  deductions : Nat
  tabledGoals : Nat
  schemaForward : Forward.Stats
  forward : Forward.Stats
  backward : Tabling.Stats
  deriving DecidableEq, Inhabited

namespace InferenceGraph

def data (g : InferenceGraph) : Forward.Data := ⟨g.raw, g.schema.graph⟩

def sources (g : InferenceGraph) : Sources := ⟨g.raw, g.schema.graph, g.forward.deductions⟩

def rules (g : InferenceGraph) : RuleView where
  base := if g.settings.mode.runsBackward then some g.base.backward else none
  installed := g.forward.installed

def context (g : InferenceGraph) : Tabling.Context := ⟨g.sources, g.rules⟩

def reset (g : InferenceGraph) : InferenceGraph := { g with tables := g.tables.reset }

/-- Forgets every goal for good: queries and updates fail from here on. -/
def close (g : InferenceGraph) : InferenceGraph := { g.reset with closed := true }

/-- What is recorded on how a triple was derived, schema first and proofs last. -/
def derivations (g : InferenceGraph) (t : Triple) : List Derivation :=
  g.schema.log.get t ++ g.forward.log.get t ++ g.tables.log.get t

def explain (g : InferenceGraph) (t : Triple) : String :=
  (DerivationTree.build g.derivations DerivationTree.defaultDepth t).text

def failures (g : InferenceGraph) : List BuiltinFailure := g.forward.failures ++ g.tables.failures

def stats (g : InferenceGraph) : GraphStats where
  raw := g.raw.size
  schema := g.schema.graph.size
  deductions := g.forward.deductions.size
  tabledGoals := g.tables.size
  schemaForward := g.schema.stats
  forward := g.forward.stats
  backward := g.tables.stats

end InferenceGraph

end TripleRules
