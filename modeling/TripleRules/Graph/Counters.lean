import TripleRules.Graph.Basic
import TripleRules.Text.Json

/-!
# Counters as documents

What has been counted, written as a document with a key for each counter.
-/

namespace TripleRules

open Text (Json)

def Forward.Stats.json (s : Stats) : Json :=
  .object [("firings", .natural s.firings), ("deductions", .natural s.deductions),
    ("rules_installed", .natural s.rulesInstalled),
    ("threshold_exceeded", .boolean s.thresholdExceeded)]

def Tabling.Stats.json (s : Stats) : Json :=
  .object [("generators_created", .natural s.generatorsCreated),
    ("generators_completed", .natural s.generatorsCompleted),
    ("frames_created", .natural s.framesCreated), ("answers", .natural s.answers),
    ("cache_hits", .natural s.cacheHits),
    ("completion_cascades", .natural s.completionCascades)]

def GraphStats.json (s : GraphStats) : Json :=
  .object [("raw", .natural s.raw), ("schema", .natural s.schema),
    ("deductions", .natural s.deductions), ("tabled_goals", .natural s.tabledGoals),
    ("schema_forward", s.schemaForward.json), ("forward", s.forward.json),
    ("backward", s.backward.json)]

end TripleRules
