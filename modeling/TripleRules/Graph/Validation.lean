import TripleRules.Graph.Query
import TripleRules.Graph.Update
import TripleRules.Validity
import TripleRules.Vocabulary

/-!
# Validation

A graph is asked for the violations that its rules conclude.  Rules that only look for violations
wait for a triple that says that validation is on; it is asserted for as long as validation lasts.
-/

namespace TripleRules

namespace InferenceGraph

open Validity

def validationSwitch (fresh : Nat) : Triple :=
  ⟨.blank (.fresh fresh), .iri Vocabulary.validation, .compound "on" []⟩

def violations : Triple := ⟨.named "x", .iri Vocabulary.violation, .named "r"⟩

def faultEntry (f : Fault) : Entry :=
  { severity := .error, kind := "reasoning", description := f.report.text }

/-- What is wrong with the engines' own work. -/
def conditions (g : InferenceGraph) : List Entry :=
  let threshold : List Entry :=
    if g.schema.stats.thresholdExceeded || g.forward.stats.thresholdExceeded then
      [{ severity := .warning
         kind := "threshold"
         description := "forward chaining stopped after " ++ g.settings.ruleThreshold.repr
           ++ " rule firings; deductions may be incomplete" }]
    else []
  threshold ++ g.forward.rejected.map fun f =>
    { severity := .warning, kind := "rule", description := f.message }

def updateEntries : Except Fault Bool → List Entry
  | .error f => [faultEntry f]
  | .ok _ => []

def violationEntries : Except Fault (List Triple) → List Entry
  | .error f => [faultEntry f]
  | .ok found => found.map Entry.ofViolation

/-- Asks for violations while a triple is asserted. -/
def checkWith (g : InferenceGraph) (fuel : Nat) (switch : Triple) (fresh : Nat) :
    Option (Reply (List Entry)) := do
  let on ← g.add fuel switch fresh
  let found ← on.graph.query fuel violations on.fresh
  let off ← found.graph.delete fuel switch found.fresh
  return ⟨updateEntries on.value ++ violationEntries found.value ++ updateEntries off.value,
    off.graph, off.fresh⟩

def check (g : InferenceGraph) (fuel : Nat) (fresh : Nat) : Option (Reply (List Entry)) :=
  (g.query fuel violations fresh).map fun r => ⟨violationEntries r.value, r.graph, r.fresh⟩

/-- Looks for violations and for what the engines could not do. -/
def validate (g : InferenceGraph) (fuel : Nat) (fresh : Nat) : Option (Reply Report) :=
  if g.closed then
    let entry := { severity := .error, kind := "closed", description := Fault.graphClosed.message }
    some ⟨Report.empty.add entry, g, fresh⟩
  else
    let checked :=
      if g.base.usesPredicate (.iri Vocabulary.validation) then
        g.checkWith fuel (validationSwitch fresh) (fresh + 1)
      else g.check fuel fresh
    checked.map fun r =>
      ⟨Report.empty.addAll (r.value ++ r.graph.conditions), r.graph, r.fresh⟩

end InferenceGraph

end TripleRules
