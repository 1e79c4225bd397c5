import TripleRules.Builtin.Standard
import TripleRules.Proofs.Rule.Checked

/-!
# Rules that break off

Rules over the same triples.  One calls a builtin that ends the reasoning at the sight of one
particular term, and can be run in both directions.  The others make no calls: one is run backward,
and one is run forward and concludes a triple and a rule.
-/

namespace TripleRules

/-- Ends the reasoning if its arguments are the same, and holds if they are not. -/
def haltOn : Builtin :=
  .ofFun "haltOn" (.exactly 2) fun args =>
    if args[0]? = args[1]? then .error (.fatal "halt called") else .ok (.holds [])

def Registry.halting : Registry := Registry.standard.register haltOn

def getRule : Rule :=
  .make
    [.pattern ⟨.named "x", .iri "sends", .named "y"⟩, .call "haltOn" [.named "y", .iri "bad"]]
    [.pattern ⟨.named "x", .iri "gets", .named "y"⟩] .both

def mailRule : Rule :=
  .make [.pattern ⟨.named "x", .iri "sends", .named "y"⟩]
    [.pattern ⟨.named "x", .iri "mails", .named "y"⟩] .backward

def writeRule : Rule :=
  .make [.pattern ⟨.named "x", .iri "sends", .named "y"⟩]
    [.pattern ⟨.named "x", .iri "wrote", .named "y"⟩,
      .rule (.make [.pattern ⟨.named "z", .iri "sends", .named "y"⟩]
        [.pattern ⟨.named "x", .iri "hears", .named "z"⟩] .backward)] .forward

namespace CheckedRule

def get : CheckedRule :=
  ⟨getRule,
    [.pattern ⟨.var ⟨"x", 0⟩, .iri "sends", .var ⟨"y", 1⟩⟩,
      .call haltOn [.var ⟨"y", 1⟩, .iri "bad"]]⟩

def mail : CheckedRule :=
  ⟨mailRule, [.pattern ⟨.var ⟨"x", 0⟩, .iri "sends", .var ⟨"y", 1⟩⟩]⟩

def write : CheckedRule :=
  ⟨writeRule, [.pattern ⟨.var ⟨"x", 0⟩, .iri "sends", .var ⟨"y", 1⟩⟩]⟩

theorem check_getRule : getRule.check .halting = .ok get := by rfl

theorem isChecked_get : get.IsChecked := ⟨_, _, ⟨_, _, _, none, rfl⟩, check_getRule⟩

end CheckedRule

end TripleRules
