import TripleRules.Rule.Set

/-!
# Rule bases

All rules of a reasoner, checked and filed for both engines.  For the forward engine each pattern
clause of each forward rule is a trigger, filed by its predicate.
-/

namespace TripleRules

/-- A pattern clause of a forward rule as a way into the rule. -/
structure Trigger where
  /-- The places of the rule among the forward rules and of the clause in the body. -/
  ruleIndex : Nat
  clauseIndex : Nat
  rule : CheckedRule
  pattern : Triple
  /-- The other clauses of the body. -/
  rest : List Premise
  deriving Inhabited

def CheckedRule.triggers (r : CheckedRule) (ruleIndex : Nat) : List Trigger :=
  r.body.zipIdx.filterMap fun
    | (.pattern t, i) => some ⟨ruleIndex, i, r, t, r.body.eraseIdx i⟩
    | (.call .., _) => none

structure RuleBase where
  /-- The rules as they were given. -/
  rules : List Rule
  forward : List CheckedRule
  triggers : Index Trigger
  /-- The triggers whose predicate holds a variable. -/
  openTriggers : List Trigger
  backward : RuleSet
  known : Registry
  deriving Inhabited

namespace RuleBase

def empty (known : Registry) : RuleBase := ⟨[], [], .empty, [], .empty, known⟩

def addTrigger (b : RuleBase) (t : Trigger) : RuleBase :=
  if t.pattern.predicate.isGround then
    { b with triggers := b.triggers.add t.pattern.predicate t }
  else { b with openTriggers := b.openTriggers ++ [t] }

def addForward (b : RuleBase) (r : CheckedRule) : RuleBase :=
  let filed := (r.triggers b.forward.length).foldl addTrigger b
  { filed with forward := filed.forward ++ [r] }

def add (b : RuleBase) (r : CheckedRule) : RuleBase :=
  let b := if r.rule.direction.isForward then b.addForward r else b
  let b := if r.rule.direction.isBackward then { b with backward := b.backward.insert r } else b
  { b with rules := b.rules ++ [r.rule] }

def ofRules (known : Registry) (rules : List Rule) : Except Fault RuleBase :=
  rules.foldlM (fun b r => (r.check known).map b.add) (empty known)

def unconditional (b : RuleBase) : List CheckedRule := b.forward.filter (·.rule.isAxiom)

/-- The triggers that a triple with the given predicate may set off. -/
def triggersFor (b : RuleBase) (predicate : Term) : List Trigger :=
  b.triggers.get predicate ++ b.openTriggers

/-- Whether some body has a pattern with this very predicate. -/
def usesPredicate (b : RuleBase) (predicate : Term) : Bool :=
  b.triggers.contains predicate
    || b.backward.rules.any fun r => r.body.any fun
      | .pattern t => t.predicate = predicate
      | .call .. => false

end RuleBase

end TripleRules
