import TripleRules.Index
import TripleRules.Rule.Checked

/-!
# Sets of backward rules

Rules in the order in which they came, none of them twice, filed by the predicate of their head.
Rules whose head predicate holds a variable are consulted for every goal.
-/

namespace TripleRules

structure RuleSet where
  rules : List CheckedRule
  byPredicate : Index CheckedRule
  /-- The rules that no predicate files. -/
  unfiled : List CheckedRule
  deriving Inhabited

namespace RuleSet

def empty : RuleSet := ⟨[], .empty, []⟩

def size (s : RuleSet) : Nat := s.rules.length

def contains (s : RuleSet) (r : Rule) : Bool := s.rules.any (·.rule = r)

/-- The ground predicate of the head of a rule, under which the rule is filed. -/
def filingKey? (r : CheckedRule) : Option Term :=
  match r.headPattern? with
  | some head => if head.predicate.isGround then some head.predicate else none
  | none => none

/-- Puts a rule into the set, unless an equal one is there. -/
def insert (s : RuleSet) (r : CheckedRule) : RuleSet :=
  if s.contains r.rule then s
  else
    match filingKey? r with
    | some key => { s with rules := s.rules ++ [r], byPredicate := s.byPredicate.add key r }
    | none => { s with rules := s.rules ++ [r], unfiled := s.unfiled ++ [r] }

def add (s : RuleSet) (r : CheckedRule) : Bool × RuleSet := (!s.contains r.rule, s.insert r)

/-- The rules to be tried on a goal: those filed under its predicate and then the unfiled ones, or
all of them if the predicate is not ground. -/
def candidates (s : RuleSet) (goal : Triple) : List CheckedRule :=
  if goal.predicate.isGround then s.byPredicate.get goal.predicate ++ s.unfiled else s.rules

def canProve (s : RuleSet) (goal : Triple) : Bool :=
  (s.candidates goal).any (·.headMatches goal)

end RuleSet

/-- The backward rules in force: those of the reasoner, if it uses them, and those installed by
forward rules. -/
structure RuleView where
  base : Option RuleSet
  installed : RuleSet
  deriving Inhabited

namespace RuleView

/-- The rules that can give an answer to a goal, those of the reasoner first. -/
def candidates (v : RuleView) (goal : Triple) : List CheckedRule :=
  (((v.base.map (·.candidates goal)).getD []) ++ v.installed.candidates goal).filter
    (·.headMatches goal)

/-- Whether goals like this are answered by proof and not by look-up alone. -/
def isTabled (v : RuleView) (goal : Triple) : Bool :=
  v.base.any (·.canProve goal) || v.installed.canProve goal

end RuleView

end TripleRules
