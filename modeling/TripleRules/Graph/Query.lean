import TripleRules.Graph.Basic

/-!
# Queries

The answers to a pattern come one by one.  A pattern that no rule can prove is looked up; for any
other the tables are pumped whenever an answer is asked for that has not been found yet.
-/

namespace TripleRules

/-- Where the reading of answers has come to. -/
inductive Answers where
  /-- Answers that are at hand. -/
  | direct (left : List Triple)
  /-- The answers of a goal, from a place on. -/
  | tabled (id : Tabling.GeneratorId) (next : Nat)
  | failed (f : Fault)
  | ended
  deriving Inhabited

inductive Item where
  | answer (t : Triple)
  | fault (f : Fault)
  | finished
  deriving DecidableEq, Inhabited

namespace Item

def answer? : Item → Except Fault (Option Triple)
  | answer t => .ok (some t)
  | fault f => .error f
  | finished => .ok none

end Item

namespace InferenceGraph

def find (g : InferenceGraph) (pattern : Triple) : Answers × InferenceGraph :=
  if g.closed then (.failed .graphClosed, g)
  else if g.rules.isTabled pattern then
    let (id, tables) := g.tables.generatorFor g.context pattern
    (.tabled id 0, { g with tables := tables })
  else (.direct (g.sources.find pattern), g)

def readTabled (g : InferenceGraph) (id : Tabling.GeneratorId) (next : Nat) : Item × Answers :=
  match (g.tables.generator id).results[next]? with
  | some t => (.answer t, .tabled id (next + 1))
  | none => (.finished, .tabled id next)

/-- Reads the next answer.  A fault ends the reading, and the goals are forgotten. -/
def next (g : InferenceGraph) (fuel : Nat) (a : Answers) (fresh : Nat) :
    Option (Reply (Item × Answers)) :=
  match a with
  | .direct (t :: ts) => some ⟨(.answer t, .direct ts), g, fresh⟩
  | .direct [] => some ⟨(.finished, .direct []), g, fresh⟩
  | .failed f => some ⟨(.fault f, .ended), g, fresh⟩
  | .ended => some ⟨(.finished, .ended), g, fresh⟩
  | .tabled id next =>
    let source := g.tables.generator id
    if next < source.results.size || source.isComplete then
      some ⟨g.readTabled id next, g, fresh⟩
    else
      (g.tables.pump fuel g.context id g.settings.pumpBatch fresh).map fun o =>
        let g := { g with tables := o.tables }
        match o.fault with
        | some f => ⟨(.fault f, .ended), g.reset, o.fresh⟩
        | none => ⟨g.readTabled id next, g, o.fresh⟩

structure Reading where
  found : List Triple
  answers : Answers
  graph : InferenceGraph
  fresh : Nat

/-- Reads one more answer; it is all over after the last one, a fault, or the end of the fuel. -/
def readStep (fuel : Nat) (r : Reading) :
    Progress Reading (Option (Reply (Except Fault (List Triple)))) :=
  match r.graph.next fuel r.answers r.fresh with
  | none => .done none
  | some ⟨(.answer t, answers), g, fresh⟩ => .next ⟨r.found ++ [t], answers, g, fresh⟩
  | some ⟨(.fault f, _), g, fresh⟩ => .done (some ⟨.error f, g, fresh⟩)
  | some ⟨(.finished, _), g, fresh⟩ => .done (some ⟨.ok r.found, g, fresh⟩)

def query (g : InferenceGraph) (fuel : Nat) (pattern : Triple) (fresh : Nat) :
    Option (Reply (Except Fault (List Triple))) :=
  let (answers, g) := g.find pattern
  (iterate (readStep fuel) fuel ⟨[], answers, g, fresh⟩).join

/-- Whether a triple holds: reading its answers brings one. -/
def contains (g : InferenceGraph) (fuel : Nat) (t : Triple) (fresh : Nat) :
    Option (Reply (Except Fault Bool)) :=
  let (answers, g) := g.find t
  (g.next fuel answers fresh).map fun r => ⟨r.value.1.answer?.map (·.isSome), r.graph, r.fresh⟩

end InferenceGraph

end TripleRules
