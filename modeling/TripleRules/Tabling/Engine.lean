import TripleRules.Iteration
import TripleRules.Tabling.Completion

/-!
# The backward engine

Generators take turns.  In its turn a search opens its choices depth first: it offers the triples at
hand, starts rules, goes on with suspended ones and stops at clauses that other goals answer.  The
turn ends when enough new answers have been found or when only suspended rules are left.
-/

namespace TripleRules.Tabling

/-- The turn of a generator: how many answers it had before, and how many it has found since. -/
structure Turn where
  id : GeneratorId
  before : Nat
  produced : Nat
  deriving Inhabited

/-- The tables between two steps, with the number of the next fresh node and the turn that is being
taken, if one is. -/
structure Machine where
  tables : Tables
  fresh : Nat
  turn : Option Turn
  deriving Inhabited

structure Outcome where
  tables : Tables
  fresh : Nat
  fault : Option Fault

/-- What a rule comes to: an answer, no more than what it left in the tables, or a fault. -/
inductive Proceeding where
  | answer (t : Triple) (d : Option Derivation)
  | nothing
  | fault (f : Fault)

/-- Takes a rule of a goal on until it gives an answer, fails, or needs triples.  Triples that no
rule proves are left as a choice; for all others the rule is suspended on the goal that answers. -/
def proceed (ctx : Context) (id : GeneratorId) (goal : Triple) (rule : CheckedRule) :
    (rest : List Premise) → Bindings → List Triple → Tables → Nat → Proceeding × Tables × Nat
  | [], env, premises, t, fresh =>
    match rule.headPattern? with
    | none => (.nothing, t, fresh)
    | some head =>
      let answer := env.instantiate head
      if answer.isGround && goal.matches? answer then
        (.answer answer (if t.record then some ⟨rule.rule, answer, premises⟩ else none), t, fresh)
      else (.nothing, t, fresh)
  | .call b args :: rest, env, premises, t, fresh =>
    match rule.call b args env fresh with
    | (.holds env', fresh) => proceed ctx id goal rule rest env' premises t fresh
    | (.fails, fresh) => (.nothing, t, fresh)
    | (.noted f, fresh) => (.nothing, { t with failures := t.failures ++ [f] }, fresh)
    | (.fault f, fresh) => (.fault f, t, fresh)
  | .pattern p :: rest, env, premises, t, fresh =>
    let subgoal := env.instantiate p
    let s : Suspension := ⟨rule, env, p, rest, premises⟩
    if ctx.rules.isTabled subgoal then
      let (target, t) := t.generatorFor ctx subgoal
      let (frame, ready, t) := t.addFrame target id s
      if ready then
        (.nothing, t.modifySearch id fun s => { s with ready := s.ready ++ [frame] }, fresh)
      else (.nothing, t, fresh)
    else
      let choice := ChoicePoint.data s (ctx.sources.find subgoal)
      (.nothing, t.modifySearch id fun s => { s with stack := choice :: s.stack }, fresh)

inductive Opening where
  /-- A choice without ways left. -/
  | exhausted
  /-- A way that leads nowhere. -/
  | unfit
  | fact (t : Triple)
  | resumed (c : Cursor)

namespace Tables

def replaceTop (t : Tables) (id : GeneratorId) (c : ChoicePoint) : Tables :=
  t.modifySearch id fun s => { s with stack := c :: s.stack.tail }

def openChoice (t : Tables) (id : GeneratorId) (goal : Triple) : ChoicePoint → Opening × Tables
  | .alternatives (fact :: facts) rules =>
    (.fact fact, t.replaceTop id (.alternatives facts rules))
  | .alternatives [] (rule :: rules) =>
    let t := t.replaceTop id (.alternatives [] rules)
    match rule.start? goal with
    | some env => (.resumed ⟨rule, env, rule.body, []⟩, t)
    | none => (.unfit, t)
  | .alternatives [] [] => (.exhausted, t)
  | .data s (triple :: left) =>
    let t := t.replaceTop id (.data s left)
    match s.resume? triple t.record with
    | some c => (.resumed c, t)
    | none => (.unfit, t)
  | .data _ [] => (.exhausted, t)
  | .consume frame =>
    match t.readAnswer frame with
    | (.nothing, t) => (.exhausted, t)
    | (.unfit, t) => (.unfit, t)
    | (.resumed c, t) => (.resumed c, t)

/-- Ends a turn in which the search is left with more to do: readers of the answers are woken. -/
def yieldTurn (t : Tables) (turn : Turn) : Tables :=
  (t.enqueue turn.id).notifyReaders turn.id turn.before

/-- Ends a turn in which the search came to wait for other goals. -/
def blockTurn (t : Tables) (turn : Turn) : Tables :=
  (t.modifySearch turn.id ({ · with blocked := true })).notifyReaders turn.id turn.before

def finishTurn (t : Tables) (turn : Turn) : Tables :=
  (t.notifyReaders turn.id turn.before).complete turn.id

end Tables

namespace Machine

def offer (m : Machine) (turn : Turn) (answer : Triple) (d : Option Derivation) : Machine :=
  match m.tables.addResult turn.id answer d with
  | (true, t) => { m with tables := t, turn := some { turn with produced := turn.produced + 1 } }
  | (false, t) => { m with tables := t, turn := some turn }

def follow (ctx : Context) (m : Machine) (turn : Turn) (goal : Triple) (c : Cursor) :
    Progress Machine Outcome :=
  match proceed ctx turn.id goal c.rule c.rest c.env c.premises m.tables m.fresh with
  | (.answer answer d, t, fresh) => .next (offer ⟨t, fresh, some turn⟩ turn answer d)
  | (.nothing, t, fresh) => .next ⟨t, fresh, some turn⟩
  | (.fault f, t, fresh) => .done ⟨t, fresh, some f⟩

/-- One step of a turn, in which at most `limit` answers may be found. -/
def turnStep (ctx : Context) (limit : Nat) (m : Machine) (turn : Turn) (goal : Triple)
    (s : Search) : Progress Machine Outcome :=
  if limit ≤ turn.produced then .next ⟨m.tables.yieldTurn turn, m.fresh, none⟩
  else
    match s.stack, s.ready with
    | [], frame :: ready =>
      let t := m.tables.modifySearch turn.id fun s =>
        { s with stack := [.consume frame], ready := ready }
      .next { m with tables := t }
    | [], [] =>
      if m.tables.hasLiveFrames turn.id then
        .next ⟨m.tables.blockTurn turn, m.fresh, none⟩
      else .next ⟨m.tables.finishTurn turn, m.fresh, none⟩
    | choice :: rest, _ =>
      match m.tables.openChoice turn.id goal choice with
      | (.exhausted, t) =>
        .next { m with tables := t.modifySearch turn.id fun s => { s with stack := rest } }
      | (.unfit, t) => .next { m with tables := t }
      | (.fact fact, t) => .next (offer { m with tables := t } turn fact none)
      | (.resumed c, t) => follow ctx { m with tables := t } turn goal c

/-- One step towards more than `start` answers for `target`, or its completion: a step of the turn
that is being taken, the beginning of the next turn, or a look for completed goals. -/
def step (ctx : Context) (limit start : Nat) (target : GeneratorId) (m : Machine) :
    Progress Machine Outcome :=
  match m.turn with
  | some turn =>
    let g := m.tables.generator turn.id
    match g.search with
    | some s => turnStep ctx limit m turn g.goal s
    | none => .next { m with turn := none }
  | none =>
    let g := m.tables.generator target
    if g.isComplete || start < g.results.size then .done ⟨m.tables, m.fresh, none⟩
    else
      match m.tables.agenda with
      | id :: agenda =>
        let t := { m.tables with agenda := agenda }.modifyGenerator id ({ · with queued := false })
        .next ⟨t, m.fresh, some ⟨id, (t.generator id).results.size, 0⟩⟩
      | [] => .next { m with tables := m.tables.checkCompletion target }

end Machine

/-- Lets generators take turns until the target has a new answer or all its answers.  A turn ends
once it has brought `limit` answers. -/
def Tables.pump (t : Tables) (fuel : Nat) (ctx : Context) (target : GeneratorId) (limit : Nat)
    (fresh : Nat) : Option Outcome :=
  let g := t.generator target
  let t := if g.state = .ready then t.enqueue target else t
  iterate (Machine.step ctx (max limit 1) g.results.size target) fuel ⟨t, fresh, none⟩

def Tables.solveStep (fuel : Nat) (ctx : Context) (target : GeneratorId) (limit : Nat) :
    Tables × Nat → Progress (Tables × Nat) (Option Outcome)
  | (t, fresh) =>
    if (t.generator target).isComplete then .done (some ⟨t, fresh, none⟩)
    else
      match t.pump fuel ctx target limit fresh with
      | none => .done none
      | some o => if o.fault.isSome then .done (some o) else .next (o.tables, o.fresh)

def Tables.solve (t : Tables) (fuel : Nat) (ctx : Context) (target : GeneratorId) (limit : Nat)
    (fresh : Nat) : Option Outcome :=
  (iterate (solveStep fuel ctx target limit) fuel (t, fresh)).join

end TripleRules.Tabling
