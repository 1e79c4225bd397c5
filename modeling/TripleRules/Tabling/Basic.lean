import TripleRules.Derivation.Log
import TripleRules.Rule.Call
import TripleRules.Rule.Set
import TripleRules.Settings.Basic
import TripleRules.Store.Sources

/-!
# Tables

Each goal that rules can prove has a generator, which holds the answers found so far and the search
for more.  A rule that needs the answers of another goal is suspended in a frame; the frame reads
them one by one as they come.  Generators and frames are known by their places in the tables.
-/

namespace TripleRules.Tabling

/-- What proofs are made from: the triples at hand and the rules in force. -/
structure Context where
  sources : Sources
  rules : RuleView
  deriving Inhabited

abbrev GeneratorId := Nat
abbrev FrameId := Nat

/-- A rule in progress: its bindings, the clauses still to come and the premises so far. -/
structure Cursor where
  rule : CheckedRule
  env : Bindings
  rest : List Premise
  premises : List Triple
  deriving Inhabited

/-- A rule that waits for a triple to match a pattern of its body. -/
structure Suspension where
  rule : CheckedRule
  env : Bindings
  pattern : Triple
  rest : List Premise
  premises : List Triple
  deriving Inhabited

/-- The rule goes on with a triple, if the triple fits. -/
def Suspension.resume? (s : Suspension) (t : Triple) (record : Bool) : Option Cursor :=
  (s.env.match? s.pattern t).map fun env =>
    ⟨s.rule, env, s.rest, if record then s.premises ++ [t] else s.premises⟩

/-- A place in a search where several ways lead on. -/
inductive ChoicePoint where
  /-- The triples that are answers as they stand, and then the rules to be tried. -/
  | alternatives (facts : List Triple) (rules : List CheckedRule)
  /-- The triples that may match a pattern which no rule proves. -/
  | data (s : Suspension) (left : List Triple)
  /-- The unread answers for a frame. -/
  | consume (frame : FrameId)
  deriving Inhabited

structure Search where
  /-- The open choices, the latest first. -/
  stack : List ChoicePoint
  /-- Frames that have answers to read. -/
  ready : List FrameId
  /-- The answers found, in no particular order; they guard against repeats. -/
  known : List Triple
  /-- Whether the search only waits for answers of other goals. -/
  blocked : Bool
  deriving Inhabited

def Search.hasWork (s : Search) : Bool := !s.stack.isEmpty || !s.ready.isEmpty

/-- A goal with its answers. -/
structure Generator where
  goal : Triple
  /-- The answers in the order in which they were found. -/
  results : Array Triple
  /-- The search for more; there is none once all answers have been found. -/
  search : Option Search
  /-- The frames in which rules of this goal wait for other goals. -/
  generating : List FrameId
  /-- The frames that read the answers of this goal. -/
  consuming : List FrameId
  /-- Whether the generator is on the agenda. -/
  queued : Bool
  deriving Inhabited

inductive GeneratorState where
  | ready
  | blocked
  | complete
  deriving DecidableEq, Inhabited

def Generator.state (g : Generator) : GeneratorState :=
  match g.search with
  | none => .complete
  | some s => if s.blocked then .blocked else .ready

def Generator.isComplete (g : Generator) : Bool := g.search.isNone

def Generator.hasWork (g : Generator) : Bool := g.search.any (·.hasWork)

def Generator.new (goal : Triple) (facts : List Triple) (rules : List CheckedRule) : Generator where
  goal := goal
  results := #[]
  search := some ⟨[.alternatives facts rules], [], [], false⟩
  generating := []
  consuming := []
  queued := false

/-- A suspended rule and how far it has read the answers it waits for. -/
structure Frame where
  /-- The generator whose answers are read. -/
  target : GeneratorId
  /-- The generator that the rule works for. -/
  owner : GeneratorId
  continuation : Suspension
  nextResult : Nat
  /-- Whether the frame waits in its owner's queue or lies on its stack. -/
  pending : Bool
  /-- Whether there is nothing more to read. -/
  finished : Bool
  deriving Inhabited

structure Stats where
  generatorsCreated : Nat := 0
  generatorsCompleted : Nat := 0
  framesCreated : Nat := 0
  answers : Nat := 0
  cacheHits : Nat := 0
  completionCascades : Nat := 0
  deriving DecidableEq, Inhabited

structure Tables where
  generators : Array Generator
  frames : Array Frame
  /-- The generator of each goal, under the canonical form of the goal. -/
  cache : List (Triple × GeneratorId)
  /-- The generators whose turn will come. -/
  agenda : List GeneratorId
  /-- Whether derivations are kept. -/
  record : Bool
  log : DerivationLog
  failures : List BuiltinFailure
  stats : Stats
  deriving Inhabited

namespace Tables

def new (settings : ReasoningSettings) : Tables :=
  ⟨#[], #[], [], [], settings.derivationLogging, .empty, [], {}⟩

/-- Forgets every goal and every derivation.  What has been counted or noted stays. -/
def reset (t : Tables) : Tables :=
  { t with generators := #[], frames := #[], cache := [], agenda := [], log := .empty }

def generator (t : Tables) (id : GeneratorId) : Generator := t.generators.getD id default

def frame (t : Tables) (id : FrameId) : Frame := t.frames.getD id default

def size (t : Tables) : Nat := t.generators.size

def modifyGenerator (t : Tables) (id : GeneratorId) (f : Generator → Generator) : Tables :=
  { t with generators := t.generators.modify id f }

def modifySearch (t : Tables) (id : GeneratorId) (f : Search → Search) : Tables :=
  t.modifyGenerator id fun g => { g with search := g.search.map f }

def modifyFrame (t : Tables) (id : FrameId) (f : Frame → Frame) : Tables :=
  { t with frames := t.frames.modify id f }

def count (t : Tables) (f : Stats → Stats) : Tables := { t with stats := f t.stats }

/-- Puts a generator on the agenda, unless it is there or has all its answers. -/
def enqueue (t : Tables) (id : GeneratorId) : Tables :=
  let g := t.generator id
  if g.isComplete || g.queued then t
  else
    let t := t.modifyGenerator id fun g =>
      { g with queued := true, search := g.search.map ({ · with blocked := false }) }
    { t with agenda := t.agenda ++ [id] }

/-- The generator of a goal.  A goal that is new gets one, and it is put on the agenda. -/
def generatorFor (t : Tables) (ctx : Context) (goal : Triple) : GeneratorId × Tables :=
  let key := goal.normalize
  match t.cache.lookup key with
  | some id => (id, t.count fun s => { s with cacheHits := s.cacheHits + 1 })
  | none =>
    let id := t.generators.size
    let g := Generator.new key (ctx.sources.find key) (ctx.rules.candidates key)
    let t := { t with generators := t.generators.push g, cache := t.cache ++ [(key, id)] }
    let t := t.count fun s => { s with generatorsCreated := s.generatorsCreated + 1 }
    (id, t.enqueue id)

/-- Suspends a rule of `owner` on the answers of `target`, and says whether it can be resumed at
once. -/
def addFrame (t : Tables) (target owner : GeneratorId) (s : Suspension) : FrameId × Bool × Tables :=
  let id := t.frames.size
  let source := t.generator target
  let ready := !source.results.isEmpty || source.isComplete
  let t := { t with frames := t.frames.push ⟨target, owner, s, 0, ready, false⟩ }
  let t := t.modifyGenerator target fun g => { g with consuming := g.consuming ++ [id] }
  let t := t.modifyGenerator owner fun g => { g with generating := g.generating ++ [id] }
  (id, ready, t.count fun s => { s with framesCreated := s.framesCreated + 1 })

/-- What reading for a frame brings: nothing for now, or an answer, with which the rule may or may
not go on. -/
inductive Reading where
  | nothing
  | unfit
  | resumed (c : Cursor)

def readAnswer (t : Tables) (id : FrameId) : Reading × Tables :=
  let f := t.frame id
  let source := t.generator f.target
  match source.results[f.nextResult]? with
  | some answer =>
    let t' := t.modifyFrame id fun f => { f with nextResult := f.nextResult + 1 }
    match f.continuation.resume? answer t.record with
    | some c => (.resumed c, t')
    | none => (.unfit, t')
  | none =>
    (.nothing, t.modifyFrame id fun f =>
      { f with pending := false, finished := f.finished || source.isComplete })

/-- Whether some rule of the goal still waits for other goals. -/
def hasLiveFrames (t : Tables) (id : GeneratorId) : Bool :=
  (t.generator id).generating.any fun f => !(t.frame f).finished

def addResult (t : Tables) (id : GeneratorId) (answer : Triple) (derivation : Option Derivation) :
    Bool × Tables :=
  if (t.generator id).search.any (·.known.contains answer) then (false, t)
  else
    let t := t.modifyGenerator id fun g =>
      { g with
        results := g.results.push answer
        search := g.search.map fun s => { s with known := answer :: s.known } }
    let t := t.count fun s => { s with answers := s.answers + 1 }
    match derivation with
    | some d => (true, { t with log := t.log.record d })
    | none => (true, t)

/-- Gives a frame to its owner to be resumed, and the owner a turn.  A frame whose owner has all its
answers is finished. -/
def wake (t : Tables) (id : FrameId) : Tables :=
  let f := t.frame id
  if f.finished || f.pending then t
  else if (t.generator f.owner).isComplete then
    t.modifyFrame id fun f => { f with finished := true }
  else
    let t := t.modifyFrame id fun f => { f with pending := true }
    let t := t.modifySearch f.owner fun s => { s with ready := s.ready ++ [id] }
    t.enqueue f.owner

/-- Ends the search for a goal.  The frames of its rules are finished, and those that read its
answers may see its end. -/
def complete (t : Tables) (id : GeneratorId) : Tables :=
  let g := t.generator id
  if g.isComplete then t
  else
    let t := t.modifyGenerator id fun g => { g with search := none, generating := [] }
    let t := t.count fun s => { s with generatorsCompleted := s.generatorsCompleted + 1 }
    let t := g.generating.foldl (fun t f => t.modifyFrame f fun f => { f with finished := true }) t
    g.consuming.foldl wake t

def notifyReaders (t : Tables) (id : GeneratorId) (before : Nat) : Tables :=
  let g := t.generator id
  if g.results.size ≤ before then t else g.consuming.foldl wake t

end Tables

end TripleRules.Tabling
