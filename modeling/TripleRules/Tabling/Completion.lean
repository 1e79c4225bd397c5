import TripleRules.Tabling.Basic

/-!
# Completion

When no generator has a turn to take, the goals that a goal depends on are looked through.  If none
of them can make progress, they have read all answers that they can ever get, and all of them are
complete together.
-/

namespace TripleRules.Tabling

/-- What a look through dependent goals finds. -/
inductive Verdict where
  /-- A generator with work to do. -/
  | schedule (id : GeneratorId)
  /-- A frame that has not read all it could. -/
  | wake (frame : FrameId)
  /-- Generators that depend only on one another. -/
  | complete (ids : List GeneratorId)
  deriving Inhabited

namespace Tables

/-- Whether a frame could read on, or see that its source has ended. -/
def hasUnread (t : Tables) (id : FrameId) : Bool :=
  let f := t.frame id
  let source := t.generator f.target
  f.nextResult < source.results.size || source.isComplete

/-- Looks through the goals on the stack and those they depend on.  A goal is looked at once, so as
many steps are enough as there are frames, and one more. -/
def survey (t : Tables) : (fuel : Nat) → (stack visited : List GeneratorId) → Verdict
  | 0, _, visited => .complete visited
  | _, [], visited => .complete visited
  | fuel + 1, id :: stack, visited =>
    let g := t.generator id
    if g.isComplete || visited.contains id then t.survey fuel stack visited
    else if g.hasWork then .schedule id
    else
      let live := g.generating.filter fun f => !(t.frame f).finished
      match live.find? t.hasUnread with
      | some f => if (t.frame f).pending then .schedule id else .wake f
      | none =>
        t.survey fuel ((live.map fun f => (t.frame f).target).reverse ++ stack) (visited ++ [id])

/-- Finds work for a goal that is not complete, or completes it with all it depends on. -/
def checkCompletion (t : Tables) (target : GeneratorId) : Tables :=
  match t.survey (t.frames.size + 1) [target] [] with
  | .schedule id => t.enqueue id
  | .wake f => t.wake f
  | .complete ids =>
    ids.foldl complete (t.count fun s => { s with completionCascades := s.completionCascades + 1 })

end Tables

end TripleRules.Tabling
