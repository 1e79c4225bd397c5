import TripleRules.Graph.Basic

/-!
# Updates

Binding a graph, and changes to its asserted triples.  Forward deductions grow with a triple that is
added and are worked out anew when one is deleted; goals are forgotten either way.
-/

namespace TripleRules

namespace InferenceGraph

def deduce (g : InferenceGraph) (fuel : Nat) (fresh : Nat) : Option (Reply (Option Fault)) :=
  let engine := Forward.Engine.new g.base g.settings g.schema.installed
  if g.settings.mode.runsForward then
    (engine.run fuel g.data fresh).map fun o => ⟨o.fault, { g with forward := o.engine }, o.fresh⟩
  else some ⟨none, { g with forward := engine }, fresh⟩

/-- Adds a triple, and says whether it was new.  After a fault the triple stays. -/
def add (g : InferenceGraph) (fuel : Nat) (t : Triple) (fresh : Nat) :
    Option (Reply (Except Fault Bool)) :=
  if g.closed then some ⟨.error .graphClosed, g, fresh⟩
  else if !t.isGround then some ⟨.error (.notGround t), g, fresh⟩
  else if g.raw.contains t then some ⟨.ok false, g, fresh⟩
  else
    let g := { g with raw := g.raw.insert t }
    if g.settings.mode.runsForward then
      (g.forward.addTriple fuel g.data t fresh).map fun o =>
        let g := { g with forward := o.engine }
        match o.fault with
        | some f => ⟨.error f, g, o.fresh⟩
        | none => ⟨.ok true, g.reset, o.fresh⟩
    else some ⟨.ok true, g.reset, fresh⟩

def delete (g : InferenceGraph) (fuel : Nat) (t : Triple) (fresh : Nat) :
    Option (Reply (Except Fault Bool)) :=
  if g.closed then some ⟨.error .graphClosed, g, fresh⟩
  else if !g.raw.contains t then some ⟨.ok false, g, fresh⟩
  else
    let g := { g with raw := g.raw.erase t }
    (g.deduce fuel fresh).map fun r =>
      match r.value with
      | some f => ⟨.error f, r.graph, r.fresh⟩
      | none => ⟨.ok true, r.graph.reset, r.fresh⟩

end InferenceGraph

/-- Binds a data graph: the deductions are there before the first query. -/
def Reasoner.bind (r : Reasoner) (fuel : Nat) (data : Store) (fresh : Nat) :
    Option (Except Fault InferenceGraph × Nat) :=
  let g : InferenceGraph :=
    { base := r.base
      settings := r.settings
      schema := r.schema
      raw := data
      forward := .new r.base r.settings r.schema.installed
      tables := .new r.settings
      closed := false }
  (g.deduce fuel fresh).map fun reply =>
    match reply.value with
    | some f => (.error f, reply.fresh)
    | none => (.ok reply.graph, reply.fresh)

end TripleRules
