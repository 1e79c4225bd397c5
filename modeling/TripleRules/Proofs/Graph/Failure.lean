import TripleRules.Proofs.Graph.Stores
import TripleRules.Proofs.Rule.Halting

/-!
# Failed updates

An update changes the asserted triples first and lets the forward engine work then.  If a builtin
gives up on the way, nothing is undone: the asserted triples stay as they are after the change, and
so does what the engine has added until then.  The same update then finds nothing left to do.
-/

namespace TripleRules

open Forward Forward.Engine

namespace InferenceGraph

variable {g g' : InferenceGraph} {r : Reasoner}

/-! ## Asserted triples -/

structure Orderly (g : InferenceGraph) : Prop where
  raw : g.raw.Built
  opened : g.closed = false

theorem Orderly.not_closed (h : g.Orderly) : ¬ g.closed = true := by
  rw [h.opened]
  exact Bool.false_ne_true

theorem History.orderly (h : History r g) : g.Orderly := ⟨h.serves.raw, h.serves.opened⟩

/-! ## What is left of an update -/

/-- An update of a graph has been broken off in a call on an engine.  The asserted triples have been
changed, and the forward engine of the graph is the one that the call has come to: as many of the
bodies that were completed before the fault as the limit leaves room for have been fired, and what
they added is behind what was there. -/
structure BrokenOff (g : InferenceGraph) (raw : List Triple) (e : Engine) (c : Call)
    (fuel fresh : Nat) (f : Fault) (reply : Reply (Except Fault Bool)) : Prop where
  base : reply.graph.base = g.base
  settings : reply.graph.settings = g.settings
  schema : reply.graph.schema = g.schema
  opened : reply.graph.closed = g.closed
  raw : reply.graph.raw.triples = raw
  call : e.call c fuel reply.graph.data fresh = some ⟨reply.graph.forward, reply.fresh, some f⟩
  performs : ∃ w, Performs reply.graph.data e fresh c w ⟨reply.graph.forward, reply.fresh, some f⟩ ∧
    reply.graph.forward.work = (e.fireEach reply.graph.data (e.allowed w.completed)).work
  forward : Extends reply.graph.data e reply.graph.forward

theorem BrokenOff.of_call {raw : List Triple} {e : Engine} {c : Call} {fuel fresh : Nat} {f : Fault}
    {reply : Reply (Except Fault Bool)} (hbase : reply.graph.base = g.base)
    (hsettings : reply.graph.settings = g.settings) (hschema : reply.graph.schema = g.schema)
    (hopened : reply.graph.closed = g.closed) (hraw : reply.graph.raw.triples = raw)
    (hcall : e.call c fuel reply.graph.data fresh =
      some ⟨reply.graph.forward, reply.fresh, some f⟩) :
    f.IsFatal ∧ BrokenOff g raw e c fuel fresh f reply := by
  obtain ⟨w, hw⟩ := exists_performs hcall
  have hleads := hw.proceeds.leadsTo
  exact ⟨hleads.fault f rfl, hbase, hsettings, hschema, hopened, hraw, hcall,
    ⟨w, hw, hw.proceeds.admits.work⟩, hleads.grown.extends⟩

/-- A triple cannot be added because it is not ground, or because a builtin gives up.  In the latter
case the triple is there all the same, and adding it again changes nothing. -/
theorem Orderly.add_error (h : g.Orderly) {fuel fresh : Nat} {t : Triple} {f : Fault}
    {reply : Reply (Except Fault Bool)} (hreply : g.add fuel t fresh = some reply)
    (hf : reply.value = .error f) :
    (f = .notGround t ∧ reply.graph = g ∧
      ∀ fuel' fresh', g.add fuel' t fresh' = some ⟨.error f, g, fresh'⟩) ∨
    (f.IsFatal ∧
      BrokenOff g (g.raw.triples ++ [t]) g.forward (.addTriple t) fuel fresh f reply ∧
      ∀ fuel' fresh', reply.graph.add fuel' t fresh' = some ⟨.ok false, reply.graph, fresh'⟩) := by
  cases adds hreply with
  | closed hclosed => exact absurd hclosed h.not_closed
  | known | idle | pass => cases hf
  | refused hground =>
      cases hf
      refine .inl ⟨rfl, rfl, fun fuel' fresh' => ?_⟩
      rw [InferenceGraph.add, if_neg h.not_closed, hground, Bool.not_false, if_pos rfl]
  | @broken hground hnew hmode o ho _ hfault =>
      cases hf
      obtain ⟨e, fresh', _⟩ := o
      cases hfault
      have hraw : (g.raw.insert t).triples = g.raw.triples ++ [t] := by
        rw [Store.insert, hnew, if_neg Bool.false_ne_true]
      obtain ⟨hfatal, hbroken⟩ : f.IsFatal ∧
          BrokenOff g (g.raw.triples ++ [t]) g.forward (.addTriple t) fuel fresh f
            ⟨.error f, { g with raw := g.raw.insert t, forward := e }, fresh'⟩ :=
        BrokenOff.of_call rfl rfl rfl rfl hraw ho
      refine .inr ⟨hfatal, hbroken, fun fuel' fresh' => ?_⟩
      have hin : (g.raw.insert t).contains t :=
        (Store.contains_iff _ t).mpr ((Store.mem_insert _ t t).mpr (.inr rfl))
      rw [InferenceGraph.add, if_neg h.not_closed, hground, Bool.not_true,
        if_neg Bool.false_ne_true, if_pos hin]

/-- A triple cannot be deleted because a builtin gives up when everything is deduced anew.  The
triple is gone all the same, and deleting it again changes nothing. -/
theorem Orderly.delete_error (h : g.Orderly) {fuel fresh : Nat} {t : Triple} {f : Fault}
    {reply : Reply (Except Fault Bool)} (hreply : g.delete fuel t fresh = some reply)
    (hf : reply.value = .error f) :
    f.IsFatal ∧
      BrokenOff g (g.raw.triples.erase t) (.new g.base g.settings g.schema.installed) .run fuel
        fresh f reply ∧
      ∀ fuel' fresh',
        reply.graph.delete fuel' t fresh' = some ⟨.ok false, reply.graph, fresh'⟩ := by
  cases deletes hreply with
  | closed hclosed => exact absurd hclosed h.not_closed
  | unknown | anew => cases hf
  | broken hin hdeduce hfault =>
      cases hf
      have hraw : (g.raw.erase t).triples = g.raw.triples.erase t := by
        rw [Store.erase, if_pos hin]
      have hout : (g.raw.erase t).contains t = false := by
        rw [Bool.eq_false_iff, ne_eq, Store.contains_iff, hraw]
        exact h.raw.consistent.nodup.not_mem_erase
      cases deduces hdeduce with
      | idle => cases hfault
      | @pass _ o hrun =>
          obtain ⟨e, fresh', _⟩ := o
          cases hfault
          obtain ⟨hfatal, hbroken⟩ : f.IsFatal ∧
              BrokenOff g (g.raw.triples.erase t) (.new g.base g.settings g.schema.installed) .run
                fuel fresh f ⟨.error f, { g with raw := g.raw.erase t, forward := e }, fresh'⟩ :=
            BrokenOff.of_call rfl rfl rfl rfl hraw hrun
          refine ⟨hfatal, hbroken, fun fuel' fresh' => ?_⟩
          rw [InferenceGraph.delete, if_neg h.not_closed, hout, Bool.not_false, if_pos rfl]

/-- What is left of an update that fails.  A triple that is not ground is refused: nothing has
changed, and it is refused again.  Every other failure is a builtin that gives up; then the asserted
triples are those after the update, and the forward engine is left as the pass was when the builtin
gave up.  After an addition that pass has gone on from what was there before; after a deletion it has
begun anew, with the rules that the schema installs.  The same update changes nothing more. -/
theorem failed_update (hg : History r g) {fuel fresh : Nat} {t : Triple} {f : Fault}
    {reply : Reply (Except Fault Bool)} (hf : reply.value = .error f) :
    (g.add fuel t fresh = some reply →
      (f = .notGround t ∧ reply.graph = g ∧
        ∀ fuel' fresh', g.add fuel' t fresh' = some ⟨.error f, g, fresh'⟩) ∨
      (f.IsFatal ∧
        BrokenOff g (g.raw.triples ++ [t]) g.forward (.addTriple t) fuel fresh f reply ∧
        ∀ fuel' fresh', reply.graph.add fuel' t fresh' = some ⟨.ok false, reply.graph, fresh'⟩)) ∧
    (g.delete fuel t fresh = some reply →
      f.IsFatal ∧
        BrokenOff g (g.raw.triples.erase t) (.new g.base g.settings g.schema.installed) .run fuel
          fresh f reply ∧
        ∀ fuel' fresh',
          reply.graph.delete fuel' t fresh' = some ⟨.ok false, reply.graph, fresh'⟩) :=
  ⟨fun hadd => hg.orderly.add_error hadd hf, fun hdelete => hg.orderly.delete_error hdelete hf⟩

/-! ## An instance -/

def postOffice : Reasoner :=
  ⟨(((RuleBase.empty .halting).add .write).add .get).add .mail, {}, .empty⟩

theorem build_postOffice :
    Reasoner.build .halting [writeRule, getRule, mailRule] {} = .ok postOffice := rfl

def letter : Triple := ⟨.iri "ann", .iri "sends", .iri "letter"⟩

def badLetter : Triple := ⟨.iri "bob", .iri "sends", .iri "bad"⟩

def letterSent : Option InferenceGraph :=
  match postOffice.bind 100 (.ofList [letter]) 0 with
  | some (.ok g, _) => some g
  | _ => none

theorem history_letterSent (h : letterSent = some g) : History postOffice g := by
  unfold letterSent at h
  split at h
  · rename_i hbind
    cases h
    exact .bind (Store.built_ofList (by decide)) hbind
  · cases h

def halted : Fault := .builtinFailed getRule.label "haltOn" (.fatal "halt called")

def Differ (g g' : InferenceGraph) : Prop :=
  g.raw.triples ≠ g'.raw.triples ∧ g.forward.deductions.triples ≠ g'.forward.deductions.triples ∧
    g.forward.installed.rules.map (·.rule) ≠ g'.forward.installed.rules.map (·.rule)

instance : Decidable (Differ g g') := inferInstanceAs (Decidable (_ ∧ _ ∧ _))

theorem exists_letters : ∃ g on off, letterSent = some g ∧
    (g.add 100 badLetter 0 = some on ∧ on.value = .error halted ∧ Differ g on.graph ∧
      (on.graph.add 100 badLetter 0).map (·.value) = some (.ok false)) ∧
    on.graph.delete 100 letter 0 = some off ∧ off.value = .error halted ∧
      Differ on.graph off.graph ∧
      (off.graph.delete 100 letter 0).map (·.value) = some (.ok false) := by
  have hletters : letterSent.any fun g => (g.add 100 badLetter 0).any fun on =>
      (on.value == .error halted && decide (Differ g on.graph) &&
        (on.graph.add 100 badLetter 0).map (·.value) == some (.ok false)) &&
      (on.graph.delete 100 letter 0).any fun off =>
        off.value == .error halted && decide (Differ on.graph off.graph) &&
          (off.graph.delete 100 letter 0).map (·.value) == some (.ok false) := by
    decide +kernel
  simp only [Option.any_eq_true, Bool.and_eq_true, beq_iff_eq, decide_eq_true_eq] at hletters
  obtain ⟨g, hg, on, hon, ⟨⟨hfails, hdiffer⟩, hagain⟩, off, hoff, ⟨hfails', hdiffer'⟩, hagain'⟩ :=
    hletters
  exact ⟨g, on, off, hg, ⟨hon, hfails, hdiffer, hagain⟩, hoff, hfails', hdiffer', hagain'⟩

theorem letters_broken_off : ∃ g on off, letterSent = some g ∧
    g.add 100 badLetter 0 = some on ∧ on.value = .error halted ∧
    on.graph.delete 100 letter 0 = some off ∧ off.value = .error halted ∧
    BrokenOff g (g.raw.triples ++ [badLetter]) g.forward (.addTriple badLetter) 100 0 halted on ∧
    BrokenOff on.graph (on.graph.raw.triples.erase letter)
      (.new on.graph.base on.graph.settings on.graph.schema.installed) .run 100 0 halted off := by
  obtain ⟨g, on, off, hg, ⟨hon, hfails, -⟩, hoff, hfails', -⟩ := exists_letters
  have hhistory := history_letterSent hg
  have hadd : BrokenOff g (g.raw.triples ++ [badLetter]) g.forward (.addTriple badLetter) 100 0
      halted on := by
    rcases (failed_update hhistory hfails).1 hon with ⟨hf, -⟩ | ⟨-, hbroken, -⟩
    · cases hf
    · exact hbroken
  exact ⟨g, on, off, hg, hon, hfails, hoff, hfails', hadd,
    ((failed_update (hhistory.act (.add hon)) hfails').2 hoff).2.1⟩

/-- Updates that fail are not undone, and they do not fail again. -/
theorem letters_not_undone :
    Reasoner.build .halting [writeRule, getRule, mailRule] {} = .ok postOffice ∧
    ∃ g on off, History postOffice g ∧ g.closed = false ∧
    (g.add 100 badLetter 0 = some on ∧ on.value = .error halted ∧ Differ g on.graph ∧
      (on.graph.add 100 badLetter 0).map (·.value) = some (.ok false)) ∧
    on.graph.delete 100 letter 0 = some off ∧ off.value = .error halted ∧
      Differ on.graph off.graph ∧
      (off.graph.delete 100 letter 0).map (·.value) = some (.ok false) := by
  obtain ⟨g, on, off, hg, hletters⟩ := exists_letters
  have hhistory := history_letterSent hg
  exact ⟨build_postOffice, g, on, off, hhistory, hhistory.orderly.opened, hletters⟩

end InferenceGraph

end TripleRules
