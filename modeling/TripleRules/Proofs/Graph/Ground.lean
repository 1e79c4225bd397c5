import TripleRules.Proofs.Builtin.Ground
import TripleRules.Proofs.Graph.Calls
import TripleRules.Proofs.Term.Goal

/-!
# Ground triples

A rule may call a builtin on variables that nothing has bound, and its head may be left with
variables when its body is done.  All the same, no variable ever stands for a term with variables in
it, and no triple with variables is stored, offered as an answer or kept as a premise.
-/

namespace TripleRules

open Forward Forward.Engine
open Tabling (Cursor)
open Tabling.Cursor (Leads)

/-! ## Bindings -/

namespace Bindings

/-- The bindings made, whether or not all parts agreed. -/
def made : Except Bindings Bindings → Bindings
  | .ok b => b
  | .error b => b

theorem extends_made_bind (b : Bindings) (v : Variable) {x : Term} (hx : x.isGround) :
    b.Extends (made (b.bind v x)) [v] := by
  cases hbind : b.bind v x with
  | ok b' => exact (bind_ok hx hbind).1
  | error b' =>
      have hsame : b' = b := by
        unfold bind at hbind
        split at hbind
        · cases hbind
          rfl
        · cases hbind
        · split at hbind
          · cases hbind
          · cases hbind
            rfl
      exact hsame ▸ .refl b _

theorem extends_made_ite (c : Prop) [Decidable c] (b : Bindings) (vs : List Variable) :
    b.Extends (made (if c then .ok b else .error b)) vs := by
  split <;> exact .refl b vs

theorem extends_made_unifyAll (ps : List Term)
    (ih : ∀ p ∈ ps, ∀ (g : Term) (b : Bindings), b.Extends (made (unify p g b)) p.occurrences)
    (gs : List Term) (b : Bindings) :
    b.Extends (made (unifyAll ps gs b)) (ps.flatMap Term.occurrences) := by
  induction ps generalizing gs b with
  | nil => exact .refl b _
  | cons p ps ihs =>
      cases gs with
      | nil => exact .refl b _
      | cons g gs =>
          have hfirst := (ih p List.mem_cons_self g b).mono
            (List.subset_append_left p.occurrences (ps.flatMap Term.occurrences))
          rw [unifyAll]
          cases hp : unify p g b with
          | error c =>
              rw [hp] at hfirst
              exact hfirst
          | ok c =>
              rw [hp] at hfirst
              have hrest := ihs (fun q hq => ih q (List.mem_cons_of_mem p hq)) gs c
              exact hfirst.trans (hrest.mono (List.subset_append_right _ _))

/-- Matching binds to ground terms only, also as far as it comes when it fails. -/
theorem extends_made_unify (p g : Term) (b : Bindings) :
    b.Extends (made (unify p g b)) p.occurrences := by
  induction p using Term.induct generalizing g b with
  | iri | literal | blank =>
      simp only [unify]
      exact extends_made_ite _ b _
  | var v =>
      simp only [unify]
      split
      · rename_i hg
        exact extends_made_bind b v hg
      · exact .refl b _
  | compound f ps ih =>
      cases g with
      | compound c gs =>
          simp only [unify]
          split
          · have hall := extends_made_unifyAll ps (fun p hp g b => ih p hp g b) gs b
            simpa [Term.occurrences] using hall
          · exact .refl b _
      | iri | literal | blank | var =>
          simp only [unify]
          exact extends_made_ite _ b _

theorem extends_made_unifyGoalAll (hs : List Term)
    (ih : ∀ h ∈ hs, ∀ (g : Term) (b : Bindings), b.Extends (made (unifyGoal h g b)) h.occurrences)
    (gs : List Term) (b : Bindings) :
    b.Extends (made (unifyGoalAll hs gs b)) (hs.flatMap Term.occurrences) := by
  induction hs generalizing gs b with
  | nil => exact .refl b _
  | cons h hs ihs =>
      cases gs with
      | nil => exact .refl b _
      | cons g gs =>
          have hfirst := (ih h List.mem_cons_self g b).mono
            (List.subset_append_left h.occurrences (hs.flatMap Term.occurrences))
          rw [unifyGoalAll]
          cases hh : unifyGoal h g b with
          | error c =>
              rw [hh] at hfirst
              exact hfirst
          | ok c =>
              rw [hh] at hfirst
              have hrest := ihs (fun q hq => ih q (List.mem_cons_of_mem h hq)) gs c
              exact hfirst.trans (hrest.mono (List.subset_append_right _ _))

theorem extends_made_unifyGoal (h g : Term) (b : Bindings) :
    b.Extends (made (unifyGoal h g b)) h.occurrences := by
  induction h using Term.induct generalizing g b with
  | iri | literal | blank =>
      cases g with
      | var => exact .refl b _
      | iri | literal | blank | compound =>
          simp only [unifyGoal]
          exact extends_made_ite _ b _
  | var v =>
      cases g with
      | var => exact .refl b _
      | iri | literal | blank | compound =>
          simp only [unifyGoal]
          split
          · rename_i hg
            exact extends_made_bind b v hg
          · split
            · exact .refl b _
            · exact extends_made_ite _ b _
  | compound f hs ih =>
      cases g with
      | var => exact .refl b _
      | compound c gs =>
          simp only [unifyGoal]
          split
          · have hall := extends_made_unifyGoalAll hs (fun h hh g b => ih h hh g b) gs b
            simpa [Term.occurrences] using hall
          · exact .refl b _
      | iri | literal | blank =>
          simp only [unifyGoal]
          exact extends_made_ite _ b _

/-- Whatever comes of matching, with a triple or with a goal, values stay ground. -/
theorem Values.made {b : Bindings} (h : b.Values (·.isGround)) (p t : Triple) :
    (made (unifyAll p.terms t.terms b)).Values (·.isGround) ∧
      (made (b.withGoal p t)).Values (·.isGround) :=
  ⟨(extends_made_unifyAll p.terms (fun q _ => extends_made_unify q) t.terms b).values h,
    (extends_made_unifyGoalAll p.terms (fun q _ => extends_made_unifyGoal q) t.terms b).values h⟩

end Bindings

/-! ## Rules in progress -/

structure Tabling.Cursor.IsGround (c : Cursor) : Prop where
  env : c.env.Values (·.isGround)
  premises : ∀ x ∈ c.premises, x.isGround

structure Derivation.IsGround (d : Derivation) : Prop where
  conclusion : d.conclusion.isGround
  premises : ∀ x ∈ d.premises, x.isGround

theorem Tabling.Cursor.IsGround.append {c : Cursor} (h : c.IsGround) {t : Triple} (ht : t.isGround)
    (record : Bool) : ∀ x ∈ if record then c.premises ++ [t] else c.premises, x.isGround := by
  intro x hx
  split at hx
  · rcases List.mem_append.mp hx with hx | hx
    · exact h.premises x hx
    · rw [List.mem_singleton.mp hx]
      exact ht
  · exact h.premises x hx

def Policy.grounding (record : Bool) : Policy where
  record := record
  rule c := GroundCalls c.body
  triple _ t := t.isGround
  cursor _ c := c.IsGround ∧ GroundCalls c.rest
  note := Derivation.IsGround
  triple_record _ ht := ht
  cursor_record _ hc := hc
  front hr := ⟨⟨Bindings.values_empty _ _, fun _ hx => absurd hx List.not_mem_nil⟩, hr⟩
  start hr h := ⟨⟨(CheckedRule.start?_extends h).2, fun _ hx => absurd hx List.not_mem_nil⟩, hr⟩
  trigger := by
    intro log r i p t env hr _ ht hmatch
    refine ⟨⟨(Bindings.match?_some hmatch).1.values (Bindings.values_empty _ _), fun x hx => ?_⟩,
      fun b args hcall => hr b args (List.mem_of_mem_eraseIdx hcall)⟩
    split at hx
    · rw [List.mem_singleton.mp hx]
      exact ht
    · exact absurd hx List.not_mem_nil
  read := by
    intro log r env p rest premises t env' hc ht hmatch
    exact ⟨⟨(Bindings.match?_some hmatch).1.values hc.1.env, hc.1.append ht record⟩, hc.2.tail⟩
  call := by
    intro log r env b args rest premises fresh env' fresh' hc hcall
    have hextends := CheckedRule.call_extends (hc.2 b args List.mem_cons_self)
      (congrArg Prod.fst hcall)
    exact ⟨⟨hextends.values hc.1.env, hc.1.premises⟩, hc.2.tail⟩
  conclude _ _ hground := hground
  derive hc _ hground := ⟨hground, hc.1.premises⟩

theorem Policy.suits_grounding {r : Reasoner} (h : ∀ b ∈ r.base.known.builtins, b.Grounds) :
    (Policy.grounding r.settings.derivationLogging).Suits r :=
  ⟨rfl, fun _ hc b args hcall => h b (CheckedRule.takesAll hc b args hcall).1, fun _ _ ht => ht⟩

/-- If a rule in progress comes to a call, the values that it gets are ground. -/
def Tabling.Cursor.GetsGround (c : Cursor) : Prop :=
  ∀ b args, c.Invokes b args → ∀ fresh bindings,
    (b.run args fresh).1 = .ok (.holds bindings) → ∀ x ∈ bindings, x.2.isGround

theorem GroundCalls.getsGround {c : Cursor} (h : GroundCalls c.rest) : c.GetsGround := by
  rintro b args ⟨terms, rest, hrest, rfl⟩ fresh bindings hrun
  refine h b terms ?_ _ fresh bindings hrun
  rw [hrest]
  exact List.mem_cons_self

/-! ## An accepted rule with a head that is not ground -/

def freeRule : Rule :=
  .make [.pattern ⟨.named "x", .iri "knows", .named "y"⟩, .call "unbound" [.named "z"]]
    [.pattern ⟨.named "y", .iri "knows", .named "x"⟩, .pattern ⟨.named "z", .iri "is", .iri "free"⟩]
    .forward

def unboundTest : Builtin := (Registry.standard.find? "unbound").getD default

def free : CheckedRule :=
  ⟨freeRule, [.pattern ⟨.var ⟨"x", 0⟩, .iri "knows", .var ⟨"y", 1⟩⟩,
    .call unboundTest [.var ⟨"z", 2⟩]]⟩

def freeReasoner : Reasoner := ⟨(RuleBase.empty .standard).add free, {}, .empty⟩

theorem built_freeReasoner : freeReasoner.Built := by
  have hmade : ∀ q ∈ [freeRule], q.IsMade := by
    intro q hq
    rw [List.mem_singleton.mp hq]
    exact ⟨_, _, _, none, rfl⟩
  have hbuild : Reasoner.build .standard [freeRule] {} = .ok freeReasoner := rfl
  exact .build hmade hbuild

def annKnowsBob : Triple := ⟨.iri "ann", .iri "knows", .iri "bob"⟩

def acquaintances : Store := .ofList [annKnowsBob]

theorem built_acquaintances : acquaintances.Built := Store.built_ofList (by decide)

def freeTrigger : Trigger :=
  ⟨0, 0, free, ⟨.var ⟨"x", 0⟩, .iri "knows", .var ⟨"y", 1⟩⟩, [.call unboundTest [.var ⟨"z", 2⟩]]⟩

def freeDone : Cursor := ⟨free, ⟨[some (.iri "ann"), some (.iri "bob"), none]⟩, [], []⟩

def isFree : Triple := ⟨.var ⟨"z", 2⟩, .iri "is", .iri "free"⟩

theorem free_not_ground :
    (Engine.new freeReasoner.base freeReasoner.settings freeReasoner.schema.installed).WorksOn
      ⟨acquaintances, freeReasoner.schema.graph⟩ freeDone ∧
    .pattern isFree ∈ freeRule.head ∧ (freeDone.env.instantiate isFree).isGround = false := by
  have hcall : free.call unboundTest [.var ⟨"z", 2⟩] freeDone.env 0 =
      (.holds freeDone.env, 0) := rfl
  have htrigger : freeTrigger ∈ freeReasoner.base.triggersFor (.iri "knows") :=
    List.mem_singleton_self _
  have henters := Enters.trigger (e := Engine.new freeReasoner.base freeReasoner.settings
    freeReasoner.schema.installed) (d := ⟨acquaintances, freeReasoner.schema.graph⟩)
    (t := annKnowsBob) rfl htrigger rfl
  refine ⟨⟨_, henters, Leads.refl.call hcall⟩, ?_, rfl⟩
  exact List.mem_cons_of_mem _ (List.mem_singleton_self _)

/-! ## Both engines -/

/-- With the standard builtins all that is stored is ground, however patterns are searched for,
whatever the rules that a base takes, the schema, the data and the goals, and whatever is done to a
graph.  In every pass and for every
goal the variables of rules in progress stand for ground terms, what a call gives them is ground,
and so are their premises.  What is deduced, what is offered as an answer and what is recorded is
ground.  Matching binds to ground terms only, also as far as it comes when it fails.  A rule may be
taken all the same whose head is not ground when its body is done. -/
theorem all_ground :
    (∀ (search : PatternSearch) (r : Reasoner), r.Built → r.base.known = .standardWith search →
      (∀ d e, r.Chains d e →
        (∀ c, e.WorksOn d c → c.IsGround ∧ c.GetsGround) ∧
        (∀ t ∈ e.deductions.triples, t.isGround) ∧ e.log.All Derivation.IsGround) ∧
      ∀ g, InferenceGraph.History r g → r.Chains g.data g.forward ∧
        ∀ target limit fresh m, Tabling.Passes g.context g.tables target limit fresh m →
          (∀ c, m.TakesUp c → c.IsGround ∧ c.GetsGround) ∧
          (∀ x, m.Offers g.context x → x.isGround) ∧
          (∀ id, ∀ x ∈ (m.tables.generator id).results, x.isGround) ∧
          m.tables.log.All Derivation.IsGround) ∧
    (∀ (b : Bindings) (p t : Triple), b.Values (·.isGround) →
      (Bindings.made (Bindings.unifyAll p.terms t.terms b)).Values (·.isGround) ∧
      (Bindings.made (b.withGoal p t)).Values (·.isGround)) ∧
    ∃ (r : Reasoner) (d : Data) (e : Engine) (c : Cursor) (p : Triple), r.Built ∧
      r.base.known = .standard ∧ r.Chains d e ∧ e.WorksOn d c ∧ c.rest = [] ∧
      .pattern p ∈ c.rule.rule.head ∧ (c.env.instantiate p).isGround = false := by
  refine ⟨fun search r hr hknown => ?_, fun b p t h => h.made p t, ?_⟩
  · have hsuits : (Policy.grounding r.settings.derivationLogging).Suits r :=
      Policy.suits_grounding fun b hb => Builtin.grounds_standard (hknown ▸ hb)
    refine ⟨fun d e he => ?_, fun g hg => ⟨hg.engaged.chains, fun target limit fresh m hm => ?_⟩⟩
    · have hcovers := hsuits.covers hr he
      refine ⟨fun c hc => ?_, hcovers.sources.deductions.consistent.ground, hcovers.log⟩
      obtain ⟨hground, hcalls⟩ := hcovers.worksOn hc
      exact ⟨hground, hcalls.getsGround⟩
    · have hctx := hsuits.supplies hr hg
      have hgoverns := (hsuits.governs hr hg).passes hctx hm
      refine ⟨fun c hc => ?_, fun x hx => ?_, hgoverns.answer, hgoverns.log⟩
      · obtain ⟨hground, hcalls⟩ := hgoverns.toHolds.takesUp hgoverns.linked hc
        exact ⟨hground, hcalls.getsGround⟩
      · obtain ⟨log, hx⟩ := hgoverns.toHolds.offers hctx hgoverns.linked hx
        exact hx
  · obtain ⟨hworks, hmem, hvar⟩ := free_not_ground
    exact ⟨freeReasoner, _, _, freeDone, isFree, built_freeReasoner, rfl,
      .start built_acquaintances, hworks, rfl, hmem, hvar⟩

/-- Ann and Bob know each other. -/
theorem free_all_ground : ∃ g fresh, freeReasoner.bind 100 acquaintances 0 = some (.ok g, fresh) ∧
    g.forward.deductions.triples = [⟨.iri "bob", .iri "knows", .iri "ann"⟩] ∧
    ∀ t ∈ g.forward.deductions.triples, t.isGround := by
  have hrun : (freeReasoner.bind 100 acquaintances 0).any fun
      | (.ok g, _) => decide (g.forward.deductions.triples =
          [⟨.iri "bob", .iri "knows", .iri "ann"⟩])
      | (.error _, _) => false := by
    decide +kernel
  rw [Option.any_eq_true] at hrun
  obtain ⟨⟨bound, fresh⟩, hbind, hdeduced⟩ := hrun
  cases bound with
  | error f => cases hdeduced
  | ok g =>
      have hhistory : InferenceGraph.History freeReasoner g := .bind built_acquaintances hbind
      obtain ⟨hforward, hbackward⟩ := all_ground.1 _ freeReasoner built_freeReasoner rfl
      exact ⟨g, fresh, hbind, of_decide_eq_true hdeduced,
        (hforward _ _ (hbackward g hhistory).1).2.1⟩

end TripleRules
