import TripleRules.Proofs.Builtin.Ground
import TripleRules.Proofs.Graph.Engines
import TripleRules.Proofs.Rule.Acceptance

/-!
# Calls

Which builtins are called, and with how many arguments, is settled when a base takes its rules.  A
nested rule is looked into at that time as well, so it may be put to work later without surprises:
whatever bindings it is installed under, its calls can be made, and if it is turned down then for
its form or for its variables.
-/

namespace TripleRules

open Forward Forward.Engine
open Tabling (Cursor)
open Tabling.Cursor (Leads)

variable {known : Registry} {r : Reasoner}

def Registry.Takes (known : Registry) (b : Builtin) (args : List Term) : Prop :=
  b ∈ known.builtins ∧ b.arity.accepts args.length

/-- A rule in progress comes to a call: the builtin is run on its arguments, with the bindings put
in. -/
def Tabling.Cursor.Invokes (c : Cursor) (b : Builtin) (args : List Term) : Prop :=
  ∃ terms rest, c.rest = .call b terms :: rest ∧ args = terms.map c.env.resolve

def Registry.TakesAll (known : Registry) (rest : List Premise) : Prop :=
  ∀ b args, .call b args ∈ rest → known.Takes b args

theorem Registry.TakesAll.invokes {c : Cursor} (h : known.TakesAll c.rest) {b : Builtin}
    {args : List Term} (hc : c.Invokes b args) : known.Takes b args := by
  obtain ⟨terms, rest, hrest, rfl⟩ := hc
  obtain ⟨hknown, harity⟩ := h b terms (by rw [hrest]; exact List.mem_cons_self)
  rw [← List.length_map c.env.resolve] at harity
  exact ⟨hknown, harity⟩

/-- A call is resolved only if it can be made. -/
theorem Registry.takes_of_resolve {label : String} {c : Clause} {b : Builtin} {args : List Term}
    (h : c.resolve known label = .ok (.call b args)) : known.Takes b args := by
  cases c with
  | pattern t => cases h
  | call name terms =>
      cases hfind : known.find? name with
      | none => simp [Clause.resolve, Registry.resolve, hfind, Except.map] at h
      | some b' =>
          by_cases harity : b'.arity.accepts terms.length
          · simp only [Clause.resolve, Registry.resolve, hfind, harity, if_true, Except.map,
              Except.ok.injEq, Premise.call.injEq] at h
            obtain ⟨rfl, rfl⟩ := h
            exact ⟨List.mem_of_find?_eq_some hfind, harity⟩
          · simp [Clause.resolve, Registry.resolve, hfind, harity, Except.map] at h

theorem CheckedRule.takesAll {c : CheckedRule} (h : c.rule.check known = .ok c) :
    known.TakesAll c.body := by
  intro b args hcall
  obtain ⟨clause, -, hresolve⟩ :=
    exists_clause_of_mem (resolveBody_ok (Rule.check_ok h).2.1) hcall
  exact Registry.takes_of_resolve hresolve

def Policy.calling (r : Reasoner) : Policy where
  record := r.settings.derivationLogging
  rule c := c.rule.check r.base.known = .ok c
  triple _ _ := True
  cursor _ c := c.rule.rule.check r.base.known = .ok c.rule ∧ r.base.known.TakesAll c.rest
  note _ := True
  triple_record _ _ := trivial
  cursor_record _ hc := hc
  front hr := ⟨hr, CheckedRule.takesAll hr⟩
  start hr _ := ⟨hr, CheckedRule.takesAll hr⟩
  trigger hr _ _ _ :=
    ⟨hr, fun b args hcall => CheckedRule.takesAll hr b args (List.mem_of_mem_eraseIdx hcall)⟩
  read hc _ _ := ⟨hc.1, fun b args hcall => hc.2 b args (List.mem_cons_of_mem _ hcall)⟩
  call hc _ := ⟨hc.1, fun b args hcall => hc.2 b args (List.mem_cons_of_mem _ hcall)⟩
  conclude _ _ _ := trivial
  derive _ _ _ := trivial

theorem Policy.suits_calling (r : Reasoner) : (Policy.calling r).Suits r :=
  ⟨rfl, fun _ hc => hc, fun _ _ _ => trivial⟩

/-! ## Rules that are turned down -/

/-- A nested rule of a rule that has passed the checks can be turned down for its form or for its
variables, whatever it is installed under. -/
theorem CheckedRule.code_of_install {c : CheckedRule} (h : c.rule.check known = .ok c) {q : Rule}
    (hq : .rule q ∈ c.rule.head) {env : Bindings} {f : Fault}
    (hf : (q.specialize env).check known = .error f) :
    f.code = .malformedRule ∨ f.code = .unsafeVariable := by
  have haccepted := Rule.exists_check_iff.mp ⟨c, h⟩
  obtain ⟨hcall, hnested⟩ :=
    Rule.callable_specialize (nestedCallable_iff.mp haccepted.nested q hq) env
  exact Rule.code_of_check_error hcall hnested hf

namespace Forward.Engine

variable {d : Data} {e e' : Engine}

/-- All rules that have been turned down were so for their form or for their variables. -/
def Rejects (e : Engine) : Prop :=
  ∀ f ∈ e.rejected, f.code = .malformedRule ∨ f.code = .unsafeVariable

theorem Rejects.draws (h : e.Rejects) {F : Firing → Prop} (hd : Draws d F e e')
    (hF : ∀ f, F f → f.rule.rule.check e.base.known = .ok f.rule) : e'.Rejects := by
  induction hd with
  | refl | noted | counted | halted => exact h
  | deduce e _ _ =>
      unfold Engine.deduce
      split <;> exact h
  | install e hf hq =>
      unfold Engine.install
      split
      · rename_i f hcheck
        intro f' hf'
        rcases List.mem_append.mp hf' with hf' | hf'
        · exact h f' hf'
        · rw [List.mem_singleton.mp hf']
          exact CheckedRule.code_of_install (hF _ hf) hq hcheck
      · split <;> exact h
  | trans hd _ ih ih' =>
      refine ih' (ih h hF) fun f hf => ?_
      rw [hd.chained.extends.base]
      exact hF f hf

theorem Rejects.reaches (h : e.Rejects) (hcovers : (Policy.calling r).Covers d e)
    (hbase : e.base = r.base) (hr : Reaches d e e') : e'.Rejects := by
  induction hr with
  | refl => exact h
  | plan _ _ ih => exact ih
  | @enter e' hreach c hc fresh ih =>
      refine ih.draws (draws_matchAndFire e' d c fresh) fun f hf => ?_
      rw [hreach.chained.extends.base, hbase]
      exact ((hcovers.reaches hreach).worksOn (hf.worksOn hc)).1

end Forward.Engine

theorem Reasoner.Chains.rejects {d : Data} {e : Engine} (h : r.Chains d e) (hr : r.Built) :
    e.Rejects := by
  induction h with
  | schema | start => exact fun f hf => absurd hf List.not_mem_nil
  | assert _ _ ih => exact ih
  | pass h hpass ih => exact ih.reaches ((Policy.suits_calling r).covers hr h) h.base hpass

/-! ## Rules in progress -/

/-- The calls of rules are settled when a base takes the rules.  It takes them just when all of them
are well formed and every call in them, and in the rules nested in them at any depth, is to a
builtin that is known and accepts so many arguments.  From then on every call that a forward pass
makes, and every call that is made for a goal, whatever has been done to a graph and whichever rules
have been installed in it, is such a call.  A nested rule that is turned down when it is to be
installed is so for its form or for its variables, never for its calls.  On arguments in such a
number the standard builtins stay within them, however patterns are searched for. -/
theorem calls_settled :
    (∀ (known : Registry) (rules : List Rule),
      (∃ b, RuleBase.ofRules known rules = .ok b) ↔ ∀ q ∈ rules, q.Accepted known) ∧
    (∀ r : Reasoner, r.Built →
      (∀ d e, r.Chains d e →
        (∀ c b args, e.WorksOn d c → c.Invokes b args → r.base.known.Takes b args) ∧
        ∀ f ∈ e.rejected, f.code = .malformedRule ∨ f.code = .unsafeVariable) ∧
      ∀ g, InferenceGraph.History r g → r.Chains g.data g.forward ∧
        ∀ c b args, g.TakesUp c → c.Invokes b args → r.base.known.Takes b args) ∧
    ∀ search, ∀ b ∈ (Registry.standardWith search).builtins, b.StaysWithin := by
  refine ⟨fun known rules => RuleBase.exists_ofRules_iff, fun r hr => ?_,
    fun _ b hb => Builtin.staysWithin_standard hb⟩
  have hsuits := Policy.suits_calling r
  refine ⟨fun d e he => ⟨fun c b args hc hcall => ?_, he.rejects hr⟩,
    fun g hg => ⟨hg.engaged.chains, fun c b args hc hcall => ?_⟩⟩
  · exact ((hsuits.covers hr he).worksOn hc).2.invokes hcall
  · obtain ⟨log, hcursor⟩ := hsuits.takesUp hr hg hc
    exact hcursor.2.invokes hcall

/-! ## An instance -/

def askRule : Rule :=
  .make [.pattern ⟨.named "p", .iri "asks", .named "q"⟩]
    [.rule (.make [.pattern ⟨.named "x", .named "q", .named "v"⟩, .call "isLiteral" [.named "v"]]
        [.pattern ⟨.named "x", .named "p", .named "v"⟩] .backward),
      .rule (.make [.pattern ⟨.named "x", .named "q", .named "v"⟩]
        [.pattern ⟨.named "x", .named "p", .named "z"⟩] .backward)] .forward

def ask : CheckedRule :=
  ⟨askRule, [.pattern ⟨.var ⟨"p", 0⟩, .iri "asks", .var ⟨"q", 1⟩⟩]⟩

def askReasoner : Reasoner := ⟨(RuleBase.empty .standard).add ask, {}, .empty⟩

theorem built_askReasoner : askReasoner.Built := by
  have hmade : ∀ q ∈ [askRule], q.IsMade := by
    intro q hq
    rw [List.mem_singleton.mp hq]
    exact ⟨_, _, _, none, rfl⟩
  have hbuild : Reasoner.build .standard [askRule] {} = .ok askReasoner := rfl
  exact .build hmade hbuild

def askBound : Option InferenceGraph :=
  match askReasoner.bind 100 (.ofList [⟨.iri "label", .iri "asks", .iri "name"⟩,
      ⟨.iri "ann", .iri "name", .plain "Ann"⟩]) 0 with
  | some (.ok g, _) => some g
  | _ => none

/-- One nested rule is installed and the other is turned down.  The one that is installed proves
that Ann has a label, with a call on one argument. -/
theorem ask_calls_settled : ∃ g, askBound = some g ∧ g.forward.installed.rules.length = 1 ∧
    g.forward.rejected.length = 1 ∧
    (∀ f ∈ g.forward.rejected, f.code = .malformedRule ∨ f.code = .unsafeVariable) ∧
    (g.query 100 ⟨.named "x", .iri "label", .named "v"⟩ 0).map (·.value) =
      some (.ok [⟨.iri "ann", .iri "label", .plain "Ann"⟩]) ∧
    ∀ c b args, g.TakesUp c → c.Invokes b args → Registry.standard.Takes b args := by
  have hrun : askBound.any fun g => decide (g.forward.installed.rules.length = 1) &&
      (decide (g.forward.rejected.length = 1) &&
        (g.query 100 ⟨.named "x", .iri "label", .named "v"⟩ 0).map (·.value) ==
          some (.ok [⟨.iri "ann", .iri "label", .plain "Ann"⟩])) := by
    decide +kernel
  simp only [Option.any_eq_true, Bool.and_eq_true, beq_iff_eq, decide_eq_true_eq] at hrun
  obtain ⟨g, hg, hinstalled, hrejected, hquery⟩ := hrun
  have hhistory : InferenceGraph.History askReasoner g := by
    unfold askBound at hg
    split at hg
    · rename_i hbind
      cases hg
      exact .bind (Store.built_ofList (by decide)) hbind
    · cases hg
  obtain ⟨hforward, hbackward⟩ := calls_settled.2.1 askReasoner built_askReasoner
  obtain ⟨hchains, hcalls⟩ := hbackward g hhistory
  exact ⟨g, hg, hinstalled, hrejected, (hforward _ _ hchains).2, hquery, hcalls⟩

end TripleRules
