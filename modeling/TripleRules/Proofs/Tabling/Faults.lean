import TripleRules.Proofs.Tabling.Confluence

/-!
# Where faults come from

A pump goes on with whatever is on the agenda, so the fault that it comes to may lie in the rules of
another goal than its own.  When builtins are deterministic, what a goal can come to is fixed before
anything is pumped: its rules lead to a fault or they do not, whatever the order of the work.  A
fault can then be traced back to a goal that has been asked for, and a goal that is complete leads
to none.
-/

namespace TripleRules.Tabling

def Context.Deterministic (ctx : Context) : Prop :=
  ∀ r, ctx.rules.Has r → ∀ b args, .call b args ∈ r.body → b.IsDeterministic

/-- A way leads to a call that comes to a fault, in its own rule or in one for a goal that it asks
for. -/
inductive Breaks (ctx : Context) : Way → Prop where
  | fault {r : CheckedRule} {b : Builtin} {args : List Term} {rest : List Premise} {env : Bindings}
      {fresh : Nat} {f : Fault} (hcall : (r.call b args env fresh).1 = .fault f) :
      Breaks ctx (.cursor r (.call b args :: rest) env)
  | call {r : CheckedRule} {b : Builtin} {args : List Term} {rest : List Premise}
      {env env' : Bindings} {fresh : Nat} (hcall : (r.call b args env fresh).1 = .holds env')
      (h : Breaks ctx (.cursor r rest env')) : Breaks ctx (.cursor r (.call b args :: rest) env)
  | subgoal {r : CheckedRule} {p : Triple} {rest : List Premise} {env : Bindings} {w : Way}
      (hw : Begins ctx (env.instantiate p).normalize w) (h : Breaks ctx w) :
      Breaks ctx (.cursor r (.pattern p :: rest) env)
  | read {r : CheckedRule} {p y : Triple} {rest : List Premise} {env env' : Bindings} {w : Way}
      (hw : Begins ctx (env.instantiate p).normalize w)
      (hy : Derives ctx (env.instantiate p).normalize w y) (hmatch : env.match? p y = some env')
      (h : Breaks ctx (.cursor r rest env')) : Breaks ctx (.cursor r (.pattern p :: rest) env)

theorem Breaks.of_answers {ctx : Context} {r : CheckedRule} {p y : Triple} {rest : List Premise}
    {env env' : Bindings} (hy : Answers ctx (env.instantiate p).normalize y)
    (hmatch : env.match? p y = some env') (h : Breaks ctx (.cursor r rest env')) :
    Breaks ctx (.cursor r (.pattern p :: rest) env) := by
  obtain ⟨w, hw, hy⟩ := hy
  exact .read hw hy hmatch h

def Faulty (ctx : Context) (goal : Triple) : Prop := ∃ w, Begins ctx goal w ∧ Breaks ctx w

theorem not_faulty_of_plain {ctx : Context} {goal : Triple}
    (hplain : ctx.rules.isTabled goal = false) : ¬ Faulty ctx goal.normalize := by
  rintro ⟨w, hw, hbreaks⟩
  obtain ⟨x, -, rfl⟩ := hw.eq_fact hplain
  cases hbreaks

/-! ## Tracing faults -/

theorem Leads.isDeterministic {ctx : Context} {goal : Triple} {r : CheckedRule} {b : Builtin}
    {args : List Term} {rest : List Premise} {env : Bindings}
    (h : Leads ctx goal r (.call b args :: rest) env) (hdet : ctx.Deterministic) :
    b.IsDeterministic := hdet r h.has b args h.mem_body

/-- Answers are derived, and whatever leads to a fault is known to have cause `B`. -/
def tracing {ctx : Context} (hctx : ctx.Built) (B : Prop) : Discipline ctx where
  goal g := Faulty ctx g → B
  cursor g r rest env := Leads ctx g r rest env ∧ (Breaks ctx (.cursor r rest env) → B)
  answer := Answers ctx
  fact _ hx := .of_mem_find hx
  start hgoal hr hstart :=
    ⟨(derivation hctx).start trivial hr hstart,
      fun h => hgoal ⟨.cursor _ _ _, ⟨hr, rfl, hstart⟩, h⟩⟩
  call h hcall :=
    ⟨(derivation hctx).call h.1 hcall, h.2 ∘ .call (congrArg Prod.fst hcall)⟩
  subgoal h := fun ⟨_, hw, hbreaks⟩ => h.2 (.subgoal hw hbreaks)
  data h hx hmatch :=
    ⟨(derivation hctx).data h.1 hx hmatch,
      h.2 ∘ .of_answers (.of_mem_find ((hctx.mem_find_normalize _ _).mpr hx)) hmatch⟩
  read h hx hmatch := ⟨h.1.read hx hmatch, h.2 ∘ .of_answers hx hmatch⟩
  head h hhead hground hgoal := (derivation hctx).head h.1 hhead hground hgoal

theorem repeats_tracing {ctx : Context} (hctx : ctx.Built) (hdet : ctx.Deterministic) (B : Prop) :
    (tracing hctx B).Repeats where
  holds h fresh fresh' _ hcall :=
    ((h.1.isDeterministic hdet).rule_call_steady _ _ _ fresh' fresh).trans hcall
  fault h fresh fresh' f hcall :=
    ⟨f, ((h.1.isDeterministic hdet).rule_call_steady _ _ _ fresh' fresh).trans hcall⟩

/-- When a pump comes to a fault, the fault has the known cause. -/
theorem sustained_tracing {ctx : Context} (hctx : ctx.Built) (hdet : ctx.Deterministic) (B : Prop) :
    Sustained ctx (fun t _ => Upheld (tracing hctx B) t) fun _ => B :=
  Upheld.sustained (repeats_tracing hctx hdet B) fun h hcall => h.2 (.fault hcall)

namespace Upheld

variable {ctx : Context} {D : Discipline ctx} {t : Tables}

theorem widen {hctx : ctx.Built} {B B' : Prop} (h : Upheld (tracing hctx B) t) (hB : B → B') :
    Upheld (tracing hctx B') t :=
  h.mono (fun _ hgoal => hB ∘ hgoal) (fun _ _ _ _ hcursor => hcursor.imp_right (hB ∘ ·))
    fun _ _ hx => hx

theorem not_done_of_breaks (h : Upheld D t) (hctx : ctx.Built) {w : Way} (hw : Breaks ctx w) :
    ∀ id < t.size, (t.generator id).isComplete → ¬ Done ctx t id w := by
  induction hw with
  | fault hcall => exact fun id _ _ hdone => hdone.1 _ _ hcall
  | call hcall _ ih => exact fun id hid hc hdone => ih id hid hc (hdone.2 _ _ hcall)
  | @subgoal r p rest env w hw hbreaks ih =>
      intro id _ hc hdone
      cases htabled : ctx.rules.isTabled (env.instantiate p) with
      | true =>
          -- The goal of the pattern is complete, too, and so is done with the way.
          obtain ⟨target, htarget, hctarget, hsub, -⟩ := h.reads_all hc htabled hdone
          rw [← hsub] at hw
          exact ih target htarget hctarget (h.done_of_begins htarget hctarget hw)
      | false => exact not_faulty_of_plain htabled ⟨w, hw, hbreaks⟩
  | read hw hy hmatch _ ih =>
      intro id hid hc hdone
      apply ih id hid hc
      exact h.handled_read hctx hc hdone hw hy hmatch (h.mem_results_of_derives hctx hy)

/-- A goal that is complete leads to no fault. -/
theorem not_faulty (h : Upheld D t) (hctx : ctx.Built) {id : GeneratorId} (hid : id < t.size)
    (hc : (t.generator id).isComplete) : ¬ Faulty ctx (t.generator id).goal := by
  rintro ⟨w, hw, hbreaks⟩
  exact h.not_done_of_breaks hctx hbreaks id hid hc (h.done_of_begins hid hc hw)

end Upheld

end TripleRules.Tabling
