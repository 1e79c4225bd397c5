import TripleRules.Proofs.Rule.Call
import TripleRules.Proofs.Rule.Filing
import TripleRules.Proofs.Tabling.LeastModel

/-!
# Independence of the schedule

When builtins are pure, the answers of a complete goal are those that can be derived goal by goal,
without any tables: a rule of the goal makes its calls and reads the derived answers of its
subgoals.  A call may see bindings that come from the goal, so the derivations of a triple depend on
the goal that it answers.  No order of the work enters into them, so two runs that complete a goal
find the same answers for it.
-/

namespace TripleRules

namespace Builtin

def IsDeterministic (b : Builtin) : Prop :=
  ∀ args fresh fresh', (b.run args fresh).1 = (b.run args fresh').1

theorem isDeterministic_ofFun (name : String) (arity : Arity)
    (f : List Term → Except BuiltinError Answer) : (ofFun name arity f).IsDeterministic :=
  fun _ _ _ => rfl

namespace IsDeterministic

variable {b : Builtin}

theorem rule_call_steady (h : b.IsDeterministic) (r : CheckedRule) (args : List Term)
    (env : Bindings) (fresh fresh' : Nat) :
    (r.call b args env fresh).1 = (r.call b args env fresh').1 := by
  rw [r.call_eq, r.call_eq, h _ fresh fresh']

end IsDeterministic

def NeverFatal (b : Builtin) : Prop := ∀ args fresh, Soft (b.run args fresh).1

theorem NeverFatal.rule_call_ne_fault {b : Builtin} (h : b.NeverFatal) (r : CheckedRule)
    (args : List Term) (env : Bindings) (fresh : Nat) (f : Fault) :
    (r.call b args env fresh).1 ≠ .fault f := by
  intro hcall
  obtain ⟨e, hrun, hfatal, -⟩ := CheckedRule.call_fault_iff.mp hcall
  rw [h _ _ e hrun] at hfatal
  cases hfatal

/-- What a call comes to depends on its arguments only, and is no fatal error. -/
structure IsPure (b : Builtin) : Prop where
  steady : ∀ args fresh fresh', (b.run args fresh).1 = (b.run args fresh').1
  soft : ∀ args fresh, Soft (b.run args fresh).1

theorem IsUsual.isPure {b : Builtin} (h : b.IsUsual) : b.IsPure := by
  obtain ⟨f, hrun, husual⟩ := h
  refine ⟨fun args fresh fresh' => ?_, fun args fresh => ?_⟩
  · rw [hrun, hrun]
  · rw [hrun]
    exact (husual args).soft

namespace IsPure

variable {b : Builtin}

theorem isDeterministic (h : b.IsPure) : b.IsDeterministic := h.steady

theorem neverFatal (h : b.IsPure) : b.NeverFatal := h.soft

end IsPure

end Builtin

namespace Tabling

def Context.Pure (ctx : Context) : Prop :=
  ∀ r, ctx.rules.Has r → ∀ b args, .call b args ∈ r.body → b.IsPure

/-! ## Derivations without tables -/

/-- The ways on which the search for answers to a goal sets out. -/
def Begins (ctx : Context) (goal : Triple) (w : Way) : Prop :=
  (ChoicePoint.alternatives (ctx.sources.find goal) (ctx.rules.candidates goal)).Offers goal w

/-- A way of a goal leads to an answer: a pattern reads what can be derived for its own goal. -/
inductive Derives (ctx : Context) : Triple → Way → Triple → Prop
  | fact {g x : Triple} : Derives ctx g (.fact x) x
  | head {g head : Triple} {r : CheckedRule} {env : Bindings} (hhead : r.headPattern? = some head)
      (hground : (env.instantiate head).isGround) (hgoal : g.matches? (env.instantiate head)) :
      Derives ctx g (.cursor r [] env) (env.instantiate head)
  | call {g x : Triple} {r : CheckedRule} {b : Builtin} {args : List Term} {rest : List Premise}
      {env env' : Bindings} {fresh : Nat} (hcall : (r.call b args env fresh).1 = .holds env')
      (h : Derives ctx g (.cursor r rest env') x) :
      Derives ctx g (.cursor r (.call b args :: rest) env) x
  | read {g p x y : Triple} {w : Way} {r : CheckedRule} {rest : List Premise} {env env' : Bindings}
      (hw : Begins ctx (env.instantiate p).normalize w)
      (hy : Derives ctx (env.instantiate p).normalize w y) (hmatch : env.match? p y = some env')
      (h : Derives ctx g (.cursor r rest env') x) :
      Derives ctx g (.cursor r (.pattern p :: rest) env) x

def Answers (ctx : Context) (goal x : Triple) : Prop :=
  ∃ w, Begins ctx goal w ∧ Derives ctx goal w x

theorem Answers.of_mem_find {ctx : Context} {goal x : Triple} (hx : x ∈ ctx.sources.find goal) :
    Answers ctx goal x := ⟨.fact x, hx, .fact⟩

theorem Context.Built.mem_find_normalize {ctx : Context} (hctx : ctx.Built) (pattern x : Triple) :
    x ∈ ctx.sources.find pattern.normalize ↔ x ∈ ctx.sources.find pattern := by
  rw [hctx.sources.mem_find, Triple.normalize_matches?, ← hctx.sources.mem_find]

/-- A rule of a context in progress, all of whose derivations are derivations for the goal. -/
structure Leads (ctx : Context) (goal : Triple) (r : CheckedRule) (rest : List Premise)
    (env : Bindings) : Prop where
  has : ctx.rules.Has r
  suffix : rest <:+ r.body
  answers : ∀ x, Derives ctx goal (.cursor r rest env) x → Answers ctx goal x

namespace Leads

variable {ctx : Context} {goal : Triple} {r : CheckedRule} {rest : List Premise}
  {env env' : Bindings}

theorem mem_body {q : Premise} (h : Leads ctx goal r (q :: rest) env) : q ∈ r.body :=
  h.suffix.subset List.mem_cons_self

theorem isPure {b : Builtin} {args : List Term} (h : Leads ctx goal r (.call b args :: rest) env)
    (hpure : ctx.Pure) : b.IsPure := hpure r h.has b args h.mem_body

theorem read {p y : Triple} (h : Leads ctx goal r (.pattern p :: rest) env)
    (hy : Answers ctx (env.instantiate p).normalize y) (hmatch : env.match? p y = some env') :
    Leads ctx goal r rest env' := by
  obtain ⟨w, hw, hy⟩ := hy
  exact ⟨h.has, (List.suffix_cons _ _).trans h.suffix,
    fun x hx => h.answers x (.read hw hy hmatch hx)⟩

end Leads

def derivation {ctx : Context} (hctx : ctx.Built) : Discipline ctx where
  goal _ := True
  cursor := Leads ctx
  answer := Answers ctx
  fact _ hx := .of_mem_find hx
  start _ hr hstart :=
    ⟨hctx.rules.has_of_mem_candidates hr, List.suffix_refl _, fun _ hx =>
      ⟨.cursor _ _ _, ⟨hr, rfl, hstart⟩, hx⟩⟩
  call h hcall :=
    ⟨h.has, (List.suffix_cons _ _).trans h.suffix,
      fun x hx => h.answers x (.call (congrArg Prod.fst hcall) hx)⟩
  subgoal _ := trivial
  data h hx hmatch := h.read (.of_mem_find ((hctx.mem_find_normalize _ _).mpr hx)) hmatch
  read h hx hmatch := h.read hx hmatch
  head h hhead hground hgoal := h.answers _ (.head hhead hground hgoal)

theorem steady_derivation {ctx : Context} (hctx : ctx.Built) (hpure : ctx.Pure) :
    (derivation hctx).Steady where
  ne_fault h fresh f := (h.isPure hpure).neverFatal.rule_call_ne_fault _ _ _ fresh f
  holds h fresh fresh' _ hcall :=
    ((h.isPure hpure).isDeterministic.rule_call_steady _ _ _ fresh' fresh).trans hcall

/-! ## Completeness -/

theorem Begins.eq_fact {ctx : Context} {goal : Triple} {w : Way}
    (hw : Begins ctx goal.normalize w) (hplain : ctx.rules.isTabled goal = false) :
    ∃ x ∈ ctx.sources.find goal.normalize, w = .fact x := by
  cases w with
  | fact x => exact ⟨x, hw, rfl⟩
  | cursor r rest env =>
      have hr : r ∈ ctx.rules.candidates goal.normalize := hw.1
      rw [RuleView.candidates_normalize] at hr
      have htabled := RuleView.isTabled_of_mem_candidates hr
      rw [hplain] at htabled
      cases htabled

theorem answers_iff_of_plain {ctx : Context} (hctx : ctx.Built) {goal : Triple}
    (hplain : ctx.rules.isTabled goal = false) (x : Triple) :
    Answers ctx goal.normalize x ↔ x ∈ ctx.sources.find goal := by
  constructor
  · rintro ⟨w, hw, hx⟩
    obtain ⟨y, hy, rfl⟩ := hw.eq_fact hplain
    cases hx
    exact (hctx.mem_find_normalize goal x).mp hy
  · exact fun hx => .of_mem_find ((hctx.mem_find_normalize goal x).mpr hx)

namespace Upheld

variable {ctx : Context} {D : Discipline ctx} {t : Tables}

theorem done_of_begins (h : Upheld D t) {id : GeneratorId} (hid : id < t.size)
    (hc : (t.generator id).isComplete) {w : Way} (hw : Begins ctx (t.generator id).goal w) :
    Done ctx t id w := by
  cases w with
  | fact x => exact (h.covered.fact id hid x hw).resolve_right (not_offered hc _)
  | cursor r rest env =>
      obtain ⟨hr, rfl, hstart⟩ := hw
      exact (h.covered.rule id hid r hr env hstart).resolve_right (not_offered hc _)

theorem handled_read (h : Upheld D t) (hctx : ctx.Built) {id : GeneratorId}
    (hc : (t.generator id).isComplete) {r : CheckedRule} {p y : Triple} {rest : List Premise}
    {env env' : Bindings} {w : Way} (hhandled : Handled ctx t id r (.pattern p :: rest) env)
    (hw : Begins ctx (env.instantiate p).normalize w)
    (hy : Derives ctx (env.instantiate p).normalize w y) (hmatch : env.match? p y = some env')
    (hresults : ∀ target < t.size, (t.generator target).isComplete →
      (t.generator target).goal = (env.instantiate p).normalize → Done ctx t target w →
        y ∈ (t.generator target).results) : Handled ctx t id r rest env' := by
  cases htabled : ctx.rules.isTabled (env.instantiate p) with
  | true =>
      obtain ⟨target, htarget, hctarget, hsub, hread⟩ := h.reads_all hc htabled hhandled
      rw [← hsub] at hw
      exact hread y (hresults target htarget hctarget hsub (h.done_of_begins htarget hctarget hw)) _
        hmatch
  | false =>
      have hfind := (answers_iff_of_plain hctx htabled y).mp ⟨w, hw, hy⟩
      exact (hhandled.2 htabled y hfind env' hmatch).resolve_right (not_offered hc _)

/-- A complete goal has the answers of every way that it is done with. -/
theorem mem_results_of_derives (h : Upheld D t) (hctx : ctx.Built) {goal x : Triple} {w : Way}
    (hx : Derives ctx goal w x) :
    ∀ id < t.size, (t.generator id).isComplete → (t.generator id).goal = goal → Done ctx t id w →
      x ∈ (t.generator id).results := by
  induction hx with
  | fact => exact fun id _ _ _ hdone => hdone
  | head hhead hground hmatch =>
      intro id _ _ hgoal hdone
      rw [← hgoal] at hmatch
      exact hdone _ hhead hground hmatch
  | call hcall _ ih => exact fun id hid hc hgoal hdone => ih id hid hc hgoal (hdone.2 _ _ hcall)
  | read hw hy hmatch _ ihy ih =>
      intro id hid hc hgoal hdone
      exact ih id hid hc hgoal (h.handled_read hctx hc hdone hw hy hmatch ihy)

theorem mem_results_iff_answers (h : Upheld D t) (hctx : ctx.Built)
    (hanswer : ∀ g x, D.answer g x → Answers ctx g x) {id : GeneratorId} (hid : id < t.size)
    (hc : (t.generator id).isComplete) (x : Triple) :
    x ∈ (t.generator id).results ↔ Answers ctx (t.generator id).goal x := by
  refine ⟨fun hx => hanswer _ x (h.obeyed.answer id x hx), ?_⟩
  rintro ⟨w, hw, hx⟩
  exact h.mem_results_of_derives hctx hx id hid hc rfl (h.done_of_begins hid hc hw)

end Upheld

/-- The answers of a complete goal are those that can be derived for it. -/
theorem mem_results_iff_answers {ctx : Context} (hctx : ctx.Built) (hpure : ctx.Pure) {t : Tables}
    (ht : Reached ctx t) {id : GeneratorId} (hid : id < t.size)
    (hc : (t.generator id).isComplete) (x : Triple) :
    x ∈ (t.generator id).results ↔ Answers ctx (t.generator id).goal x := by
  have h : Upheld (derivation hctx) t :=
    .reached (steady_derivation hctx hpure) (fun _ => trivial) ht
  exact h.mem_results_iff_answers hctx (fun _ _ hx => hx) hid hc x

/-- The answers of a goal do not depend on the schedule.  Whatever has been asked and pumped in two
runs, a goal that is complete in both has the same answers in both, though perhaps in another
order. -/
theorem results_perm {ctx : Context} (hctx : ctx.Built) (hpure : ctx.Pure) {t t' : Tables}
    (ht : Reached ctx t) (ht' : Reached ctx t') {goal : Triple} {id id' : GeneratorId}
    (hid : t.cache.lookup goal.normalize = some id) (hc : (t.generator id).isComplete)
    (hid' : t'.cache.lookup goal.normalize = some id') (hc' : (t'.generator id').isComplete) :
    (t.generator id).results.toList.Perm (t'.generator id').results.toList := by
  have h : Upheld (derivation hctx) t :=
    .reached (steady_derivation hctx hpure) (fun _ => trivial) ht
  have h' : Upheld (derivation hctx) t' :=
    .reached (steady_derivation hctx hpure) (fun _ => trivial) ht'
  obtain ⟨hlt, hgoal⟩ := (h.linked.cache _ id).mp hid
  obtain ⟨hlt', hgoal'⟩ := (h'.linked.cache _ id').mp hid'
  rw [List.perm_ext_iff_of_nodup (h.recorded.nodup id) (h'.recorded.nodup id')]
  intro x
  rw [Array.mem_toList_iff, Array.mem_toList_iff,
    mem_results_iff_answers hctx hpure ht hlt hc, mem_results_iff_answers hctx hpure ht' hlt' hc',
    hgoal, hgoal']

/-! ## An instance -/

def stepRule : Rule :=
  .make
    [.pattern ⟨.named "x", .iri "before", .named "y"⟩,
      .call "strConcat" [.named "x", .named "y", .named "n"]]
    [.pattern ⟨.named "x", .iri "step", .named "n"⟩] .backward

def strConcat : Builtin := .ofFun "strConcat" (.atLeast 1) Builtin.strConcat

def nameStep : CheckedRule :=
  ⟨stepRule,
    [.pattern ⟨.var ⟨"x", 0⟩, .iri "before", .var ⟨"y", 1⟩⟩,
      .call strConcat [.var ⟨"x", 0⟩, .var ⟨"y", 1⟩, .var ⟨"n", 2⟩]]⟩

theorem check_stepRule : stepRule.check .standard = .ok nameStep := by rfl

def steps : Context where
  sources := circle.sources
  rules := ⟨circle.rules.base, RuleSet.empty.insert nameStep⟩

theorem built_steps : steps.Built where
  sources := built_circle.sources
  rules :=
    { base := built_circle.rules.base
      installed := .insert .empty ⟨_, _, ⟨_, _, _, none, rfl⟩, check_stepRule⟩ rfl }

theorem pure_steps : steps.Pure := by
  rintro r (⟨s, ⟨⟩, hr⟩ | hr) b args hcall
  · rw [List.mem_singleton.mp hr] at hcall
    have hb : b = CheckedRule.notEqual := by simp_all [CheckedRule.before]
    rw [hb]
    exact CheckedRule.isTest_notEqual.isUsual.isPure
  · rw [List.mem_singleton.mp hr] at hcall
    have hb : b = strConcat := by simp_all [nameStep]
    rw [hb]
    exact (Builtin.isUsual_ofFun _ _ fun _ => Builtin.usual_strConcat).isPure

def anyStep : Triple := ⟨.named "x", .iri "step", .named "n"⟩

def stepsOneByOne : Option Outcome :=
  ((Tables.new {}).generatorFor steps anyStep).2.solve 200 steps 0 1 0

def stepsAtOnce : Option Outcome :=
  (((Tables.new {}).generatorFor steps ⟨.iri "a", .iri "before", .named "x"⟩).2.pump 200 steps 0 1
    0).bind fun o => (o.tables.generatorFor steps anyStep).2.solve 200 steps 1 100 0

/-- The goal of all steps has its answers in one order after the one run and in another order after
the other. -/
theorem steps_perm : ∃ o o', stepsOneByOne = some o ∧ stepsAtOnce = some o' ∧
    (o.tables.generator 0).results.toList ≠ (o'.tables.generator 1).results.toList ∧
      (o.tables.generator 0).results.toList.Perm (o'.tables.generator 1).results.toList := by
  have hruns : stepsOneByOne.any fun o => stepsAtOnce.any fun o' =>
      o.tables.cache.lookup anyStep.normalize == some 0 && (o.tables.generator 0).isComplete &&
        (o'.tables.cache.lookup anyStep.normalize == some 1 &&
          (o'.tables.generator 1).isComplete) &&
        (o.tables.generator 0).results.toList != (o'.tables.generator 1).results.toList := by
    decide +kernel
  simp only [Option.any_eq_true, Bool.and_eq_true, beq_iff_eq, bne_iff_ne] at hruns
  obtain ⟨o, ho, o', ho', ⟨⟨hid, hc⟩, hid', hc'⟩, hne⟩ := hruns
  have ht : Reached steps o.tables :=
    ⟨_, Tables.blank_new {}, (Runs.refl.ask anyStep).solve ho⟩
  have ht' : Reached steps o'.tables := by
    obtain ⟨o₁, hpump, hsolve⟩ := Option.bind_eq_some_iff.mp ho'
    exact ⟨_, Tables.blank_new {}, (((Runs.refl.ask _).pump hpump).ask anyStep).solve hsolve⟩
  exact ⟨o, o', ho, ho', hne, results_perm built_steps pure_steps ht ht' hid hc hid' hc'⟩

end Tabling

end TripleRules
