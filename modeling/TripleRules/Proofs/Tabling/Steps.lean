import TripleRules.Proofs.Tabling.Scheduling

/-!
# Steps of the backward engine

What one step of the engine can do, said once as a relation between tables.  A step arranges turns,
or it takes a way from the choice on top of a search and goes on with it until it lands: as an
answer, in a suspended rule, in a new choice, or nowhere.
-/

namespace TripleRules.Tabling

/-- A way out of an open choice: a triple at hand, or a rule with the clauses still to come. -/
inductive Way where
  | fact (x : Triple)
  | cursor (rule : CheckedRule) (rest : List Premise) (env : Bindings)

def Suspension.way (s : Suspension) (env : Bindings) : Way := .cursor s.rule s.rest env

/-- The choice on top of the search of a generator loses a way; some ways fit nothing. -/
inductive Takes (t : Tables) (id : GeneratorId) : Option Way → Tables → Prop where
  | fact {x : Triple} {facts : List Triple} {rules : List CheckedRule} {below : List ChoicePoint}
      (h : (t.generator id).stack = .alternatives (x :: facts) rules :: below) :
      Takes t id (some (.fact x)) (t.replaceTop id (.alternatives facts rules))
  | start {r : CheckedRule} {rules : List CheckedRule} {below : List ChoicePoint}
      (h : (t.generator id).stack = .alternatives [] (r :: rules) :: below) :
      Takes t id ((r.start? (t.generator id).goal).map (.cursor r r.body))
        (t.replaceTop id (.alternatives [] rules))
  | data {s : Suspension} {x : Triple} {left : List Triple} {below : List ChoicePoint}
      (h : (t.generator id).stack = .data s (x :: left) :: below) :
      Takes t id ((s.env.match? s.pattern x).map s.way) (t.replaceTop id (.data s left))
  | read {f : FrameId} {x : Triple} {below : List ChoicePoint}
      (h : (t.generator id).stack = .consume f :: below)
      (hx : (t.generator (t.frame f).target).results[(t.frame f).nextResult]? = some x) :
      Takes t id (((t.frame f).continuation.env.match? (t.frame f).continuation.pattern x).map
        (t.frame f).continuation.way)
        (t.modifyFrame f fun f => { f with nextResult := f.nextResult + 1 })

namespace Tables

def pushChoice (t : Tables) (id : GeneratorId) (c : ChoicePoint) : Tables :=
  t.modifySearch id fun s => { s with stack := c :: s.stack }

def popChoice (t : Tables) (id : GeneratorId) : Tables :=
  t.modifySearch id fun s => { s with stack := s.stack.tail }

def takeReady (t : Tables) (id : GeneratorId) : Tables :=
  t.modifySearch id fun s =>
    { s with stack := s.ready.head?.toList.map .consume, ready := s.ready.tail }

def retire (t : Tables) (id : FrameId) : Tables :=
  t.modifyFrame id fun f =>
    { f with pending := false,
             finished := f.finished || (t.generator (t.frame id).target).isComplete }

end Tables

/-- Where a way of a goal leads, and what it leaves in the tables. -/
inductive Lands (ctx : Context) (id : GeneratorId) : Way → Tables → Tables → Prop where
  | known {x : Triple} {t : Tables} (h : x ∈ (t.generator id).known) : Lands ctx id (.fact x) t t
  | new {x : Triple} {t : Tables} {d : Option Derivation} (h : x ∉ (t.generator id).known) :
      Lands ctx id (.fact x) t (t.addResult id x d).2
  | answer {r : CheckedRule} {env : Bindings} {head : Triple} {t t' : Tables}
      (hhead : r.headPattern? = some head) (hground : (env.instantiate head).isGround)
      (hgoal : (t.generator id).goal.matches? (env.instantiate head))
      (h : Lands ctx id (.fact (env.instantiate head)) t t') :
      Lands ctx id (.cursor r [] env) t t'
  | barren {r : CheckedRule} {env : Bindings} {t : Tables}
      (h : ∀ head, r.headPattern? = some head → (env.instantiate head).isGround →
        ¬ (t.generator id).goal.matches? (env.instantiate head)) :
      Lands ctx id (.cursor r [] env) t t
  | holds {r : CheckedRule} {b : Builtin} {args : List Term} {rest : List Premise}
      {env env' : Bindings} {fresh fresh' : Nat} {t t' : Tables}
      (hcall : r.call b args env fresh = (.holds env', fresh'))
      (h : Lands ctx id (.cursor r rest env') t t') :
      Lands ctx id (.cursor r (.call b args :: rest) env) t t'
  | refused {r : CheckedRule} {b : Builtin} {args : List Term} {rest : List Premise}
      {env : Bindings} {t : Tables} (failures : List BuiltinFailure) (fresh : Nat)
      (hcall : ∀ env', (r.call b args env fresh).1 ≠ .holds env')
      (hsound : ∀ f, (r.call b args env fresh).1 ≠ .fault f) :
      Lands ctx id (.cursor r (.call b args :: rest) env) t { t with failures := failures }
  | suspended {r : CheckedRule} {p : Triple} {rest : List Premise} {env : Bindings}
      {premises : List Triple} {t : Tables} (h : ctx.rules.isTabled (env.instantiate p)) :
      Lands ctx id (.cursor r (.pattern p :: rest) env) t
        ((t.generatorFor ctx (env.instantiate p)).2.suspend
          (t.generatorFor ctx (env.instantiate p)).1 id ⟨r, env, p, rest, premises⟩)
  | opened {r : CheckedRule} {p : Triple} {rest : List Premise} {env : Bindings}
      {premises : List Triple} {t : Tables}
      (h : ctx.rules.isTabled (env.instantiate p) = false) :
      Lands ctx id (.cursor r (.pattern p :: rest) env) t
        (t.pushChoice id
          (.data ⟨r, env, p, rest, premises⟩ (ctx.sources.find (env.instantiate p))))

/-- Between two steps: the tables and the turn that is being taken. -/
inductive Move (ctx : Context) : Tables → Option Turn → Tables → Option Turn → Prop where
  /-- The next turn begins. -/
  | start {t : Tables} {id : GeneratorId} {agenda : List GeneratorId}
      (h : t.agenda = id :: agenda) :
      Move ctx t none (t.beginTurn id agenda) (some ⟨id, (t.generator id).results.size, 0⟩)
  /-- The goal has all its answers. -/
  | idle {t : Tables} {turn : Turn} (h : (t.generator turn.id).isComplete) :
      Move ctx t (some turn) t none
  /-- Enough answers have been found. -/
  | yield {t : Tables} {turn : Turn} (hc : (t.generator turn.id).isComplete = false)
      (h : 0 < turn.produced) : Move ctx t (some turn) (t.yieldTurn turn) none
  /-- Only suspended rules are left. -/
  | block {t : Tables} {turn : Turn} (hc : (t.generator turn.id).isComplete = false)
      (h : (t.generator turn.id).hasWork = false) (hlive : t.hasLiveFrames turn.id) :
      Move ctx t (some turn) (t.blockTurn turn) none
  /-- Nothing is left. -/
  | finish {t : Tables} {turn : Turn} (hc : (t.generator turn.id).isComplete = false)
      (h : (t.generator turn.id).hasWork = false) (hlive : t.hasLiveFrames turn.id = false) :
      Move ctx t (some turn) (t.finishTurn turn) none
  /-- A suspended rule is about to read on. -/
  | take {t : Tables} {turn : Turn} {f : FrameId} {ready : List FrameId}
      (hstack : (t.generator turn.id).stack = []) (h : (t.generator turn.id).ready = f :: ready) :
      Move ctx t (some turn) (t.takeReady turn.id) (some turn)
  /-- A choice has no ways left. -/
  | drop {t : Tables} {turn : Turn} {c : ChoicePoint} {below : List ChoicePoint}
      (h : (t.generator turn.id).stack = c :: below)
      (hc : c = .alternatives [] [] ∨ ∃ s, c = .data s []) :
      Move ctx t (some turn) (t.popChoice turn.id) (some turn)
  /-- A suspended rule has read all there is. -/
  | retire {t : Tables} {turn : Turn} {f : FrameId} {below : List ChoicePoint}
      (h : (t.generator turn.id).stack = .consume f :: below)
      (hread : (t.generator (t.frame f).target).results.size ≤ (t.frame f).nextResult) :
      Move ctx t (some turn) ((t.retire f).popChoice turn.id) (some turn)
  /-- A way fits nothing. -/
  | pass {t t' : Tables} {turn : Turn} (h : Takes t turn.id none t') :
      Move ctx t (some turn) t' (some turn)
  /-- A way is gone. -/
  | land {t t₁ t' : Tables} {turn turn' : Turn} {w : Way} (h : Takes t turn.id (some w) t₁)
      (hland : Lands ctx turn.id w t₁ t') (hid : turn'.id = turn.id)
      (hbefore : turn'.before = turn.before)
      (hproduced : turn'.produced + (t.generator turn.id).results.size =
        turn.produced + (t'.generator turn.id).results.size) :
      Move ctx t (some turn) t' (some turn')
  /-- A goal is looked through for work or for its end. -/
  | check {t : Tables} {target : GeneratorId} (h : t.agenda = [])
      (hc : (t.generator target).isComplete = false) :
      Move ctx t none (t.checkCompletion target) none

namespace Takes

variable {t t' : Tables} {id : GeneratorId} {w : Option Way}

theorem size (h : Takes t id w t') : t'.size = t.size := by
  cases h with
  | fact | start | data => exact t.size_modifySearch id _
  | read => rfl

theorem goal (h : Takes t id w t') (j : GeneratorId) :
    (t.generator j).goal = (t'.generator j).goal := by
  cases h with
  | fact | start | data => exact (t.goal_modifySearch id _ j).symm
  | read => rfl

theorem results (h : Takes t id w t') (j : GeneratorId) :
    (t'.generator j).results = (t.generator j).results := by
  cases h with
  | fact | start | data => exact t.results_modifySearch id _ j
  | read => rfl

theorem isComplete_eq (h : Takes t id w t') (j : GeneratorId) :
    (t'.generator j).isComplete = (t.generator j).isComplete := by
  cases h with
  | fact | start | data => exact t.isComplete_modifySearch id _ j
  | read => rfl

theorem isComplete (h : Takes t id w t') : (t.generator id).isComplete = false := by
  apply Generator.isComplete_of_stack_ne_nil
  cases h with
  | fact h | start h | data h | read h =>
      rw [h]
      exact List.cons_ne_nil _ _

end Takes

/-! ## Every step is one of these -/

theorem search_any_known (g : Generator) (x : Triple) :
    g.search.any (·.known.contains x) ↔ x ∈ g.known := by
  cases hs : g.search with
  | none => simp [Generator.known, hs]
  | some s => simp [Generator.known, hs]

namespace Tables

theorem modifySearch_congr {t : Tables} {id : GeneratorId} {s : Search}
    (hs : (t.generator id).search = some s) {f g : Search → Search} (h : f s = g s) :
    t.modifySearch id f = t.modifySearch id g := by
  have hlt : id < t.generators.size :=
    lt_size_of_isComplete_eq_false (Generator.isComplete_of_some hs)
  have hget : t.generators[id] = t.generator id := by
    rw [generator, Array.getD_eq_getD_getElem?, Array.getElem?_eq_getElem hlt, Option.getD_some]
  unfold modifySearch modifyGenerator
  congr 1
  apply Array.ext
  · simp
  · intro i hi _
    rw [Array.getElem_modify, Array.getElem_modify]
    split
    · rename_i hid
      subst hid
      rw [hget, hs, Option.map_some, Option.map_some, h]
    · rfl

def pushAnswer (t : Tables) (id : GeneratorId) (x : Triple) : Tables :=
  t.modifyGenerator id fun g =>
    { g with
      results := g.results.push x
      search := g.search.map fun s => { s with known := x :: s.known } }

theorem pushAnswer_keeps {β : Type} (t : Tables) (part : Generator → β)
    (hpart : ∀ (g : Generator) (rs : Array Triple) (f : Search → Search),
      (∀ s, (f s).stack = s.stack ∧ (f s).ready = s.ready) →
      part { g with results := rs, search := g.search.map f } = part g)
    (id : GeneratorId) (x : Triple) (j : GeneratorId) :
    part ((t.pushAnswer id x).generator j) = part (t.generator j) := by
  refine t.modifyGenerator_keeps part id ?_ j
  exact fun g => hpart g _ _ fun _ => ⟨rfl, rfl⟩

theorem goal_pushAnswer (t : Tables) (id : GeneratorId) (x : Triple) (j : GeneratorId) :
    ((t.pushAnswer id x).generator j).goal = (t.generator j).goal :=
  t.pushAnswer_keeps (·.goal) (fun _ _ _ _ => rfl) id x j

theorem isComplete_pushAnswer (t : Tables) (id : GeneratorId) (x : Triple) (j : GeneratorId) :
    ((t.pushAnswer id x).generator j).isComplete = (t.generator j).isComplete :=
  t.pushAnswer_keeps (·.isComplete) (fun _ _ _ _ => by simp [Generator.isComplete]) id x j

theorem stack_pushAnswer (t : Tables) (id : GeneratorId) (x : Triple) (j : GeneratorId) :
    ((t.pushAnswer id x).generator j).stack = (t.generator j).stack := by
  refine t.pushAnswer_keeps (·.stack) (fun g rs f hf => ?_) id x j
  cases hs : g.search with
  | none => simp [Generator.stack, hs]
  | some s => simp [Generator.stack, hs, (hf s).1]

theorem ready_pushAnswer (t : Tables) (id : GeneratorId) (x : Triple) (j : GeneratorId) :
    ((t.pushAnswer id x).generator j).ready = (t.generator j).ready := by
  refine t.pushAnswer_keeps (·.ready) (fun g rs f hf => ?_) id x j
  cases hs : g.search with
  | none => simp [Generator.ready, hs]
  | some s => simp [Generator.ready, hs, (hf s).2]

theorem results_pushAnswer (t : Tables) {id : GeneratorId} (h : id < t.size) (x : Triple)
    (j : GeneratorId) :
    ((t.pushAnswer id x).generator j).results =
      if j = id then (t.generator j).results.push x else (t.generator j).results := by
  rw [pushAnswer, generator_modifyGenerator]
  by_cases hj : j = id
  · rw [if_pos ⟨hj, h⟩, if_pos hj]
  · rw [if_neg fun h => hj h.1, if_neg hj]

theorem settles_addResult {t : Tables} {id : GeneratorId} {x : Triple}
    (h : x ∉ (t.generator id).known) (d : Option Derivation) :
    Settles [] (t.pushAnswer id x) (t.addResult id x d).2 := by
  unfold addResult
  rw [if_neg (by rw [search_any_known]; exact h)]
  have hcount := (t.pushAnswer id x).settles_count fun s => { s with answers := s.answers + 1 }
  cases d with
  | none => exact hcount
  | some d => exact hcount.trans (.of_eq rfl rfl rfl)

theorem results_addResult (t : Tables) {id : GeneratorId} (hid : id < t.size) (x : Triple)
    (d : Option Derivation) :
    ((t.addResult id x d).2.generator id).results =
      if (t.generator id).search.any (·.known.contains x) then (t.generator id).results
      else (t.generator id).results.push x := by
  unfold addResult
  split
  · rfl
  · cases d
    all_goals
      exact congrArg Generator.results (t.generator_modifyGenerator_self _ hid)

theorem fst_addResult (t : Tables) (id : GeneratorId) (x : Triple) (d : Option Derivation) :
    (t.addResult id x d).1 = !(t.generator id).search.any (·.known.contains x) := by
  unfold addResult
  split
  · rename_i h
    rw [h]
    rfl
  · rename_i h
    rw [Bool.not_eq_true] at h
    rw [h]
    cases d <;> rfl

end Tables

theorem offer_eq (ctx : Context) {t : Tables} {turn : Turn}
    (hid : turn.id < t.size) (x : Triple) (d : Option Derivation) (fresh : Nat)
    (old : Option Turn) :
    ∃ t' turn', Machine.offer ⟨t, fresh, old⟩ turn x d = ⟨t', fresh, some turn'⟩ ∧
      Lands ctx turn.id (.fact x) t t' ∧ turn'.id = turn.id ∧ turn'.before = turn.before ∧
      turn'.produced + (t.generator turn.id).results.size =
        turn.produced + (t'.generator turn.id).results.size := by
  have hfst := t.fst_addResult turn.id x d
  have hresults := t.results_addResult hid x d
  unfold Machine.offer
  by_cases hknown : (t.generator turn.id).search.any (·.known.contains x)
  · rw [hknown] at hfst
    have htables : (t.addResult turn.id x d).2 = t := by
      rw [Tables.addResult, if_pos hknown]
    refine ⟨t, turn, ?_, .known ((search_any_known _ x).mp hknown), rfl, rfl, rfl⟩
    dsimp only
    split
    · rename_i t' heq
      rw [heq] at hfst
      cases hfst
    · rename_i t' heq
      rw [heq] at htables
      exact congrArg (Machine.mk · fresh (some turn)) htables
  · rw [if_neg hknown] at hresults
    rw [Bool.not_eq_true] at hknown
    rw [hknown] at hfst
    refine ⟨(t.addResult turn.id x d).2, { turn with produced := turn.produced + 1 }, ?_,
      .new ?_, rfl, rfl, ?_⟩
    · dsimp only
      split
      · rename_i t' heq
        rw [heq]
      · rename_i t' heq
        rw [heq] at hfst
        cases hfst
    · rw [← search_any_known, hknown]
      exact Bool.false_ne_true
    · show turn.produced + 1 + _ = _
      rw [hresults, Array.size_push]
      omega

theorem size_le_generatorFor (t : Tables) (ctx : Context) (goal : Triple) :
    t.size ≤ (t.generatorFor ctx goal).2.size := by
  rcases t.settles_generatorFor ctx goal with hs | ⟨-, hs⟩
  · exact Nat.le_of_eq hs.size.symm
  · rw [hs.size, t.size_addGenerator]
    exact Nat.le_succ _

theorem results_generatorFor (t : Tables) (ctx : Context) (goal : Triple) {j : GeneratorId}
    (h : j < t.size) :
    ((t.generatorFor ctx goal).2.generator j).results = (t.generator j).results := by
  rcases t.settles_generatorFor ctx goal with hs | ⟨-, hs⟩
  · exact hs.results j
  · rw [hs.results, t.generator_addGenerator_of_lt ctx _ h]

theorem goal_generatorFor (t : Tables) (ctx : Context) (goal : Triple) {j : GeneratorId}
    (h : j < t.size) :
    ((t.generatorFor ctx goal).2.generator j).goal = (t.generator j).goal := by
  rcases t.settles_generatorFor ctx goal with hs | ⟨-, hs⟩
  · exact hs.goal j
  · rw [hs.goal, t.generator_addGenerator_of_lt ctx _ h]

theorem results_suspend (t : Tables) (target owner : GeneratorId) (s : Suspension)
    (j : GeneratorId) :
    ((t.suspend target owner s).generator j).results = (t.generator j).results := by
  obtain ⟨f, heq⟩ := t.suspend_eq target owner s
  have hlink := t.results_link target owner s j
  rw [heq]
  split
  · rw [Tables.results_modifySearch]
    exact hlink
  · exact hlink

theorem size_suspend (t : Tables) (target owner : GeneratorId) (s : Suspension) :
    (t.suspend target owner s).size = t.size := by
  obtain ⟨f, heq⟩ := t.suspend_eq target owner s
  have hlink := t.size_link target owner s
  rw [heq]
  split
  · rw [Tables.size_modifySearch]
    exact hlink
  · exact hlink

theorem agenda_suspend (t : Tables) (target owner : GeneratorId) (s : Suspension) :
    (t.suspend target owner s).agenda = t.agenda := by
  obtain ⟨f, heq⟩ := t.suspend_eq target owner s
  rw [heq]
  split <;> rfl

theorem isComplete_suspend (t : Tables) (target owner : GeneratorId) (s : Suspension)
    (j : GeneratorId) :
    ((t.suspend target owner s).generator j).isComplete = (t.generator j).isComplete := by
  obtain ⟨f, heq⟩ := t.suspend_eq target owner s
  have hlink := t.isComplete_link target owner s j
  rw [heq]
  split
  · rw [Tables.isComplete_modifySearch]
    exact hlink
  · exact hlink

theorem isComplete_generatorFor (t : Tables) (ctx : Context) (goal : Triple) {j : GeneratorId}
    (h : j < t.size) :
    ((t.generatorFor ctx goal).2.generator j).isComplete = (t.generator j).isComplete := by
  have hset : ∀ {t t' : Tables}, Settles [] t t' →
      (t'.generator j).isComplete = (t.generator j).isComplete := by
    intro t t' hs
    rw [Bool.eq_iff_iff, hs.isComplete]
    simp
  rcases t.settles_generatorFor ctx goal with hs | ⟨-, hs⟩
  · exact hset hs
  · rw [hset hs, t.generator_addGenerator_of_lt ctx _ h]

theorem Lands.isComplete_eq {ctx : Context} {id : GeneratorId} {w : Way} {t t' : Tables}
    (h : Lands ctx id w t t') {j : GeneratorId} (hj : j < t.size) :
    (t'.generator j).isComplete = (t.generator j).isComplete := by
  induction h with
  | known | barren => rfl
  | @new x t d hnew =>
      have hs := Tables.settles_addResult hnew d
      rw [Bool.eq_iff_iff, hs.isComplete, t.isComplete_pushAnswer]
      simp
  | answer _ _ _ _ ih => exact ih hj
  | holds _ _ ih => exact ih hj
  | refused => rfl
  | @suspended r p rest env premises t _ =>
      have hsuspend := isComplete_suspend (t.generatorFor ctx (env.instantiate p)).2
        (t.generatorFor ctx (env.instantiate p)).1 id ⟨r, env, p, rest, premises⟩ j
      exact hsuspend.trans (isComplete_generatorFor t ctx _ hj)
  | opened => exact Tables.isComplete_modifySearch _ _ _ _

theorem frame_suspend (t : Tables) (target owner : GeneratorId) (s : Suspension) (f : FrameId) :
    (t.suspend target owner s).frame f =
      if f = t.frames.size then ⟨target, owner, s, 0, t.readable target, false⟩
      else t.frame f := by
  obtain ⟨g, heq⟩ := t.suspend_eq target owner s
  rw [heq, ← t.frame_link]
  split <;> rfl

theorem frames_suspend (t : Tables) (target owner : GeneratorId) (s : Suspension) :
    (t.suspend target owner s).frames.size = t.frames.size + 1 := by
  obtain ⟨g, heq⟩ := t.suspend_eq target owner s
  rw [heq, ← t.frames_link target owner s]
  split <;> rfl

inductive Proceeds (ctx : Context) (id : GeneratorId) (goal : Triple) (r : CheckedRule)
    (premises : List Triple) (t : Tables) :
    List Premise → Bindings → Nat → Proceeding × Tables × Nat → Prop where
  | answer {head : Triple} {env : Bindings} {fresh : Nat} (hhead : r.headPattern? = some head)
      (hground : (env.instantiate head).isGround) (hgoal : goal.matches? (env.instantiate head)) :
      Proceeds ctx id goal r premises t [] env fresh
        (.answer (env.instantiate head)
          (if t.record then some ⟨r.rule, env.instantiate head, premises⟩ else none), t, fresh)
  | barren {env : Bindings} {fresh : Nat}
      (h : ∀ head, r.headPattern? = some head → (env.instantiate head).isGround →
        ¬ goal.matches? (env.instantiate head)) :
      Proceeds ctx id goal r premises t [] env fresh (.nothing, t, fresh)
  | holds {b : Builtin} {args : List Term} {rest : List Premise} {env env' : Bindings}
      {fresh fresh' : Nat} {result : Proceeding × Tables × Nat}
      (hcall : r.call b args env fresh = (.holds env', fresh'))
      (h : Proceeds ctx id goal r premises t rest env' fresh' result) :
      Proceeds ctx id goal r premises t (.call b args :: rest) env fresh result
  | refused {b : Builtin} {args : List Term} {rest : List Premise} {env : Bindings}
      {fresh fresh' : Nat} (failures : List BuiltinFailure)
      (hholds : ∀ env', (r.call b args env fresh).1 ≠ .holds env')
      (hfault : ∀ f, (r.call b args env fresh).1 ≠ .fault f) :
      Proceeds ctx id goal r premises t (.call b args :: rest) env fresh
        (.nothing, { t with failures := failures }, fresh')
  | fault {b : Builtin} {args : List Term} {rest : List Premise} {env : Bindings}
      {fresh fresh' : Nat} {f : Fault} (hcall : r.call b args env fresh = (.fault f, fresh')) :
      Proceeds ctx id goal r premises t (.call b args :: rest) env fresh (.fault f, t, fresh')
  | suspended {p : Triple} {rest : List Premise} {env : Bindings} {fresh : Nat}
      (htabled : ctx.rules.isTabled (env.instantiate p)) :
      Proceeds ctx id goal r premises t (.pattern p :: rest) env fresh
        (.nothing, (t.generatorFor ctx (env.instantiate p)).2.suspend
          (t.generatorFor ctx (env.instantiate p)).1 id ⟨r, env, p, rest, premises⟩, fresh)
  | opened {p : Triple} {rest : List Premise} {env : Bindings} {fresh : Nat}
      (htabled : ctx.rules.isTabled (env.instantiate p) = false) :
      Proceeds ctx id goal r premises t (.pattern p :: rest) env fresh
        (.nothing, t.modifySearch id fun s => { s with
          stack := .data ⟨r, env, p, rest, premises⟩ (ctx.sources.find (env.instantiate p)) ::
            s.stack }, fresh)

theorem proceeds (ctx : Context) (id : GeneratorId) (goal : Triple) (r : CheckedRule)
    (rest : List Premise) (env : Bindings) (premises : List Triple) (t : Tables) (fresh : Nat) :
    Proceeds ctx id goal r premises t rest env fresh
      (proceed ctx id goal r rest env premises t fresh) := by
  induction rest generalizing env fresh with
  | nil =>
      unfold proceed
      split
      · rename_i hhead
        refine .barren fun head h => ?_
        rw [hhead] at h
        cases h
      · rename_i head hhead
        dsimp only
        split
        · rename_i h
          rw [Bool.and_eq_true] at h
          exact .answer hhead h.1 h.2
        · rename_i h
          refine .barren fun head' hhead' hground hgoal => h ?_
          rw [hhead, Option.some.injEq] at hhead'
          rw [hhead', hground, hgoal]
          rfl
  | cons q rest ih =>
      cases q with
      | call b args =>
          unfold proceed
          split
          · rename_i hcall
            exact .holds hcall (ih _ _)
          · rename_i hcall
            refine .refused t.failures (fun env' h => ?_) fun f h => ?_
            all_goals
              rw [hcall] at h
              cases h
          · rename_i f _ hcall
            refine .refused (t.failures ++ [f]) (fun env' h => ?_) fun f h => ?_
            all_goals
              rw [hcall] at h
              cases h
          · rename_i hcall
            exact .fault hcall
      | pattern p =>
          unfold proceed
          dsimp only
          split
          · rename_i htabled
            have hsuspended : Proceeds ctx id goal r premises t (.pattern p :: rest) env fresh _ :=
              .suspended htabled
            unfold Tables.suspend at hsuspended
            dsimp only at hsuspended
            split
            · rename_i hready
              rw [if_pos hready] at hsuspended
              exact hsuspended
            · rename_i hready
              rw [if_neg hready] at hsuspended
              exact hsuspended
          · rename_i htabled
            exact .opened (Bool.eq_false_iff.mpr htabled)

def Follows (ctx : Context) (id : GeneratorId) (w : Way) (t : Tables) :
    Proceeding × Tables × Nat → Prop
  | (.answer x _, t', _) => t' = t ∧ ∀ t'', Lands ctx id (.fact x) t t'' → Lands ctx id w t t''
  | (.nothing, t', _) =>
    Lands ctx id w t t' ∧ (t'.generator id).results = (t.generator id).results
  | (.fault _, _, _) => True

theorem proceed_follows (ctx : Context) {id : GeneratorId} {t : Tables} (hid : id < t.size)
    (r : CheckedRule)
    (rest : List Premise) (env : Bindings) (premises : List Triple) (fresh : Nat) :
    Follows ctx id (.cursor r rest env) t
      (proceed ctx id (t.generator id).goal r rest env premises t fresh) := by
  have hproceeds := proceeds ctx id (t.generator id).goal r rest env premises t fresh
  generalize proceed ctx id (t.generator id).goal r rest env premises t fresh = result
      at hproceeds ⊢
  induction hproceeds with
  | answer hhead hground hgoal =>
      exact ⟨rfl, fun t'' hland => .answer hhead hground hgoal hland⟩
  | barren hbarren => exact ⟨.barren hbarren, rfl⟩
  | @holds b args rest env env' fresh fresh' result hcall _ ih =>
      unfold Follows at ih ⊢
      split
      · exact ⟨ih.1, fun t'' hland => .holds hcall (ih.2 t'' hland)⟩
      · exact ⟨.holds hcall ih.1, ih.2⟩
      · trivial
  | @refused b args rest env fresh fresh' failures hholds hfault =>
      exact ⟨.refused failures fresh
        (fun env' heq => hholds env' heq) fun f heq => hfault f heq, rfl⟩
  | fault => trivial
  | @suspended p rest env fresh htabled =>
      have hresults := (results_suspend (t.generatorFor ctx (env.instantiate p)).2
        (t.generatorFor ctx (env.instantiate p)).1 id ⟨r, env, p, rest, premises⟩ id).trans
        (results_generatorFor t ctx _ hid)
      exact ⟨.suspended htabled, hresults⟩
  | opened htabled => exact ⟨.opened htabled, t.results_modifySearch _ _ _⟩

theorem follow_next {ctx : Context} {m m' : Machine} {turn : Turn} {c : Cursor}
    (hid : turn.id < m.tables.size)
    (h : Machine.follow ctx m turn (m.tables.generator turn.id).goal c = .next m') :
    ∃ turn', m'.turn = some turn' ∧
      Lands ctx turn.id (.cursor c.rule c.rest c.env) m.tables m'.tables ∧ turn'.id = turn.id ∧
      turn'.before = turn.before ∧
      turn'.produced + (m.tables.generator turn.id).results.size =
        turn.produced + (m'.tables.generator turn.id).results.size := by
  have hproceed := proceed_follows ctx hid c.rule c.rest c.env
    c.premises m.fresh
  unfold Machine.follow at h
  split at h
  · rename_i x d t fresh heq
    rw [heq] at hproceed
    obtain ⟨rfl, hland⟩ := hproceed
    obtain ⟨t', turn', hoffer, hfact, hrest⟩ :=
      offer_eq ctx hid x d fresh (some turn)
    rw [hoffer] at h
    cases h
    exact ⟨turn', rfl, hland t' hfact, hrest⟩
  · rename_i t fresh heq
    rw [heq] at hproceed
    cases h
    exact ⟨turn, rfl, hproceed.1, rfl, rfl, by rw [hproceed.2]⟩
  · cases h

theorem move_of_follow {ctx : Context} {t : Tables} {m m' : Machine} {turn : Turn} {c : Cursor}
    (htake : Takes t turn.id (some (.cursor c.rule c.rest c.env)) m.tables)
    (hid : turn.id < t.size)
    (h : Machine.follow ctx m turn (t.generator turn.id).goal c = .next m') :
    Move ctx t (some turn) m'.tables m'.turn := by
  rw [htake.goal turn.id] at h
  obtain ⟨turn', hturn, hland, hid', hbefore, hproduced⟩ := follow_next (htake.size ▸ hid) h
  rw [hturn]
  rw [htake.results] at hproduced
  exact .land htake hland hid' hbefore hproduced

theorem move_of_offer {ctx : Context} {t : Tables} {m : Machine} {turn : Turn} {x : Triple}
    (htake : Takes t turn.id (some (.fact x)) m.tables) (hid : turn.id < t.size) :
    Move ctx t (some turn) (Machine.offer m turn x none).tables
      (Machine.offer m turn x none).turn := by
  obtain ⟨t', turn', hoffer, hland, hid', hbefore, hproduced⟩ :=
    offer_eq ctx (htake.size ▸ hid : turn.id < m.tables.size) x none m.fresh m.turn
  rw [hoffer]
  rw [htake.results] at hproduced
  exact .land htake hland hid' hbefore hproduced

def Opens (t : Tables) (id : GeneratorId) (c : ChoicePoint) : Opening × Tables → Prop
  | (.exhausted, t') =>
    t' = t ∧ (c = .alternatives [] [] ∨ ∃ s, c = .data s []) ∨
      ∃ f, c = .consume f ∧ t' = t.retire f ∧
        (t.generator (t.frame f).target).results.size ≤ (t.frame f).nextResult
  | (.unfit, t') => Takes t id none t'
  | (.fact x, t') => Takes t id (some (.fact x)) t'
  | (.resumed c, t') => Takes t id (some (.cursor c.rule c.rest c.env)) t'

theorem resume?_eq (s : Suspension) (x : Triple) (record : Bool) :
    ((s.resume? x record).map fun c => Way.cursor c.rule c.rest c.env) =
      (s.env.match? s.pattern x).map s.way := by
  rw [Suspension.resume?, Option.map_map]
  rfl

theorem openChoice_opens {t : Tables} {id : GeneratorId} {c : ChoicePoint}
    {below : List ChoicePoint} (h : (t.generator id).stack = c :: below) :
    Opens t id c (t.openChoice id (t.generator id).goal c) := by
  cases c with
  | alternatives facts rules =>
      cases facts with
      | cons x facts => exact Takes.fact h
      | nil =>
          cases rules with
          | nil => exact .inl ⟨rfl, .inl rfl⟩
          | cons r rules =>
              have htake := Takes.start h
              unfold Tables.openChoice
              dsimp only
              cases hstart : r.start? (t.generator id).goal with
              | none =>
                  rw [hstart] at htake
                  exact htake
              | some env =>
                  rw [hstart] at htake
                  exact htake
  | data s left =>
      cases left with
      | nil => exact .inl ⟨rfl, .inr ⟨s, rfl⟩⟩
      | cons x left =>
          have htake := Takes.data h
          unfold Tables.openChoice
          dsimp only
          rw [← resume?_eq s x (t.replaceTop id (.data s left)).record] at htake
          cases hres : s.resume? x (t.replaceTop id (.data s left)).record with
          | none =>
              rw [hres] at htake
              exact htake
          | some c =>
              rw [hres] at htake
              exact htake
  | consume f =>
      unfold Tables.openChoice Tables.readAnswer
      dsimp only
      cases hread : (t.generator (t.frame f).target).results[(t.frame f).nextResult]? with
      | none => exact .inr ⟨f, rfl, rfl, Array.getElem?_eq_none_iff.mp hread⟩
      | some x =>
          have htake := Takes.read h hread
          rw [← resume?_eq (t.frame f).continuation x t.record] at htake
          dsimp only
          cases hres : (t.frame f).continuation.resume? x t.record with
          | none =>
              rw [hres] at htake
              exact htake
          | some c =>
              rw [hres] at htake
              exact htake

theorem popChoice_eq {t : Tables} {id : GeneratorId} {s : Search} {c : ChoicePoint}
    {below : List ChoicePoint} (hs : (t.generator id).search = some s)
    (hstack : s.stack = c :: below) :
    t.modifySearch id (fun s => { s with stack := below }) = t.popChoice id :=
  Tables.modifySearch_congr hs (by rw [hstack, List.tail_cons])

theorem turnStep_next {ctx : Context} {limit : Nat} {m m' : Machine} {turn : Turn} {s : Search}
    (hlimit : 1 ≤ limit) (hturn : m.turn = some turn)
    (hs : (m.tables.generator turn.id).search = some s)
    (h : Machine.turnStep ctx limit m turn (m.tables.generator turn.id).goal s = .next m') :
    Move ctx m.tables (some turn) m'.tables m'.turn := by
  have hc := Generator.isComplete_of_some hs
  have hid := Tables.lt_size_of_isComplete_eq_false hc
  have hstack := Generator.stack_of_some hs
  have hready := Generator.ready_of_some hs
  unfold Machine.turnStep at h
  split at h
  · rename_i hle
    cases h
    exact .yield hc (by omega)
  · split at h
    · rename_i f ready hnil hcons
      cases h
      have heq : m.tables.modifySearch turn.id
          (fun s => { s with stack := [.consume f], ready := ready }) =
          m.tables.takeReady turn.id :=
        Tables.modifySearch_congr hs (by rw [hcons]; rfl)
      rw [heq, hturn]
      exact .take (hstack.trans hnil) (hready.trans hcons)
    · rename_i hnil hnil'
      have hwork := (Generator.hasWork_eq_false_iff _).mpr
        ⟨hstack.trans hnil, hready.trans hnil'⟩
      split at h
      · rename_i hlive
        cases h
        exact .block hc hwork hlive
      · rename_i hlive
        cases h
        exact .finish hc hwork (by simpa using hlive)
    · rename_i c below _ hcons
      have hopens := openChoice_opens (hstack.trans hcons)
      split at h
      · rename_i t heq
        rw [heq] at hopens
        cases h
        rw [hturn]
        rcases hopens with ⟨rfl, hempty⟩ | ⟨f, rfl, rfl, hread⟩
        · rw [popChoice_eq hs hcons]
          exact .drop (hstack.trans hcons) hempty
        · rw [popChoice_eq (t := m.tables.retire f) hs hcons]
          exact .retire (hstack.trans hcons) hread
      · rename_i t heq
        rw [heq] at hopens
        cases h
        rw [hturn]
        exact .pass hopens
      · rename_i x t heq
        rw [heq] at hopens
        cases h
        exact move_of_offer (m := { m with tables := t }) hopens hid
      · rename_i c t heq
        rw [heq] at hopens
        exact move_of_follow (m := { m with tables := t }) hopens hid h

/-- Every step that leads on is a move. -/
theorem step_next {ctx : Context} {limit start : Nat} {target : GeneratorId} {m m' : Machine}
    (hlimit : 1 ≤ limit) (h : Machine.step ctx limit start target m = .next m') :
    Move ctx m.tables m.turn m'.tables m'.turn := by
  unfold Machine.step at h
  split at h
  · rename_i turn hturn
    dsimp only at h
    rw [hturn]
    split at h
    · rename_i s hs
      exact turnStep_next hlimit hturn hs h
    · rename_i hs
      cases h
      exact .idle ((Generator.isComplete_iff _).mpr hs)
  · rename_i hturn
    dsimp only at h
    rw [hturn]
    split at h
    · cases h
    · rename_i hopen
      rw [Bool.or_eq_true, not_or, Bool.not_eq_true] at hopen
      split at h
      · rename_i id agenda hagenda
        cases h
        have hresults := (m.tables.settles_beginTurn id agenda).results id
        have hstart : Move ctx m.tables none (m.tables.beginTurn id agenda)
            (some ⟨id, (m.tables.generator id).results.size, 0⟩) := .start hagenda
        rw [← hresults] at hstart
        exact hstart
      · rename_i hagenda
        cases h
        rw [hturn]
        exact .check hagenda hopen.1

theorem proceed_fault {ctx : Context} {id : GeneratorId} {g : Triple} {r : CheckedRule}
    {rest : List Premise} {env : Bindings} {premises : List Triple} {t t' : Tables}
    {fresh fresh' : Nat} {f : Fault}
    (h : proceed ctx id g r rest env premises t fresh = (.fault f, t', fresh')) : t' = t := by
  have hproceeds := proceeds ctx id g r rest env premises t fresh
  rw [h] at hproceeds
  clear h
  generalize hresult : (Proceeding.fault f, t', fresh') = result at hproceeds
  induction hproceeds with
  | answer | barren | refused | suspended | opened => cases hresult
  | holds _ _ ih => exact ih hresult
  | fault =>
      cases hresult
      rfl

/-- A step that ends a run without a fault leaves the tables as they are, and the target has what
was asked for.  A fault leaves the tables as they are when the way that leads to it has been
taken. -/
theorem step_done {ctx : Context} {limit start : Nat} {target : GeneratorId} {m : Machine}
    {o : Outcome} (h : Machine.step ctx limit start target m = .done o) :
    (m.turn = none ∧ o.tables = m.tables ∧ o.fault = none ∧
      ((m.tables.generator target).isComplete ∨
        start < (m.tables.generator target).results.size)) ∨
    ∃ turn r rest env premises t fresh f, m.turn = some turn ∧
      Takes m.tables turn.id (some (.cursor r rest env)) t ∧
      (proceed ctx turn.id (m.tables.generator turn.id).goal r rest env premises t fresh).1 =
        .fault f ∧
      o.tables = t ∧ o.fault = some f := by
  unfold Machine.step at h
  split at h
  · rename_i turn hturn
    dsimp only at h
    split at h
    · rename_i s hs
      unfold Machine.turnStep at h
      split at h
      · cases h
      · split at h
        · cases h
        · split at h <;> cases h
        · rename_i c below _ hcons
          have hopens := openChoice_opens ((Generator.stack_of_some hs).trans hcons)
          split at h
          · cases h
          · cases h
          · cases h
          · rename_i c t heq
            rw [heq] at hopens
            unfold Machine.follow at h
            split at h
            · cases h
            · cases h
            · rename_i f _ _ hproceed
              cases h
              exact .inr ⟨turn, c.rule, c.rest, c.env, c.premises, t, m.fresh, f, hturn, hopens,
                congrArg Prod.fst hproceed, proceed_fault hproceed, rfl⟩
    · cases h
  · rename_i hturn
    dsimp only at h
    split at h
    · rename_i hdone
      cases h
      rw [Bool.or_eq_true, decide_eq_true_iff] at hdone
      exact .inl ⟨hturn, rfl, rfl, hdone⟩
    · split at h <;> cases h

end TripleRules.Tabling
