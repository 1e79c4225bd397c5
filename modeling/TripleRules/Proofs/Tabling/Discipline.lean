import TripleRules.Proofs.Tabling.Runs

/-!
# Disciplines

A discipline is a property of goals, of rules in progress and of answers that every single inference
keeps: taking a triple at hand, starting a rule, making a call, reading a triple and giving an
answer.  What obeys a discipline at the start obeys it for ever, whatever the order of the work.
-/

namespace TripleRules.Tabling

/-- Properties of goals, of rules in progress for a goal and of answers to a goal that inference
keeps. -/
structure Discipline (ctx : Context) where
  goal : Triple → Prop
  cursor : Triple → CheckedRule → List Premise → Bindings → Prop
  answer : Triple → Triple → Prop
  fact : ∀ {g x}, goal g → x ∈ ctx.sources.find g → answer g x
  start : ∀ {g r env}, goal g → r ∈ ctx.rules.candidates g → r.start? g = some env →
    cursor g r r.body env
  call : ∀ {g r b args rest env env' fresh fresh'}, cursor g r (.call b args :: rest) env →
    r.call b args env fresh = (.holds env', fresh') → cursor g r rest env'
  subgoal : ∀ {g r p rest env}, cursor g r (.pattern p :: rest) env →
    goal (env.instantiate p).normalize
  data : ∀ {g r p rest env env' x}, cursor g r (.pattern p :: rest) env →
    x ∈ ctx.sources.find (env.instantiate p) → env.match? p x = some env' → cursor g r rest env'
  read : ∀ {g r p rest env env' x}, cursor g r (.pattern p :: rest) env →
    answer (env.instantiate p).normalize x → env.match? p x = some env' → cursor g r rest env'
  head : ∀ {g r env head}, cursor g r [] env → r.headPattern? = some head →
    (env.instantiate head).isGround → g.matches? (env.instantiate head) →
    answer g (env.instantiate head)

namespace Discipline

variable {ctx : Context} (D : Discipline ctx)

/-- What a call of a rule in progress brings, and whether it comes to a fault, does not depend on
how many nodes have been minted. -/
structure Repeats : Prop where
  holds : ∀ {g r b args rest env}, D.cursor g r (.call b args :: rest) env →
    ∀ fresh fresh' env', (r.call b args env fresh).1 = .holds env' →
      (r.call b args env fresh').1 = .holds env'
  fault : ∀ {g r b args rest env}, D.cursor g r (.call b args :: rest) env →
    ∀ fresh fresh' f, (r.call b args env fresh).1 = .fault f →
      ∃ f', (r.call b args env fresh').1 = .fault f'

structure Steady : Prop where
  ne_fault : ∀ {g r b args rest env}, D.cursor g r (.call b args :: rest) env →
    ∀ fresh f, (r.call b args env fresh).1 ≠ .fault f
  holds : ∀ {g r b args rest env}, D.cursor g r (.call b args :: rest) env →
    ∀ fresh fresh' env', (r.call b args env fresh).1 = .holds env' →
      (r.call b args env fresh').1 = .holds env'

variable {D} in
theorem Steady.repeats (h : D.Steady) : D.Repeats where
  holds := h.holds
  fault hcursor fresh _ f hcall := absurd hcall (h.ne_fault hcursor fresh f)

def Awaits (g : Triple) (s : Suspension) : Prop :=
  D.cursor g s.rule (.pattern s.pattern :: s.rest) s.env

def Allows (g : Triple) : ChoicePoint → Prop
  | .alternatives facts rules =>
    (∀ x ∈ facts, x ∈ ctx.sources.find g) ∧ ∀ r ∈ rules, r ∈ ctx.rules.candidates g
  | .data s left => D.Awaits g s ∧ ∀ x ∈ left, x ∈ ctx.sources.find (s.env.instantiate s.pattern)
  | .consume _ => True

def Follows (g : Triple) : Way → Prop
  | .fact x => D.answer g x
  | .cursor r rest env => D.cursor g r rest env

/-- Everything in the tables obeys. -/
structure Obeyed (t : Tables) : Prop where
  goal : ∀ id < t.size, D.goal (t.generator id).goal
  answer : ∀ id, ∀ x ∈ (t.generator id).results, D.answer (t.generator id).goal x
  choice : ∀ id, ∀ c ∈ (t.generator id).stack, D.Allows (t.generator id).goal c
  frame : ∀ f < t.frames.size,
    D.Awaits (t.generator (t.frame f).owner).goal (t.frame f).continuation

namespace Obeyed

variable {D} {t t' : Tables}

theorem blank (h : t.Blank) : D.Obeyed t := by
  have hsize : t.size = 0 := by rw [Tables.size, h.generators, Array.size_empty]
  have hg : ∀ id, t.generator id = default := fun id =>
    Tables.generator_of_size_le (by rw [hsize]; exact Nat.zero_le id)
  refine ⟨fun id hlt => ?_, fun id x hx => ?_, fun id c hc => ?_, fun f hf => ?_⟩
  · rw [hsize] at hlt
    exact absurd hlt (Nat.not_lt_zero id)
  · rw [hg] at hx
    exact absurd hx (Array.not_mem_empty x)
  · rw [hg] at hc
    exact absurd hc List.not_mem_nil
  · rw [h.frames, Array.size_empty] at hf
    exact absurd hf (Nat.not_lt_zero f)

theorem mono {D' : Discipline ctx} (h : D.Obeyed t) (hgoal : ∀ g, D.goal g → D'.goal g)
    (hcursor : ∀ g r rest env, D.cursor g r rest env → D'.cursor g r rest env)
    (hanswer : ∀ g x, D.answer g x → D'.answer g x) : D'.Obeyed t := by
  refine ⟨fun id hlt => hgoal _ (h.goal id hlt), fun id x hx => hanswer _ x (h.answer id x hx),
    fun id c hc => ?_, fun f hf => hcursor _ _ _ _ (h.frame f hf)⟩
  have hallows := h.choice id c hc
  cases c with
  | alternatives facts rules => exact hallows
  | data s left => exact ⟨hcursor _ _ _ _ hallows.1, hallows.2⟩
  | consume f => trivial

theorem settles {S : List GeneratorId} (h : D.Obeyed t) (hs : Settles S t t') : D.Obeyed t' := by
  refine ⟨fun id hlt => ?_, fun id x hx => ?_, fun id c hc => ?_, fun f hf => ?_⟩
  · rw [hs.goal]
    exact h.goal id (hs.size ▸ hlt)
  · rw [hs.goal]
    exact h.answer id x (hs.results id ▸ hx)
  · rw [hs.goal]
    exact h.choice id c (hs.mem_stack hc)
  · rw [hs.owner, hs.goal, hs.continuation]
    exact h.frame f (hs.frames ▸ hf)

theorem modifySearch (h : D.Obeyed t) (id : GeneratorId) (g : Search → Search)
    (hstack : ∀ s, (t.generator id).search = some s → ∀ c ∈ (g s).stack,
      c ∈ s.stack ∨ D.Allows (t.generator id).goal c) : D.Obeyed (t.modifySearch id g) := by
  refine ⟨fun j hlt => ?_, fun j x hx => ?_, fun j c hc => ?_, fun f hf => ?_⟩
  · rw [t.goal_modifySearch]
    exact h.goal j (by simpa using hlt)
  · rw [t.goal_modifySearch]
    exact h.answer j x (t.results_modifySearch id g j ▸ hx)
  · rw [t.goal_modifySearch]
    rcases Tables.mem_stack_modifySearch hc with ⟨-, hc⟩ | ⟨rfl, s, hs, hc⟩
    · exact h.choice j c hc
    · rcases hstack s hs c hc with hc | hc
      · exact h.choice j c (Generator.stack_of_some hs ▸ hc)
      · exact hc
  · rw [t.frame_modifySearch, t.goal_modifySearch]
    exact h.frame f hf

theorem modifyFrame (h : D.Obeyed t) (id : FrameId) {g : Frame → Frame}
    (howner : ∀ x, (g x).owner = x.owner)
    (hcontinuation : ∀ x, (g x).continuation = x.continuation) :
    D.Obeyed (t.modifyFrame id g) := by
  refine ⟨h.goal, h.answer, h.choice, fun f hf => ?_⟩
  rw [t.modifyFrame_keeps (·.owner) id howner,
    t.modifyFrame_keeps (·.continuation) id hcontinuation]
  exact h.frame f (by simpa using hf)

theorem retire (h : D.Obeyed t) (f : FrameId) : D.Obeyed (t.retire f) := by
  apply h.modifyFrame f
  all_goals exact fun _ => rfl

theorem addGenerator (h : D.Obeyed t) (hlinked : Linked t) {key : Triple} (hkey : D.goal key) :
    D.Obeyed (t.addGenerator ctx key) := by
  refine ⟨fun id hlt => ?_, fun id x hx => ?_, fun id c hc => ?_, fun f hf => ?_⟩
  · rw [t.generator_addGenerator]
    split
    · exact hkey
    · rename_i hne
      rw [t.size_addGenerator] at hlt
      exact h.goal id (Nat.lt_of_le_of_ne (Nat.lt_succ_iff.mp hlt) hne)
  · rw [t.generator_addGenerator] at hx ⊢
    split at hx
    · exact absurd hx (Array.not_mem_empty x)
    · rename_i hne
      rw [if_neg hne]
      exact h.answer id x hx
  · rw [t.generator_addGenerator] at hc ⊢
    split at hc
    · rename_i heq
      rw [if_pos heq]
      simp only [Generator.new, Generator.stack, Option.map_some, Option.getD_some,
        List.mem_singleton] at hc
      rw [hc]
      exact ⟨fun _ hx => hx, fun _ hr => hr⟩
    · rename_i hne
      rw [if_neg hne]
      exact h.choice id c hc
  · rw [t.frame_addGenerator, t.generator_addGenerator_of_lt ctx key (hlinked.owner_lt f hf)]
    exact h.frame f hf

theorem generatorFor (h : D.Obeyed t) (hlinked : Linked t) {goal : Triple}
    (hgoal : D.goal goal.normalize) : D.Obeyed (t.generatorFor ctx goal).2 := by
  rcases t.settles_generatorFor ctx goal with hs | ⟨-, hs⟩
  · exact h.settles hs
  · exact (h.addGenerator hlinked hgoal).settles hs

theorem suspend (h : D.Obeyed t) {target owner : GeneratorId} {s : Suspension}
    (hs : D.Awaits (t.generator owner).goal s) : D.Obeyed (t.suspend target owner s) := by
  have hlink : D.Obeyed (t.link target owner s) := by
    refine ⟨fun id hlt => ?_, fun id x hx => ?_, fun id c hc => ?_, fun f hf => ?_⟩
    · rw [t.goal_link]
      exact h.goal id (t.size_link target owner s ▸ hlt)
    · rw [t.goal_link]
      rw [t.results_link] at hx
      exact h.answer id x hx
    · rw [t.goal_link]
      rw [t.stack_link] at hc
      exact h.choice id c hc
    · rw [t.goal_link]
      rcases (t.lt_frames_link_iff target owner s).mp hf with hlt | rfl
      · rw [t.frame_link_of_lt target owner s hlt]
        exact h.frame f hlt
      · rw [t.frame_link_new]
        exact hs
  obtain ⟨f, heq⟩ := t.suspend_eq target owner s
  have hcount := hlink.settles (Tables.settles_count _ f)
  rw [heq]
  split
  · exact hcount.modifySearch owner _ fun _ _ _ hc => .inl hc
  · exact hcount

theorem pushAnswer (h : D.Obeyed t) {id : GeneratorId} (hid : id < t.size) {x : Triple}
    (hx : D.answer (t.generator id).goal x) : D.Obeyed (t.pushAnswer id x) := by
  refine ⟨fun j hlt => ?_, fun j y hy => ?_, fun j c hc => ?_, fun f hf => ?_⟩
  · rw [t.goal_pushAnswer]
    exact h.goal j (by simpa [Tables.pushAnswer] using hlt)
  · rw [t.goal_pushAnswer]
    rw [t.results_pushAnswer hid] at hy
    split at hy
    · rename_i hj
      rcases Array.mem_push.mp hy with hy | hy
      · exact h.answer j y hy
      · rw [hy, hj]
        exact hx
    · exact h.answer j y hy
  · rw [t.goal_pushAnswer]
    exact h.choice j c (t.stack_pushAnswer id x j ▸ hc)
  · rw [t.goal_pushAnswer]
    exact h.frame f hf

/-! ## Moves -/

theorem takes (h : D.Obeyed t) (hlinked : Linked t) {id : GeneratorId} {w : Option Way}
    (ht : Takes t id w t') :
    D.Obeyed t' ∧ ∀ x ∈ w, D.Follows (t.generator id).goal x := by
  have hid := Tables.lt_size_of_isComplete_eq_false ht.isComplete
  have htop : ∀ c c' below, (t.generator id).stack = c :: below →
      (D.Allows (t.generator id).goal c → D.Allows (t.generator id).goal c') →
      D.Obeyed (t.replaceTop id c') := by
    intro c c' below hstack hc'
    refine h.modifySearch id _ fun s hs k hk => ?_
    rcases List.mem_cons.mp hk with rfl | hk
    · exact .inr (hc' (h.choice id c (by rw [hstack]; exact List.mem_cons_self)))
    · exact .inl (List.mem_of_mem_tail hk)
  cases ht with
  | fact hstack =>
      refine ⟨htop _ _ _ hstack
          fun hc => ⟨fun x hx => hc.1 x (List.mem_cons_of_mem _ hx), hc.2⟩, ?_⟩
      rintro w ⟨⟩
      have hc := h.choice id _ (by rw [hstack]; exact List.mem_cons_self)
      exact D.fact (h.goal id hid) (hc.1 _ List.mem_cons_self)
  | start hstack =>
      refine ⟨htop _ _ _ hstack
          fun hc => ⟨hc.1, fun x hx => hc.2 x (List.mem_cons_of_mem _ hx)⟩, ?_⟩
      intro w hw
      obtain ⟨env, hstart, rfl⟩ := Option.map_eq_some_iff.mp hw
      have hc := h.choice id _ (by rw [hstack]; exact List.mem_cons_self)
      exact D.start (h.goal id hid) (hc.2 _ List.mem_cons_self) hstart
  | data hstack =>
      refine ⟨htop _ _ _ hstack
          fun hc => ⟨hc.1, fun x hx => hc.2 x (List.mem_cons_of_mem _ hx)⟩, ?_⟩
      intro w hw
      obtain ⟨env, hmatch, rfl⟩ := Option.map_eq_some_iff.mp hw
      have hc := h.choice id _ (by rw [hstack]; exact List.mem_cons_self)
      exact D.data hc.1 (hc.2 _ List.mem_cons_self) hmatch
  | @read f x below hstack hx =>
      refine ⟨h.modifyFrame _ (fun _ => rfl) (fun _ => rfl), ?_⟩
      intro w hw
      obtain ⟨env, hmatch, rfl⟩ := Option.map_eq_some_iff.mp hw
      obtain ⟨hf, howner⟩ := hlinked.stack id f (by rw [hstack]; exact List.mem_cons_self)
      have hawaits := h.frame f hf
      have hanswer := h.answer _ x (Array.mem_of_getElem? hx)
      rw [hlinked.goal f hf] at hanswer
      rw [howner] at hawaits
      exact D.read hawaits hanswer hmatch

theorem lands (h : D.Obeyed t) (hlinked : Linked t) {id : GeneratorId} {w : Way}
    (hid : id < t.size) (hw : D.Follows (t.generator id).goal w) (hl : Lands ctx id w t t') :
    D.Obeyed t' := by
  induction hl with
  | known | barren => exact h
  | new hnew => exact (h.pushAnswer hid hw).settles (Tables.settles_addResult hnew _)
  | answer hhead hground hgoal _ ih => exact ih h hlinked hid (D.head hw hhead hground hgoal)
  | holds hcall _ ih => exact ih h hlinked hid (D.call hw hcall)
  | refused => exact h.settles (.of_eq rfl rfl rfl)
  | @suspended r p rest env premises t _ =>
      refine (h.generatorFor hlinked (D.subgoal hw)).suspend ?_
      have hgoal : ((t.generatorFor ctx (env.instantiate p)).2.generator id).goal =
          (t.generator id).goal := goal_generatorFor t ctx _ hid
      rw [hgoal]
      exact hw
  | opened =>
      refine h.modifySearch id _ fun s hs c hc => ?_
      rcases List.mem_cons.mp hc with rfl | hc
      · exact .inr ⟨hw, fun _ hx => hx⟩
      · exact .inl hc

theorem work (h : D.Obeyed t) (hlinked : Linked t) {id : GeneratorId} (hw : Work ctx t id t') :
    D.Obeyed t' := by
  cases hw with
  | take =>
      refine h.modifySearch id _ fun s hs c hc => ?_
      obtain ⟨f, -, rfl⟩ := List.mem_map.mp hc
      exact .inr trivial
  | drop => exact h.modifySearch id _ fun s hs c hc => .inl (List.mem_of_mem_tail hc)
  | retire =>
      exact (h.retire _).modifySearch id _ fun s hs c hc => .inl (List.mem_of_mem_tail hc)
  | pass ht => exact (h.takes hlinked ht).1
  | land ht hl =>
      have hid := Tables.lt_size_of_isComplete_eq_false ht.isComplete
      obtain ⟨hobeyed, hw⟩ := h.takes hlinked ht
      exact hobeyed.lands (hlinked.takes ht) (ht.size ▸ hid)
        (ht.goal id ▸ hw _ rfl) hl

theorem move (h : D.Obeyed t) (hlinked : Linked t) {turn turn' : Option Turn}
    (hm : Move ctx t turn t' turn') : D.Obeyed t' := by
  rcases hm.settles_or_work hlinked with ⟨S, -, hs⟩ | ⟨id, hw⟩
  · exact h.settles hs
  · exact h.work hlinked hw

end Obeyed

/-- Whatever is asked for and pumped, what obeys still obeys, also after a fault. -/
theorem persistent (hgoal : ∀ g : Triple, D.goal g.normalize) :
    Persistent ctx (fun t _ => Linked t ∧ D.Obeyed t) fun t => Linked t ∧ D.Obeyed t where
  ask _ goal h := ⟨h.1.generatorFor ctx goal, h.2.generatorFor h.1 (hgoal goal)⟩
  enqueue t id h _ := ⟨h.1.settles (t.settles_enqueue id), h.2.settles (t.settles_enqueue id)⟩
  move _ _ _ _ h hm := ⟨h.1.move hm, h.2.move h.1 hm⟩
  fault _ _ _ _ _ _ _ _ _ h ht _ := ⟨h.1.takes ht, (h.2.takes h.1 ht).1⟩

theorem exists_call_of_fault {id : GeneratorId} {g : Triple} {r : CheckedRule} {rest : List Premise}
    {env : Bindings} {premises : List Triple} {t : Tables} {fresh : Nat} {f : Fault}
    (h : D.cursor g r rest env)
    (hfault : (proceed ctx id g r rest env premises t fresh).1 = .fault f) :
    ∃ b args rest' env' fresh', D.cursor g r (.call b args :: rest') env' ∧
      (r.call b args env' fresh').1 = .fault f := by
  have hproceeds := proceeds ctx id g r rest env premises t fresh
  generalize proceed ctx id g r rest env premises t fresh = result at hproceeds hfault
  induction hproceeds with
  | answer | barren | refused | suspended | opened => cases hfault
  | holds hcall _ ih => exact ih (D.call h hcall) hfault
  | @fault b args rest env fresh _ _ hcall =>
      cases hfault
      exact ⟨b, args, rest, env, fresh, h, congrArg Prod.fst hcall⟩

theorem proceed_ne_fault (hD : D.Steady) {id : GeneratorId} {g : Triple} {r : CheckedRule}
    {rest : List Premise} {env : Bindings} (h : D.cursor g r rest env) (premises : List Triple)
    (t : Tables) (fresh : Nat) (f : Fault) :
    (proceed ctx id g r rest env premises t fresh).1 ≠ .fault f := by
  intro hfault
  obtain ⟨b, args, rest', env', fresh', hcursor, hcall⟩ := D.exists_call_of_fault h hfault
  exact hD.ne_fault hcursor fresh' f hcall

end Discipline

end TripleRules.Tabling
