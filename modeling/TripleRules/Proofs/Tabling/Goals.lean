import TripleRules.Proofs.Rule.Alike
import TripleRules.Proofs.Rule.Nested
import TripleRules.Proofs.Tabling.Confluence

/-!
# Answers and their goals

When rules call tests only, and no call shares a variable with the head that a pattern before it has
not, an answer of one goal is an answer of every goal that it is an instance of.  The derivation of
the answer is followed clause by clause: on the other goal the bindings are alike, the calls hold
alike, and what a pattern reads can be derived for its new goal, too.
-/

namespace TripleRules.Tabling

open CheckedRule (GoalSlot)

def Context.OnlyTests (ctx : Context) : Prop := ∀ r, ctx.rules.Has r → r.OnlyTests

/-- In every rule in force the variables that a call shares with the head are in patterns before
it. -/
def Context.HeadGuarded (ctx : Context) : Prop := ∀ r, ctx.rules.Has r → r.HeadGuarded

theorem Context.OnlyTests.isPure {ctx : Context} (h : ctx.OnlyTests) : ctx.Pure :=
  fun r hr b args hcall => (h r hr b args hcall).isUsual.isPure

structure Underway (ctx : Context) (r : CheckedRule) (head : Triple) (done rest : List Premise)
    (env : Bindings) : Prop where
  has : ctx.rules.Has r
  head : r.headPattern? = some head
  body : r.body = done ++ rest
  size : env.size = r.slots
  ground : env.Values (·.isGround)

variable {ctx : Context} {r : CheckedRule} {head : Triple} {done rest : List Premise}
  {env env' : Bindings}

namespace Underway

theorem start (hr : ctx.rules.Has r) (hhead : r.headPattern? = some head) {goal : Triple}
    (h : r.start? goal = some env) : Underway ctx r head [] r.body env :=
  ⟨hr, hhead, rfl, (CheckedRule.start?_extends h).1, (CheckedRule.start?_extends h).2⟩

theorem pass {q : Premise} (h : Underway ctx r head done (q :: rest) env) {vs : List Variable}
    (hext : env.Extends env' vs) : Underway ctx r head (done ++ [q]) rest env' where
  has := h.has
  head := h.head
  body := by rw [h.body, List.append_assoc, List.singleton_append]
  size := hext.size_eq.trans h.size
  ground := hext.values h.ground

theorem mem_body {q : Premise} (h : Underway ctx r head done (q :: rest) env) : q ∈ r.body := by
  rw [h.body]
  exact List.mem_append_right _ List.mem_cons_self

end Underway

/-- What a way leads to does not depend on the goal.  A fact is its own answer.  A rule in progress
has an instance that gives the answer, and it gives the same answer on another goal, when it has
bindings that are alike and agree with the instance. -/
def Portable (ctx : Context) : Way → Triple → Prop
  | .fact y, x => y = x
  | .cursor r rest env, x => ∀ head done, Underway ctx r head done rest env →
    ∃ τ : Nat → Term, (∀ i, (τ i).isGround) ∧ env.Agrees τ ∧ head.mapVars (bySlot τ) = x ∧
      ∀ goal env', goal.matches? x → env.Alike (GoalSlot head done) env' → env'.Agrees τ →
        Derives ctx goal (.cursor r rest env') x

/-- What a goal leads to on such a way is an answer of every goal that it is an instance of. -/
theorem Portable.answers (hctx : ctx.Built) {goal goal' x : Triple} {w : Way}
    (hw : Begins ctx goal w) (h : Portable ctx w x) (hgoal : goal'.matches? x) :
    Answers ctx goal' x := by
  cases w with
  | fact y =>
      obtain rfl : y = x := h
      have hin : ctx.sources.contains y := ((hctx.sources.mem_find goal y).mp hw).1
      exact .of_mem_find ((hctx.sources.mem_find goal' y).mpr ⟨hin, hgoal⟩)
  | cursor r rest env =>
      obtain ⟨hcand, rfl, hstart⟩ := hw
      have hr := hctx.rules.has_of_mem_candidates hcand
      obtain ⟨head, hhead⟩ := hctx.rules.exists_head hr
      obtain ⟨τ, -, -, rfl, hport⟩ := h head [] (.start hr hhead hstart)
      obtain ⟨env', hstart', hagrees', -⟩ :=
        CheckedRule.start?_agrees (hctx.rules.isChecked hr) hhead hgoal
      refine ⟨.cursor r r.body env', ⟨(hctx.rules.mem_candidates hr hhead hgoal).1, rfl, hstart'⟩,
        hport goal' env' hgoal (CheckedRule.start?_alike hhead hstart hstart') hagrees'⟩

theorem portable_head (hctx : ctx.Built) (hguard : ctx.HeadGuarded)
    (hhead : r.headPattern? = some head) (hground : (env.instantiate head).isGround) :
    Portable ctx (.cursor r [] env) (env.instantiate head) := by
  intro head' done h
  obtain rfl : head = head' := Option.some.inj (hhead.symm.trans h.head)
  have hbody : r.body = done := by rw [h.body, List.append_nil]
  have hbound := (Bindings.isGround_instantiate_iff h.ground head).mp hground
  have hinst := Bindings.instantiate_eq_bySlot env.agrees_filled head hbound
  refine ⟨env.filled, Bindings.isGround_filled h.ground, env.agrees_filled, hinst.symm, ?_⟩
  intro goal env' hgoal halike hagrees'
  have hbound' : ∀ v ∈ head.occurrences, ∃ x, env'.Has v.slot x := by
    intro v hv
    obtain ⟨x, hx⟩ := hbound v hv
    have hfree := (hguard r h.has).not_goalSlot_body (hctx.rules.isChecked h.has) hhead hv
    rw [hbody] at hfree
    exact ⟨x, (halike.has_iff _ hfree x).mpr hx⟩
  have hsame : env'.instantiate head = env.instantiate head :=
    (Bindings.instantiate_eq_bySlot hagrees' head hbound').trans hinst.symm
  rw [← hsame] at hground hgoal ⊢
  exact .head hhead hground hgoal

theorem portable_call (hctx : ctx.Built) (htests : ctx.OnlyTests) (hguard : ctx.HeadGuarded)
    {b : Builtin} {args : List Term} {fresh : Nat} {x : Triple}
    (hcall : (r.call b args env fresh).1 = .holds env')
    (ih : Portable ctx (.cursor r rest env') x) :
    Portable ctx (.cursor r (.call b args :: rest) env) x := by
  intro head done h
  have hgrounds : b.Grounds :=
    (htests r h.has b args h.mem_body).grounds
  have hext := CheckedRule.call_extends hgrounds hcall
  obtain ⟨τ, hτ, hagrees, hinst, hport⟩ := ih head _ (h.pass hext)
  refine ⟨τ, hτ, fun i t ht => hagrees i t (hext.keeps i t ht), hinst, ?_⟩
  intro goal env₁ hgoal halike hagrees₁
  have hfree := (hguard r h.has).not_goalSlot_of_call (hctx.rules.isChecked h.has) h.head h.body
  obtain ⟨env₁', hcall', halike', hagrees₁'⟩ :=
    CheckedRule.call_alike hgrounds h.ground halike hfree hcall hagrees hagrees₁
  refine .call hcall' (hport goal env₁' hgoal ⟨halike'.size_eq, fun i hi => ?_⟩ hagrees₁')
  exact halike'.has_iff i fun hslot => hi ((CheckedRule.goalSlot_append_call i).mpr hslot)

theorem portable_read (hctx : ctx.Built) {p x y : Triple} {w : Way}
    (hw : Begins ctx (env.instantiate p).normalize w) (hy : Portable ctx w y)
    (hmatch : env.match? p y = some env') (ih : Portable ctx (.cursor r rest env') x) :
    Portable ctx (.cursor r (.pattern p :: rest) env) x := by
  intro head done h
  obtain ⟨hext, rfl, hground⟩ := Bindings.match?_some hmatch
  obtain ⟨τ, hτ, hagrees, hinst, hport⟩ := ih head _ (h.pass hext)
  refine ⟨τ, hτ, fun i t ht => hagrees i t (hext.keeps i t ht), hinst, ?_⟩
  intro goal env₁ hgoal halike hagrees₁
  have hread : env'.instantiate p = p.mapVars (bySlot τ) :=
    Bindings.instantiate_eq_bySlot hagrees p
      ((Bindings.isGround_instantiate_iff (hagrees.values hτ) p).mp hground)
  rw [hread] at hy hmatch
  have hslots : ∀ v ∈ p.occurrences, v.slot < env₁.size := by
    intro v hv
    rw [halike.size_eq, h.size]
    exact (hctx.rules.isChecked h.has).slot_lt (CheckedRule.mem_vars_iff.mpr ⟨_, h.mem_body, hv⟩)
  obtain ⟨env₁', hmatch', hagrees₁'⟩ := Bindings.match?_agrees hagrees₁ hτ hslots
  have hsub : (env₁.instantiate p).normalize.matches? (p.mapVars (bySlot τ)) := by
    rw [Triple.normalize_matches?]
    exact Bindings.instantiate_matches? hagrees₁ hτ p
  obtain ⟨w', hw', hy'⟩ := hy.answers hctx hw hsub
  have halike' := halike.match? hmatch hmatch' hτ hagrees hagrees₁'
  refine .read hw' hy' hmatch' (hport goal env₁' hgoal ⟨halike'.size_eq, fun i hi => ?_⟩ hagrees₁')
  exact halike'.has_iff i fun hslot => hi ((CheckedRule.goalSlot_append_pattern i).mpr hslot)

theorem Derives.portable (hctx : ctx.Built) (htests : ctx.OnlyTests) (hguard : ctx.HeadGuarded)
    {goal x : Triple} {w : Way} (h : Derives ctx goal w x) : Portable ctx w x := by
  induction h with
  | fact => exact (rfl : _ = _)
  | head hhead hground => exact portable_head hctx hguard hhead hground
  | call hcall _ ih => exact portable_call hctx htests hguard hcall ih
  | read hw _ hmatch _ ihy ih => exact portable_read hctx hw ihy hmatch ih

/-- An answer of a goal is an answer of every goal that it is an instance of. -/
theorem Answers.of_matches (hctx : ctx.Built) (htests : ctx.OnlyTests)
    (hguard : ctx.HeadGuarded) {goal goal' x : Triple} (h : Answers ctx goal x)
    (hgoal : goal'.matches? x) : Answers ctx goal' x := by
  obtain ⟨w, hw, hx⟩ := h
  exact (hx.portable hctx htests hguard).answers hctx hw hgoal

theorem Derives.matches? {goal x : Triple} {w : Way} (h : Derives ctx goal w x) :
    (∃ y, w = .fact y) ∨ goal.matches? x := by
  induction h with
  | fact => exact .inl ⟨_, rfl⟩
  | head _ _ hgoal => exact .inr hgoal
  | call _ _ ih => exact .inr (ih.resolve_left nofun)
  | read _ _ _ _ _ ih => exact .inr (ih.resolve_left nofun)

theorem Answers.matches? (hctx : ctx.Built) {goal x : Triple} (h : Answers ctx goal x) :
    goal.matches? x := by
  obtain ⟨w, hw, hx⟩ := h
  rcases hx.matches? with ⟨y, rfl⟩ | hgoal
  · cases hx
    exact ((hctx.sources.mem_find _ _).mp hw).2
  · exact hgoal

theorem Answers.eq_of_isGround (hctx : ctx.Built) {t x : Triple} (ht : t.isGround)
    (h : Answers ctx t.normalize x) : x = t := by
  have hmatch := h.matches? hctx
  rw [Triple.normalize_matches?, Triple.matches?_iff_eq_of_isGround ht] at hmatch
  exact hmatch.symm

/-- It makes no difference for which pattern a triple is derived. -/
theorem answers_iff_of_matches (hctx : ctx.Built) (htests : ctx.OnlyTests)
    (hguard : ctx.HeadGuarded) {p q x : Triple} (hp : p.matches? x) (hq : q.matches? x) :
    Answers ctx p.normalize x ↔ Answers ctx q.normalize x := by
  rw [← Triple.normalize_matches?] at hp hq
  exact ⟨fun h => h.of_matches hctx htests hguard hq, fun h => h.of_matches hctx htests hguard hp⟩

end TripleRules.Tabling
