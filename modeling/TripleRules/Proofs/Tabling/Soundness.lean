import TripleRules.Proofs.Rule.Passed
import TripleRules.Proofs.Tabling.Discipline

/-!
# Soundness

Every answer is an instance of its goal and in the least model.  The bindings of a rule in progress
make the clauses behind it true: its patterns are in the least model and its calls hold.
-/

namespace TripleRules.Tabling

/-- A rule in force is in progress, and what it has passed is true. -/
def Progresses (ctx : Context) (r : CheckedRule) (rest : List Premise) (env : Bindings) : Prop :=
  ctx.rules.Has r ∧ env.size = r.slots ∧ env.Values (·.isGround) ∧
    ∃ done, r.body = done ++ rest ∧ Passed ctx.Entails done env

namespace Progresses

variable {ctx : Context} {r : CheckedRule} {rest : List Premise} {env env' : Bindings}

theorem start (hr : ctx.rules.Has r) {goal : Triple} (h : r.start? goal = some env) :
    Progresses ctx r r.body env :=
  ⟨hr, (CheckedRule.start?_extends h).1, (CheckedRule.start?_extends h).2, [], rfl, .nil⟩

theorem read {p x : Triple} (h : Progresses ctx r (.pattern p :: rest) env) (hx : ctx.Entails x)
    (hmatch : env.match? p x = some env') : Progresses ctx r rest env' := by
  obtain ⟨hr, hsize, henv, done, hbody, hpassed⟩ := h
  have hext := (Bindings.match?_some hmatch).1
  refine ⟨hr, hext.size_eq.trans hsize, hext.values henv, done ++ [.pattern p], ?_,
    hpassed.match? hx hmatch⟩
  rw [hbody, List.append_assoc, List.singleton_append]

theorem call_holds_iff {b : Builtin} {args : List Term} (hguard : ctx.Guarded)
    (h : Progresses ctx r (.call b args :: rest) env) (fresh : Nat) (env' : Bindings) :
    (r.call b args env fresh).1 = .holds env' ↔ b.Accepts (args.map env.resolve) ∧ env' = env := by
  obtain ⟨hr, -, henv, done, hbody, hpassed⟩ := h
  exact hpassed.call_holds_iff henv ((hguard r hr).guardedAfter hbody) r fresh env'

theorem call {b : Builtin} {args : List Term} {fresh fresh' : Nat} (hguard : ctx.Guarded)
    (h : Progresses ctx r (.call b args :: rest) env)
    (hcall : r.call b args env fresh = (.holds env', fresh')) : Progresses ctx r rest env' := by
  obtain ⟨hacc, rfl⟩ := (h.call_holds_iff hguard fresh env').mp (congrArg Prod.fst hcall)
  obtain ⟨hr, hsize, henv, done, hbody, hpassed⟩ := h
  have hargs := (hpassed.isTest henv ((hguard r hr).guardedAfter hbody)).2
  refine ⟨hr, hsize, henv, done ++ [.call b args], ?_, hpassed.call hargs hacc⟩
  rw [hbody, List.append_assoc, List.singleton_append]

theorem call_ne_fault {b : Builtin} {args : List Term} (hguard : ctx.Guarded)
    (h : Progresses ctx r (.call b args :: rest) env) (fresh : Nat) (f : Fault) :
    (r.call b args env fresh).1 ≠ .fault f := by
  obtain ⟨hr, -, henv, done, hbody, hpassed⟩ := h
  exact hpassed.call_ne_fault henv ((hguard r hr).guardedAfter hbody) r fresh f

/-- A rule that has passed its whole body gives a triple of the least model. -/
theorem entails (h : Progresses ctx r [] env) {head : Triple}
    (hhead : r.headPattern? = some head) (hground : (env.instantiate head).isGround) :
    ctx.Entails (env.instantiate head) := by
  obtain ⟨hr, -, henv, done, hbody, hpassed⟩ := h
  rw [List.append_nil] at hbody
  have happ : Applies ctx.Entails r.body (bySlot env.filled) := by
    rw [hbody]
    exact hpassed.applies henv env.agrees_filled
  rw [Bindings.instantiate_eq_bySlot env.agrees_filled head
    ((Bindings.isGround_instantiate_iff henv head).mp hground)]
  refine .rule hr (isGrounding_bySlot (Bindings.isGround_filled henv)) happ.patterns happ.calls ?_
  rw [CheckedRule.headPattern?_eq_some.mp hhead]
  exact List.mem_singleton_self _

end Progresses

theorem entails_of_mem_find {ctx : Context} (hctx : ctx.Built) {g x : Triple}
    (hx : x ∈ ctx.sources.find g) : g.matches? x ∧ ctx.Entails x := by
  obtain ⟨hin, hmatch⟩ := (hctx.sources.mem_find g x).mp hx
  exact ⟨hmatch, .fact hin⟩

def soundness {ctx : Context} (hctx : ctx.Built) (hguard : ctx.Guarded) : Discipline ctx where
  goal _ := True
  cursor _ := Progresses ctx
  answer g x := g.matches? x ∧ ctx.Entails x
  fact _ hx := entails_of_mem_find hctx hx
  start _ hr hstart := .start (hctx.rules.has_of_mem_candidates hr) hstart
  call h hcall := h.call hguard hcall
  subgoal _ := trivial
  data h hx hmatch := h.read (entails_of_mem_find hctx hx).2 hmatch
  read h hx hmatch := h.read hx.2 hmatch
  head h hhead hground hgoal := ⟨hgoal, h.entails hhead hground⟩

theorem steady_soundness {ctx : Context} (hctx : ctx.Built) (hguard : ctx.Guarded) :
    (soundness hctx hguard).Steady where
  ne_fault h fresh f := h.call_ne_fault hguard fresh f
  holds h fresh fresh' env' hcall :=
    (h.call_holds_iff hguard fresh' env').mpr ((h.call_holds_iff hguard fresh env').mp hcall)

end TripleRules.Tabling
