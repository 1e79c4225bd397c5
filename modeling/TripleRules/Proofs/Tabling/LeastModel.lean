import TripleRules.Proofs.Tabling.Soundness
import TripleRules.Proofs.Tabling.Upheld

/-!
# The least model

When a goal has all its answers, they are the instances of the goal in the least model of the rules,
no more and no fewer.  A frame is given up only when the goal it reads is complete and has been read
to the end; so the rules of a complete goal have met every triple of the least model that they could
use.
-/

namespace TripleRules.Tabling

/-- What every reachable state of the tables satisfies when rules call tests only. -/
abbrev Faithful {ctx : Context} (hctx : ctx.Built) (hguard : ctx.Guarded) (t : Tables) : Prop :=
  Upheld (soundness hctx hguard) t

namespace Faithful

variable {ctx : Context} {hctx : ctx.Built} {hguard : ctx.Guarded} {t t' : Tables}

theorem generatorFor (h : Faithful hctx hguard t) (goal : Triple) :
    Faithful hctx hguard (t.generatorFor ctx goal).2 := Upheld.generatorFor h goal trivial

theorem move (h : Faithful hctx hguard t) {turn turn' : Option Turn}
    (hm : Move ctx t turn t' turn') : Faithful hctx hguard t' :=
  Upheld.move (steady_soundness hctx hguard).repeats h hm

theorem safe (h : Faithful hctx hguard t) {id : GeneratorId} {r : CheckedRule}
    {rest : List Premise} {env : Bindings} (ht : Takes t id (some (.cursor r rest env)) t')
    (premises : List Triple) (fresh : Nat) (f : Fault) :
    (proceed ctx id (t.generator id).goal r rest env premises t' fresh).1 ≠ .fault f :=
  Upheld.safe (steady_soundness hctx hguard) h ht premises fresh f

theorem invariant : Invariant ctx fun t _ => Faithful hctx hguard t :=
  Upheld.invariant (steady_soundness hctx hguard) fun _ => trivial

theorem reached (hctx : ctx.Built) (hguard : ctx.Guarded) (ht : Reached ctx t) :
    Faithful hctx hguard t := Upheld.reached (steady_soundness hctx hguard) (fun _ => trivial) ht

theorem later_invariant (t₀ : Tables) (id : GeneratorId) :
    Invariant ctx fun t _ => Faithful hctx hguard t ∧ Later t₀ id t :=
  Upheld.later_invariant (steady_soundness hctx hguard) (fun _ => trivial) t₀ id

end Faithful

/-! ## Completeness -/

/-- A triple of the least model that answers a goal which no rule proves is at hand. -/
theorem mem_find_of_entails {ctx : Context} (hctx : ctx.Built) {goal x : Triple}
    (hplain : ctx.rules.isTabled goal = false) (hx : ctx.Entails x) (hgoal : goal.matches? x) :
    x ∈ ctx.sources.find goal := by
  rw [hctx.sources.mem_find]
  refine ⟨?_, hgoal⟩
  cases hx with
  | fact hx => exact hx
  | @rule r hr σ hσ _ _ head hhead =>
      -- a rule with such an instance of its head would make the goal a tabled one
      exfalso
      have hchecked := hctx.rules.isChecked hr
      have hhead' := hctx.rules.headPattern?_eq hr hhead
      obtain ⟨τ, -, hsame⟩ := hchecked.exists_instance hσ
      rw [hsame.heads head hhead] at hgoal
      have htabled := (hctx.rules.mem_candidates hr hhead' hgoal).2
      rw [hplain] at htabled
      cases htabled

/-- An instance of a rule whose clauses are true in the least model, the patterns of which all
complete goals know. -/
structure Known (ctx : Context) (t : Tables) (r : CheckedRule) (τ : Nat → Term) : Prop where
  ground : ∀ i, (τ i).isGround
  entails : ∀ p, .pattern p ∈ r.body → ctx.Entails (p.mapVars (bySlot τ))
  calls : ∀ b args, .call b args ∈ r.body → b.Accepts (args.map (Term.mapVars (bySlot τ)))
  answers : ∀ p, .pattern p ∈ r.body → ∀ id, (t.generator id).isComplete →
    id < t.size → (t.generator id).goal.matches? (p.mapVars (bySlot τ)) →
      p.mapVars (bySlot τ) ∈ (t.generator id).results

theorem Known.call_holds {ctx : Context} {t : Tables} {r : CheckedRule} {τ : Nat → Term}
    (hknown : Known ctx t r τ) (hguard : r.Guarded) {done rest : List Premise} {b : Builtin}
    {args : List Term} {env : Bindings} (hbody : r.body = done ++ .call b args :: rest)
    (hagrees : env.Agrees τ)
    (hbound : ∀ p, .pattern p ∈ done → ∀ v ∈ p.occurrences, ∃ x, env.Has v.slot x) :
    (r.call b args env 0).1 = .holds env := by
  obtain ⟨htest, hvars⟩ := hguard done b args rest hbody
  have hmem : .call b args ∈ r.body := by
    rw [hbody]
    exact List.mem_append_right _ List.mem_cons_self
  have hresolve : ∀ a ∈ args, env.resolve a = a.mapVars (bySlot τ) := by
    intro a ha
    apply Bindings.resolve_eq_bySlot hagrees
    intro v hv
    obtain ⟨p, hp, hv⟩ := hvars a ha v hv
    exact hbound p hp v hv
  have hground : ∀ a ∈ args, (env.resolve a).isGround := by
    intro a ha
    rw [hresolve a ha]
    exact Term.isGround_mapVars (isGrounding_bySlot hknown.ground) a
  rcases r.call_eq_of_isTest htest hground 0 with ⟨-, heq⟩ | ⟨hrefused, -⟩
  · rw [heq]
  · rw [List.map_congr_left hresolve] at hrefused
    exact absurd (hknown.calls b args hmem) hrefused

namespace Faithful

variable {ctx : Context} {hctx : ctx.Built} {hguard : ctx.Guarded} {t : Tables}

theorem handled_rest (h : Faithful hctx hguard t) {id : GeneratorId}
    (hc : (t.generator id).isComplete) {r : CheckedRule} {τ : Nat → Term}
    (hknown : Known ctx t r τ) {p : Triple} (hp : .pattern p ∈ r.body) {rest : List Premise}
    {env env' : Bindings} (hagrees : env.Agrees τ)
    (hmatch : env.match? p (p.mapVars (bySlot τ)) = some env')
    (hhandled : Handled ctx t id r (.pattern p :: rest) env) : Handled ctx t id r rest env' := by
  have hgoal := Bindings.instantiate_matches? hagrees hknown.ground p
  cases htabled : ctx.rules.isTabled (env.instantiate p) with
  | true =>
      obtain ⟨target, htarget, hctarget, hsub, hread⟩ := Upheld.reads_all h hc htabled hhandled
      refine hread _ (hknown.answers p hp target hctarget htarget ?_) env' hmatch
      rw [hsub, Triple.normalize_matches?]
      exact hgoal
  | false =>
      have hx := mem_find_of_entails hctx htabled (hknown.entails p hp) hgoal
      exact (hhandled.2 htabled _ hx env' hmatch).resolve_right (Upheld.not_offered hc _)

/-- A rule of a complete goal has given every instance of its head that it can. -/
theorem mem_results_of_handled (h : Faithful hctx hguard t) {id : GeneratorId}
    (hc : (t.generator id).isComplete) {r : CheckedRule} (hr : ctx.rules.Has r) {τ : Nat → Term}
    (hknown : Known ctx t r τ) {head : Triple} (hhead : r.headPattern? = some head)
    (hgoal : (t.generator id).goal.matches? (head.mapVars (bySlot τ))) {rest : List Premise}
    (done : List Premise) {env : Bindings} (hbody : r.body = done ++ rest)
    (hagrees : env.Agrees τ) (hsize : env.size = r.slots)
    (hbound : ∀ p, .pattern p ∈ done → ∀ v ∈ p.occurrences, ∃ x, env.Has v.slot x)
    (hhandled : Handled ctx t id r rest env) :
    head.mapVars (bySlot τ) ∈ (t.generator id).results := by
  have hchecked := hctx.rules.isChecked hr
  induction rest generalizing done env with
  | nil =>
      rw [List.append_nil] at hbody
      have hvars : ∀ v ∈ head.occurrences, ∃ x, env.Has v.slot x := by
        intro v hv
        have hmem : .pattern head ∈ r.rule.head := by
          rw [CheckedRule.headPattern?_eq_some.mp hhead]
          exact List.mem_singleton_self _
        obtain ⟨p, hp, hv⟩ := (hguard r hr).exists_pattern (hchecked.mem_vars_of_head hmem hv)
        exact hbound p (hbody ▸ hp) v hv
      have hinst := Bindings.instantiate_eq_bySlot hagrees head hvars
      rw [← hinst] at hgoal ⊢
      refine hhandled head hhead ?_ hgoal
      rw [hinst]
      exact Triple.isGround_mapVars (isGrounding_bySlot hknown.ground) head
  | cons q rest ih =>
      have hmem : q ∈ r.body := by
        rw [hbody]
        exact List.mem_append_right _ List.mem_cons_self
      have hbody' : r.body = (done ++ [q]) ++ rest := by
        rw [hbody, List.append_assoc, List.singleton_append]
      cases q with
      | call b args =>
          have hholds := hknown.call_holds (hguard r hr) hbody hagrees hbound
          refine ih _ hbody' hagrees hsize ?_ (hhandled.2 env 0 hholds)
          intro p hp
          rcases List.mem_append.mp hp with hp | hp
          · exact hbound p hp
          · simp at hp
      | pattern p =>
          have hslots : ∀ v ∈ p.occurrences, v.slot < env.size := by
            intro v hv
            rw [hsize]
            exact hchecked.slot_lt (CheckedRule.mem_vars_iff.mpr ⟨_, hmem, hv⟩)
          obtain ⟨env', hmatch, hagrees'⟩ := Bindings.match?_agrees hagrees hknown.ground hslots
          obtain ⟨hext, hinst, hground⟩ := Bindings.match?_some hmatch
          have hrest := h.handled_rest hc hknown hmem hagrees hmatch hhandled
          refine ih _ hbody' hagrees' (hext.size_eq.trans hsize) ?_ hrest
          intro q hq v hv
          rcases List.mem_append.mp hq with hq | hq
          · obtain ⟨x, hx⟩ := hbound q hq v hv
            exact ⟨x, hext.keeps _ _ hx⟩
          · rw [List.mem_singleton, Premise.pattern.injEq] at hq
            subst hq
            rw [← hinst] at hground
            exact (Bindings.isGround_instantiate_iff (hagrees'.values hknown.ground) q).mp hground
              v hv

/-- A complete goal has every instance in the least model for an answer. -/
theorem mem_results_of_entails (h : Faithful hctx hguard t) {x : Triple} (hx : ctx.Entails x) :
    ∀ id, (t.generator id).isComplete → id < t.size → (t.generator id).goal.matches? x →
      x ∈ (t.generator id).results := by
  induction hx with
  | fact hx =>
      intro id hc hid hgoal
      have hfind := (hctx.sources.mem_find _ _).mpr ⟨hx, hgoal⟩
      exact (h.covered.fact id hid _ hfind).resolve_right (Upheld.not_offered hc _)
  | @rule r hr σ hσ hpatterns hcalls head hhead ih =>
      intro id hc hid hgoal
      have hchecked := hctx.rules.isChecked hr
      have hhead' := hctx.rules.headPattern?_eq hr hhead
      obtain ⟨τ, hτ, hsame⟩ := hchecked.exists_instance hσ
      have hknown : Known ctx t r τ := by
        refine ⟨hτ, fun p hp => ?_, fun b args hcall => ?_, fun p hp => ?_⟩
        · rw [← hsame.patterns p hp]
          exact hpatterns p hp
        · rw [← hsame.calls b args hcall]
          exact hcalls b args hcall
        · rw [← hsame.patterns p hp]
          exact ih p hp
      rw [hsame.heads head hhead] at hgoal ⊢
      obtain ⟨env, hstart, hagrees, hsize⟩ := CheckedRule.start?_agrees hchecked hhead' hgoal
      have hcand := (hctx.rules.mem_candidates hr hhead' hgoal).1
      have hhandled :=
        (h.covered.rule id hid r hcand env hstart).resolve_right (Upheld.not_offered hc _)
      exact h.mem_results_of_handled hc hr hknown hhead' hgoal [] rfl hagrees hsize
        (fun p hp => absurd hp List.not_mem_nil) hhandled

theorem mem_results_iff (h : Faithful hctx hguard t) {id : GeneratorId}
    (hc : (t.generator id).isComplete) (hid : id < t.size) (x : Triple) :
    x ∈ (t.generator id).results ↔ (t.generator id).goal.matches? x ∧ ctx.Entails x :=
  ⟨h.obeyed.answer id x, fun hx => h.mem_results_of_entails hx.2 id hc hid hx.1⟩

end Faithful

/-- Tabled proof computes the least model.  Whatever has been asked and pumped before and since,
when the generator of a goal is complete, its answers are the instances of the goal in the least
model of the rules over the triples at hand. -/
theorem mem_results_iff_entails {ctx : Context} (hctx : ctx.Built) (hguard : ctx.Guarded)
    {t t' : Tables} (ht : Reached ctx t) (goal : Triple)
    (hruns : Runs ctx (t.generatorFor ctx goal).2 t')
    (hcomplete : (t'.generator (t.generatorFor ctx goal).1).isComplete) (x : Triple) :
    x ∈ (t'.generator (t.generatorFor ctx goal).1).results ↔
      goal.matches? x ∧ Entailed (fun t => ctx.sources.contains t) ctx.rules.Has x := by
  have hstart := (Faithful.reached hctx hguard ht).generatorFor goal
  have hfst := (Faithful.reached hctx hguard ht).linked.generatorFor_fst ctx goal
  obtain ⟨hfaithful, hlater⟩ :=
    (Faithful.later_invariant _ _).runs ⟨hstart, .refl hfst.1⟩ hruns
  rw [hfaithful.mem_results_iff hcomplete hlater.size x, hlater.goal, hfst.2,
    Triple.normalize_matches?]
  rfl

/-! ## An instance -/

def circle : Context where
  sources :=
    ⟨.ofList [⟨.iri "a", .iri "before", .iri "b"⟩, ⟨.iri "b", .iri "before", .iri "c"⟩],
      .ofList [⟨.iri "c", .iri "before", .iri "a"⟩], .empty⟩
  rules := ⟨some (RuleSet.empty.insert .before), .empty⟩

theorem built_circle : circle.Built where
  sources := ⟨Store.built_ofList (by decide), Store.built_ofList (by decide), .empty⟩
  rules :=
    { base := by
        rintro s ⟨⟩
        exact .insert .empty CheckedRule.isChecked_before rfl
      installed := .empty }

theorem guarded_circle : circle.Guarded := by
  rintro r (⟨s, ⟨⟩, hr⟩ | hr)
  · rw [List.mem_singleton.mp hr]
    exact CheckedRule.guarded_before
  · exact absurd hr List.not_mem_nil

def circleAnswers : Option Outcome :=
  ((Tables.new {}).generatorFor circle ⟨.iri "a", .iri "before", .named "x"⟩).2.solve
    100 circle 0 1 0

theorem circleAnswers_entails : ∃ o, circleAnswers = some o ∧
    ((⟨.iri "a", .iri "before", .iri "c"⟩ : Triple) ∈ (o.tables.generator 0).results ↔
      (⟨.iri "a", .iri "before", .named "x"⟩ : Triple).matches?
          ⟨.iri "a", .iri "before", .iri "c"⟩ ∧
        Entailed (fun t => circle.sources.contains t) circle.rules.Has
          ⟨.iri "a", .iri "before", .iri "c"⟩) := by
  have hcomplete : circleAnswers.any fun o => (o.tables.generator 0).isComplete := by
    decide +kernel
  rw [Option.any_eq_true] at hcomplete
  obtain ⟨o, ho, hcomplete⟩ := hcomplete
  exact ⟨o, ho, mem_results_iff_entails built_circle guarded_circle
    ⟨_, Tables.blank_new {}, .refl⟩ ⟨.iri "a", .iri "before", .named "x"⟩
    (Runs.refl.solve ho) hcomplete _⟩

end TripleRules.Tabling
