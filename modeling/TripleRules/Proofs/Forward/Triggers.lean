import TripleRules.Proofs.Forward.Solutions
import TripleRules.Proofs.Rule.Alike
import TripleRules.Proofs.Rule.Candidates
import TripleRules.Proofs.Rule.Nested
import TripleRules.Proofs.Tabling.Confluence

/-!
# Triggered matching

A trigger puts one pattern of a body in front of all the other clauses.  A call that stands before
the pattern then sees what the pattern has bound, and may take for a test what it would have given a
value.  If no call before the pattern has a variable of it that is new there, the order makes no
difference: the bindings are alike on both ways until the pattern has been read, and the same after
that.
-/

namespace TripleRules

namespace Bindings

variable {F : Nat → Prop} {b b' c : Bindings}

theorem Alike.symm (h : Alike F b b') : Alike F b' b :=
  ⟨h.size_eq.symm, fun i hi t => (h.has_iff i hi t).symm⟩

theorem Alike.eq (h : Alike F b b') (hF : ∀ i, ¬ F i) : b' = b := by
  have hslots : b'.slots = b.slots := List.ext_getElem? fun i => h.slots_eq (hF i)
  cases b
  cases b'
  exact congrArg Bindings.mk hslots

theorem Extends.alike {vs : List Variable} (h : b.Extends b' vs) :
    Alike (fun i => ∃ v ∈ vs, v.slot = i) b b' :=
  ⟨h.size_eq, fun i hi t =>
    ⟨fun ht => (h.adds i t ht).resolve_right fun hnew => hi hnew.2, h.keeps i t⟩⟩

theorem Has.lt_size {i : Nat} {t : Term} (h : b.Has i t) : i < b.size :=
  (List.getElem?_eq_some_iff.mp h).1

theorem mapVars_filled (hb : b.Values (·.isGround)) {p : Triple}
    (hp : (b.instantiate p).isGround) : p.mapVars (bySlot b.filled) = b.instantiate p :=
  (instantiate_eq_bySlot b.agrees_filled p ((isGround_instantiate_iff hb p).mp hp)).symm

theorem match?_instantiate (hb : b.Values (·.isGround)) {p : Triple}
    (hp : (b.instantiate p).isGround) : b.match? p (b.instantiate p) = some b := by
  have hbound := (isGround_instantiate_iff hb p).mp hp
  have hslots : ∀ v ∈ p.occurrences, v.slot < b.size := fun v hv =>
    have ⟨_, hx⟩ := hbound v hv
    hx.lt_size
  obtain ⟨c, hmatch, -⟩ := match?_agrees b.agrees_filled (isGround_filled hb) hslots
  rw [mapVars_filled hb hp] at hmatch
  have hext := (match?_some hmatch).1
  have halike : Alike (fun _ => False) b c := by
    refine ⟨hext.size_eq, fun i _ t => ⟨fun ht => ?_, hext.keeps i t⟩⟩
    rcases hext.adds i t ht with hold | ⟨-, v, hv, rfl⟩
    · exact hold
    · obtain ⟨x, hx⟩ := hbound v hv
      exact (hext.keeps _ _ hx).unique ht ▸ hx
  rw [hmatch, halike.eq fun _ => id]

end Bindings

/-- No call before a pattern has a variable of the pattern, unless a pattern before the call has
it. -/
def GuardedFor (p : Triple) (front : List Premise) : Prop :=
  ∀ before b args after, front = before ++ .call b args :: after →
    ∀ a ∈ args, ∀ v ∈ a.occurrences, v ∈ p.occurrences →
      ∃ q, .pattern q ∈ before ∧ v ∈ q.occurrences

theorem GuardedFor.not_goalSlot {r : CheckedRule} {p : Triple} {done after : List Premise}
    {b : Builtin} {args : List Term} (h : GuardedFor p (done ++ .call b args :: after))
    (hr : r.IsChecked) (hp : p.occurrences ⊆ r.vars) (hcall : .call b args ∈ r.body) :
    ∀ a ∈ args, ∀ v ∈ a.occurrences, ¬ CheckedRule.GoalSlot p done v.slot := by
  intro a ha v hv
  have hmem : v ∈ r.vars :=
    CheckedRule.mem_vars_iff.mpr ⟨_, hcall, List.mem_flatMap.mpr ⟨a, ha, hv⟩⟩
  exact hr.not_goalSlot hp hmem (h done b args after rfl a ha v hv)

/-- The pattern at a place of the body may as well be read before all other clauses. -/
def CheckedRule.GuardedAt (r : CheckedRule) (i : Nat) : Prop :=
  ∀ p, r.body[i]? = some (.pattern p) → GuardedFor p (r.body.take i)

namespace Forward

open CheckedRule (GoalSlot)

/-- The rest of a body carries bindings to others: each pattern reads a triple at hand, and each
call holds. -/
inductive Carries (sources : Sources) (r : CheckedRule) :
    List Premise → Bindings → Bindings → Prop where
  | done {env : Bindings} : Carries sources r [] env env
  | read {p t : Triple} {rest : List Premise} {env env' final : Bindings}
      (ht : sources.contains t) (hmatch : env.match? p t = some env')
      (h : Carries sources r rest env' final) : Carries sources r (.pattern p :: rest) env final
  | call {b : Builtin} {args : List Term} {rest : List Premise} {env env' final : Bindings}
      {fresh : Nat} (hcall : (r.call b args env fresh).1 = .holds env')
      (h : Carries sources r rest env' final) : Carries sources r (.call b args :: rest) env final

namespace Carries

variable {sources : Sources} {r : CheckedRule} {rest front done : List Premise}
  {env final : Bindings}

theorem append {back : List Premise} {mid : Bindings} (h : Carries sources r front env mid)
    (h' : Carries sources r back mid final) : Carries sources r (front ++ back) env final := by
  induction h with
  | done => exact h'
  | read ht hmatch _ ih => exact .read ht hmatch (ih h')
  | call hcall _ ih => exact .call hcall (ih h')

theorem exists_mid {back : List Premise} (h : Carries sources r (front ++ back) env final) :
    ∃ mid, Carries sources r front env mid ∧ Carries sources r back mid final := by
  induction front generalizing env with
  | nil => exact ⟨env, .done, h⟩
  | cons c front ih =>
      cases h with
      | read ht hmatch h =>
          obtain ⟨mid, hfront, hback⟩ := ih h
          exact ⟨mid, .read ht hmatch hfront, hback⟩
      | call hcall h =>
          obtain ⟨mid, hfront, hback⟩ := ih h
          exact ⟨mid, .call hcall hfront, hback⟩

theorem exists_extends (h : Carries sources r rest env final) (hcalls : GroundCalls rest) :
    ∃ vs, env.Extends final vs := by
  induction h with
  | done => exact ⟨[], .refl _ _⟩
  | read _ hmatch _ ih =>
      obtain ⟨vs, hext⟩ := ih hcalls.tail
      exact ⟨_, ((Bindings.match?_some hmatch).1.mono (List.subset_append_left _ vs)).trans
        (hext.mono (List.subset_append_right _ _))⟩
  | call hcall _ ih =>
      obtain ⟨vs, hext⟩ := ih hcalls.tail
      have hfirst := CheckedRule.call_extends (hcalls _ _ List.mem_cons_self) hcall
      exact ⟨_, (hfirst.mono (List.subset_append_left _ vs)).trans
        (hext.mono (List.subset_append_right _ _))⟩

theorem known (h : Carries sources r rest env final) (hcalls : GroundCalls rest) :
    ∀ p, .pattern p ∈ rest → sources.contains (final.instantiate p) := by
  induction h with
  | done => exact fun p hp => absurd hp List.not_mem_nil
  | @read q t rest env env' final ht hmatch h ih =>
      obtain ⟨-, hinst, hground⟩ := Bindings.match?_some hmatch
      obtain ⟨vs, hext⟩ := h.exists_extends hcalls.tail
      intro p hp
      rcases List.mem_cons.mp hp with heq | hp
      · cases heq
        rwa [Bindings.instantiate_eq_of_extends hext (hinst ▸ hground), hinst]
      · exact ih hcalls.tail p hp
  | call _ _ ih =>
      exact fun p hp => ih hcalls.tail p ((List.mem_cons.mp hp).resolve_left Premise.noConfusion)

theorem of_known {others : Sources} (h : Carries sources r rest env final)
    (hcalls : GroundCalls rest)
    (hknown : ∀ p, .pattern p ∈ rest → others.contains (final.instantiate p)) :
    Carries others r rest env final := by
  induction h with
  | done => exact .done
  | @read p t rest env env' final _ hmatch h ih =>
      obtain ⟨-, hinst, hground⟩ := Bindings.match?_some hmatch
      obtain ⟨vs, hext⟩ := h.exists_extends hcalls.tail
      have ht : final.instantiate p = t := by
        rw [Bindings.instantiate_eq_of_extends hext (hinst ▸ hground), hinst]
      exact .read (ht ▸ hknown p List.mem_cons_self) hmatch
        (ih hcalls.tail fun q hq => hknown q (List.mem_cons_of_mem _ hq))
  | call hcall _ ih =>
      exact .call hcall (ih hcalls.tail fun q hq => hknown q (List.mem_cons_of_mem _ hq))

end Carries

/-! ## Reading one pattern early -/

section Early

variable {sources : Sources} {r : CheckedRule} {τ : Nat → Term} {p t : Triple}
  {front back done : List Premise} {env env' mid mid' final : Bindings}

theorem groundCalls_of_subset (htests : r.OnlyTests) (hfront : ∀ c ∈ front, c ∈ r.body) :
    GroundCalls front :=
  fun b args hcall => (htests b args (hfront _ hcall)).grounds

theorem Carries.alike (hr : r.IsChecked) (htests : r.OnlyTests) (hτ : ∀ i, (τ i).isGround)
    (hp : p.occurrences ⊆ r.vars) (h : Carries sources r front env mid)
    (hfront : ∀ c ∈ front, c ∈ r.body) (hguard : GuardedFor p (done ++ front))
    (hsize : env.size = r.slots) (hmid : mid.Agrees τ) (halike : env.Alike (GoalSlot p done) env')
    (hagrees' : env'.Agrees τ) :
    ∃ mid', Carries sources r front env' mid' ∧ mid.Alike (GoalSlot p (done ++ front)) mid' ∧
      mid'.Agrees τ := by
  induction h generalizing done env' with
  | done =>
      rw [List.append_nil]
      exact ⟨env', .done, halike, hagrees'⟩
  | @read q t rest env env₁ mid ht hmatch hrest ih =>
      obtain ⟨hext, rfl, hground⟩ := Bindings.match?_some hmatch
      have hrestBody : ∀ c ∈ rest, c ∈ r.body := fun c hc => hfront c (List.mem_cons_of_mem _ hc)
      obtain ⟨vs, hlater⟩ := hrest.exists_extends (groundCalls_of_subset htests hrestBody)
      have hagrees : env₁.Agrees τ := fun i x hx => hmid i x (hlater.keeps i x hx)
      have hread : env₁.instantiate q = q.mapVars (bySlot τ) :=
        Bindings.instantiate_eq_bySlot hagrees q
          ((Bindings.isGround_instantiate_iff (hagrees.values hτ) q).mp hground)
      rw [hread] at ht hmatch
      have hslots : ∀ v ∈ q.occurrences, v.slot < env'.size := by
        intro v hv
        rw [halike.size_eq, hsize]
        exact hr.slot_lt (CheckedRule.mem_vars_iff.mpr ⟨_, hfront _ List.mem_cons_self, hv⟩)
      obtain ⟨env₁', hmatch', hagrees₁'⟩ := Bindings.match?_agrees hagrees' hτ hslots
      have hboth := halike.match? hmatch hmatch' hτ hagrees hagrees₁'
      have halike₁ : env₁.Alike (GoalSlot p (done ++ [.pattern q])) env₁' :=
        ⟨hboth.size_eq, fun i hi => hboth.has_iff i fun hslot =>
          hi ((CheckedRule.goalSlot_append_pattern i).mpr hslot)⟩
      rw [List.append_cons] at hguard ⊢
      obtain ⟨mid', hcarries, hresult⟩ :=
        ih hrestBody hguard (hext.size_eq.trans hsize) hmid halike₁ hagrees₁'
      exact ⟨mid', .read ht hmatch' hcarries, hresult⟩
  | @call b args rest env env₁ mid fresh hcall hrest ih =>
      have hbody : .call b args ∈ r.body := hfront _ List.mem_cons_self
      have hgrounds : b.Grounds := (htests b args hbody).grounds
      have hrestBody : ∀ c ∈ rest, c ∈ r.body := fun c hc => hfront c (List.mem_cons_of_mem _ hc)
      obtain ⟨vs, hlater⟩ := hrest.exists_extends (groundCalls_of_subset htests hrestBody)
      have hext := CheckedRule.call_extends hgrounds hcall
      have hagrees₁ : env₁.Agrees τ := fun i x hx => hmid i x (hlater.keeps i x hx)
      have hagrees : env.Agrees τ := fun i x hx => hagrees₁ i x (hext.keeps i x hx)
      obtain ⟨env₁', hcall', hboth, hagrees₁'⟩ :=
        CheckedRule.call_alike hgrounds (hagrees.values hτ) halike
          (hguard.not_goalSlot hr hp hbody) hcall hagrees₁ hagrees'
      have halike₁ : env₁.Alike (GoalSlot p (done ++ [.call b args])) env₁' :=
        ⟨hboth.size_eq, fun i hi => hboth.has_iff i fun hslot =>
          hi ((CheckedRule.goalSlot_append_call i).mpr hslot)⟩
      rw [List.append_cons] at hguard ⊢
      obtain ⟨mid', hcarries, hresult⟩ :=
        ih hrestBody hguard (hext.size_eq.trans hsize) hmid halike₁ hagrees₁'
      exact ⟨mid', .call hcall' hcarries, hresult⟩

theorem eq_of_match?_of_alike (hτ : ∀ i, (τ i).isGround)
    (halike : mid.Alike (GoalSlot p done) mid') (hmatch : mid.match? p t = some env)
    (henv : env.Agrees τ) (hmid' : mid'.Agrees τ) (ht : mid'.instantiate p = t) : mid' = env := by
  have hground : (mid'.instantiate p).isGround := by
    rw [ht]
    exact (Bindings.match?_some hmatch).2.2
  have hself := Bindings.match?_instantiate (hmid'.values hτ) hground
  rw [ht] at hself
  refine (halike.match? hmatch hself hτ henv hmid').eq ?_
  rintro i ⟨⟨⟨v, hv, hslot⟩, -⟩, hfree⟩
  exact hfree v hv hslot

theorem alike_of_match?_empty (hmatch : (Bindings.empty r.slots).match? p t = some env) :
    (Bindings.empty r.slots).Alike (GoalSlot p []) env := by
  have hext := (Bindings.match?_some hmatch).1.alike
  refine ⟨hext.size_eq, fun i hi => hext.has_iff i fun hslot => hi ⟨hslot, ?_⟩⟩
  exact fun _ hq => absurd hq List.not_mem_nil

theorem Carries.delay (hr : r.IsChecked) (htests : r.OnlyTests) (hτ : ∀ i, (τ i).isGround)
    (hp : p.occurrences ⊆ r.vars) (hfront : ∀ c ∈ front, c ∈ r.body) (hguard : GuardedFor p front)
    (hstart : (Bindings.empty r.slots).match? p (p.mapVars (bySlot τ)) = some env)
    (h : Carries sources r front env mid) (hmid : mid.Agrees τ) :
    ∃ mid', Carries sources r front (.empty r.slots) mid' ∧
      mid'.match? p (p.mapVars (bySlot τ)) = some mid := by
  obtain ⟨hext, hinst, hground⟩ := Bindings.match?_some hstart
  have hcalls : GroundCalls front := groundCalls_of_subset htests hfront
  obtain ⟨mid', hcarries, halike, hagrees⟩ :=
    h.alike hr htests hτ hp hfront (show GuardedFor p ([] ++ front) from hguard)
      (hext.size_eq.trans (Bindings.size_empty _)) hmid
      (alike_of_match?_empty hstart).symm (Bindings.agrees_empty _ _)
  obtain ⟨vs, hextFront⟩ := h.exists_extends hcalls
  obtain ⟨ws, hextFront'⟩ := hcarries.exists_extends hcalls
  have hslots : ∀ v ∈ p.occurrences, v.slot < mid'.size := fun v hv => by
    rw [hextFront'.size_eq, Bindings.size_empty]
    exact hr.slot_lt (hp hv)
  obtain ⟨env', hmatch, henv'⟩ := Bindings.match?_agrees hagrees hτ hslots
  have hread : mid.instantiate p = p.mapVars (bySlot τ) := by
    rw [Bindings.instantiate_eq_of_extends hextFront (hinst ▸ hground), hinst]
  obtain rfl := eq_of_match?_of_alike hτ halike.symm hmatch henv' hmid hread
  exact ⟨mid', hcarries, hmatch⟩

/-- What the clauses before a pattern do, they may do once it has been read. -/
theorem Carries.advance (hr : r.IsChecked) (htests : r.OnlyTests) (hτ : ∀ i, (τ i).isGround)
    (hp : p.occurrences ⊆ r.vars) (hfront : ∀ c ∈ front, c ∈ r.body) (hguard : GuardedFor p front)
    (h : Carries sources r front (.empty r.slots) mid)
    (hmatch : mid.match? p (p.mapVars (bySlot τ)) = some env) (henv : env.Agrees τ) :
    ∃ start, (Bindings.empty r.slots).match? p (p.mapVars (bySlot τ)) = some start ∧
      Carries sources r front start env := by
  obtain ⟨hext, -, hground⟩ := Bindings.match?_some hmatch
  have hmid : mid.Agrees τ := fun i x hx => henv i x (hext.keeps i x hx)
  have hslots : ∀ v ∈ p.occurrences, v.slot < (Bindings.empty r.slots).size := fun v hv => by
    rw [Bindings.size_empty]
    exact hr.slot_lt (hp hv)
  obtain ⟨start, hstart, hagrees⟩ := Bindings.match?_agrees (Bindings.agrees_empty _ _) hτ hslots
  obtain ⟨mid', hcarries, halike, hmid'⟩ :=
    h.alike hr htests hτ hp hfront (show GuardedFor p ([] ++ front) from hguard)
      (Bindings.size_empty _) hmid (alike_of_match?_empty hstart) hagrees
  obtain ⟨vs, hextFront⟩ := hcarries.exists_extends (groundCalls_of_subset htests hfront)
  have hread : mid'.instantiate p = p.mapVars (bySlot τ) := by
    have hinst := (Bindings.match?_some hstart).2.1
    rw [Bindings.instantiate_eq_of_extends hextFront (hinst ▸ hground), hinst]
  obtain rfl := eq_of_match?_of_alike hτ halike hmatch henv hmid' hread
  exact ⟨start, hstart, hcarries⟩

theorem carries_read_iff (hcalls : GroundCalls back) (ht : sources.contains t) :
    (∃ start, (Bindings.empty r.slots).match? p t = some start ∧
        Carries sources r back start final) ↔
      Carries sources r (.pattern p :: back) (.empty r.slots) final ∧ final.instantiate p = t := by
  constructor
  · rintro ⟨start, hstart, hcarries⟩
    obtain ⟨-, hinst, hground⟩ := Bindings.match?_some hstart
    obtain ⟨vs, hext⟩ := hcarries.exists_extends hcalls
    refine ⟨.read ht hstart hcarries, ?_⟩
    rw [Bindings.instantiate_eq_of_extends hext (hinst ▸ hground), hinst]
  · rintro ⟨hcarries, hfinal⟩
    cases hcarries with
    | @read _ u _ _ start _ _ hstart hcarries =>
        obtain ⟨-, hinst, hground⟩ := Bindings.match?_some hstart
        obtain ⟨vs, hext⟩ := hcarries.exists_extends hcalls
        have hu : u = t := by
          rw [← hfinal, Bindings.instantiate_eq_of_extends hext (hinst ▸ hground), hinst]
        exact ⟨start, hu ▸ hstart, hcarries⟩

/-- It makes no difference to where a body carries bindings whether a guarded pattern is read first
or in its turn. -/
theorem carries_middle_iff (hr : r.IsChecked) (htests : r.OnlyTests)
    (hbody : r.body = front ++ .pattern p :: back) (hguard : GuardedFor p front) :
    Carries sources r (.pattern p :: (front ++ back)) (.empty r.slots) final ↔
      Carries sources r r.body (.empty r.slots) final := by
  have hmem : ∀ c, c ∈ front ∨ c = .pattern p ∨ c ∈ back → c ∈ r.body := by
    intro c hc
    rw [hbody, List.mem_append, List.mem_cons]
    exact hc
  have hp : p.occurrences ⊆ r.vars := fun v hv =>
    CheckedRule.mem_vars_iff.mpr ⟨.pattern p, hmem _ (.inr (.inl rfl)), hv⟩
  have hfront : ∀ c ∈ front, c ∈ r.body := fun c hc => hmem c (.inl hc)
  have hback : GroundCalls back := groundCalls_of_subset htests fun c hc => hmem c (.inr (.inr hc))
  have hempty := Bindings.values_empty r.slots (·.isGround)
  constructor
  · intro h
    cases h with
    | @read _ t _ _ start _ ht hstart h =>
        obtain ⟨mid, hcarries, hrest⟩ := h.exists_mid
        obtain ⟨hext, hinst, hground⟩ := Bindings.match?_some hstart
        obtain ⟨vs, hextFront⟩ := hcarries.exists_extends (groundCalls_of_subset htests hfront)
        have hvalues : mid.Values (·.isGround) := hextFront.values (hext.values hempty)
        have hread : mid.instantiate p = t := by
          rw [Bindings.instantiate_eq_of_extends hextFront (hinst ▸ hground), hinst]
        rw [← hread, ← Bindings.mapVars_filled hvalues (hread ▸ hground)] at ht hstart
        obtain ⟨mid', hcarries', hmatch⟩ := hcarries.delay hr htests
          (Bindings.isGround_filled hvalues) hp hfront hguard hstart mid.agrees_filled
        rw [hbody]
        exact hcarries'.append (.read ht hmatch hrest)
  · intro h
    rw [hbody] at h
    obtain ⟨mid, hcarries, hrest⟩ := h.exists_mid
    cases hrest with
    | @read _ t _ _ env _ ht hmatch hrest =>
        obtain ⟨hext, hinst, hground⟩ := Bindings.match?_some hmatch
        obtain ⟨vs, hextFront⟩ := hcarries.exists_extends (groundCalls_of_subset htests hfront)
        have hvalues : env.Values (·.isGround) := hext.values (hextFront.values hempty)
        rw [← hinst, ← Bindings.mapVars_filled hvalues (hinst ▸ hground)] at ht hmatch
        obtain ⟨start, hstart, hcarries'⟩ := hcarries.advance hr htests
          (Bindings.isGround_filled hvalues) hp hfront hguard hmatch env.agrees_filled
        exact .read ht hstart (hcarries'.append hrest)

end Early

/-! ## What matching completes -/

section Complete

variable {sources : Sources} {r : CheckedRule} {rest : List Premise} {env final : Bindings}

theorem carries_pattern_iff (hs : sources.Built) (henv : env.Values (·.isGround)) {p : Triple} :
    Carries sources r (.pattern p :: rest) env final ↔
      ∃ t ∈ sources.find (env.instantiate p), ∃ env', env.match? p t = some env' ∧
        Carries sources r rest env' final := by
  constructor
  · intro h
    cases h with
    | @read _ t _ _ env' _ ht hmatch h =>
        obtain ⟨hext, hinst, hground⟩ := Bindings.match?_some hmatch
        have hvalues : env'.Values (·.isGround) := hext.values henv
        have hfilled : p.mapVars (bySlot env'.filled) = t :=
          (Bindings.mapVars_filled hvalues (hinst ▸ hground)).trans hinst
        have hagrees : env.Agrees env'.filled := fun i x hx =>
          env'.agrees_filled i x (hext.keeps i x hx)
        have hinstance :=
          Bindings.instantiate_matches? hagrees (Bindings.isGround_filled hvalues) p
        exact ⟨t, (hs.mem_find _ t).mpr ⟨ht, hfilled ▸ hinstance⟩, env', hmatch, h⟩
  · rintro ⟨t, ht, env', hmatch, h⟩
    exact .read ((hs.mem_find _ t).mp ht).1 hmatch h

theorem carries_call_iff {b : Builtin} (hb : b.IsDeterministic) {args : List Term} (fresh : Nat) :
    Carries sources r (.call b args :: rest) env final ↔
      ∃ env', (r.call b args env fresh).1 = .holds env' ∧ Carries sources r rest env' final := by
  constructor
  · intro h
    cases h with
    | @call _ _ _ _ env' _ fresh' hcall h =>
        exact ⟨env', (hb.rule_call_steady r args env fresh fresh').trans hcall, h⟩
  · rintro ⟨env', hcall, h⟩
    exact .call hcall h

/-- The solutions of clauses are the bindings to which they carry. -/
theorem mem_solutions_iff (hs : sources.Built) (hcalls : FunctionalCalls rest)
    (hgrounds : GroundCalls rest) (henv : env.Values (·.isGround)) :
    final ∈ solutions sources r rest env ↔ Carries sources r rest env final := by
  induction rest generalizing env with
  | nil =>
      rw [solutions, List.mem_singleton]
      exact ⟨fun h => h ▸ .done, fun h => by cases h; rfl⟩
  | cons c rest ih =>
      have hrest : ∀ env : Bindings, env.Values (·.isGround) →
          (final ∈ solutions sources r rest env ↔ Carries sources r rest env final) :=
        fun _ henv => ih hcalls.tail hgrounds.tail henv
      cases c with
      | pattern p =>
          rw [solutions, List.mem_flatMap, carries_pattern_iff hs henv]
          refine exists_congr fun t => and_congr_right fun _ => ?_
          cases hmatch : env.match? p t with
          | none => simp
          | some env' => simp [hrest env' ((Bindings.match?_some hmatch).1.values henv)]
      | call b args =>
          have hb : b.IsDeterministic := (hcalls b args List.mem_cons_self).toIsPure.isDeterministic
          rw [carries_call_iff hb 0, solutions]
          cases hcall : (r.call b args env 0).1 with
          | holds env' =>
              have hext := CheckedRule.call_extends (hgrounds b args List.mem_cons_self) hcall
              simp [hrest env' (hext.values henv)]
          | fails | noted | fault => simp

end Complete

/-! ## Triggers -/

def completions (sources : Sources) (r : CheckedRule) (record : Bool) (fresh : Nat)
    (rest : List Premise) (start : Bindings) (premises : List Triple) : Set Bindings :=
  {env | env ∈ (complete sources r record rest start premises (.start fresh)).firings.map
    Firing.env}

/-- The bindings with which the body of a rule is completed when a triple is tried on a trigger. -/
def triggered (sources : Sources) (record : Bool) (fresh : Nat) (t : Triple) (tr : Trigger) :
    Set Bindings :=
  {env | ∃ start, (Bindings.empty tr.rule.slots).match? tr.pattern t = some start ∧
    env ∈ completions sources tr.rule record fresh tr.rest start (if record then [t] else [])}

/-- The bindings with which clauses are completed when nothing is bound and nothing is tried. -/
def plain (sources : Sources) (r : CheckedRule) (record : Bool) (fresh : Nat)
    (body : List Premise) : Set Bindings :=
  completions sources r record fresh body (.empty r.slots) []

section Triggers

variable {sources : Sources} {r : CheckedRule} {t : Triple}

theorem functionalCalls_of_subset (htests : r.OnlyTests) {rest : List Premise}
    (hrest : ∀ c ∈ rest, c ∈ r.body) : FunctionalCalls rest :=
  fun b args hcall => (htests b args (hrest _ hcall)).isUsual.isFunctional

theorem mem_completions_iff (hs : sources.Built) (htests : r.OnlyTests) (record : Bool)
    (fresh : Nat) {rest : List Premise} (hrest : ∀ c ∈ rest, c ∈ r.body) {start : Bindings}
    (hstart : start.Values (·.isGround)) (premises : List Triple) (env : Bindings) :
    env ∈ completions sources r record fresh rest start premises ↔
      Carries sources r rest start env := by
  have hcalls : FunctionalCalls rest := functionalCalls_of_subset htests hrest
  have hsolved : (complete sources r record rest start premises (.start fresh)).firings.map
      Firing.env = solutions sources r rest start := (complete_solutions hcalls rfl).2
  rw [completions, Set.mem_ofPred_eq, hsolved]
  exact mem_solutions_iff hs hcalls (groundCalls_of_subset htests hrest) hstart

theorem mem_plain_iff (hs : sources.Built) (htests : r.OnlyTests) (record : Bool) (fresh : Nat)
    {body : List Premise} (hbody : ∀ c ∈ body, c ∈ r.body) (env : Bindings) :
    env ∈ plain sources r record fresh body ↔
      Carries sources r body (.empty r.slots) env :=
  mem_completions_iff hs htests record fresh hbody (Bindings.values_empty r.slots _) [] env

/-- A triple that is tried on a trigger completes the body as if the pattern stood first. -/
theorem triggered_eq_first (hs : sources.Built) (htests : r.OnlyTests) (ht : sources.contains t)
    (record : Bool) (fresh : Nat) {tr : Trigger} (htr : tr.IsOf r) :
    triggered sources record fresh t tr =
      {env ∈ plain sources r record fresh (.pattern tr.pattern :: tr.rest) |
        env.instantiate tr.pattern = t} := by
  have hrest : ∀ c ∈ tr.rest, c ∈ r.body := fun c hc => by
    rw [htr.rest] at hc
    exact List.mem_of_mem_eraseIdx hc
  have hfirst : ∀ c ∈ Premise.pattern tr.pattern :: tr.rest, c ∈ r.body := by
    refine List.forall_mem_cons.mpr ⟨List.mem_of_getElem? htr.clause, hrest⟩
  ext env
  rw [Set.mem_ofPred_eq, mem_plain_iff hs htests record fresh hfirst,
    ← carries_read_iff (groundCalls_of_subset htests hrest) ht]
  simp only [triggered, htr.rule, Set.mem_ofPred_eq]
  refine exists_congr fun start => and_congr_right fun hstart => ?_
  exact mem_completions_iff hs htests record fresh hrest
    ((Bindings.match?_some hstart).1.values (Bindings.values_empty r.slots _)) _ env

theorem triggered_eq_plain (hr : r.IsChecked) (hs : sources.Built) (htests : r.OnlyTests)
    (ht : sources.contains t) (record : Bool) (fresh : Nat) {tr : Trigger} (htr : tr.IsOf r)
    (hguard : r.GuardedAt tr.clauseIndex) :
    triggered sources record fresh t tr =
      {env ∈ plain sources r record fresh r.body | env.instantiate tr.pattern = t} := by
  obtain ⟨hlt, hget⟩ := List.getElem?_eq_some_iff.mp htr.clause
  have hbody : r.body =
      r.body.take tr.clauseIndex ++ .pattern tr.pattern :: r.body.drop (tr.clauseIndex + 1) := by
    rw [← hget, List.getElem_cons_drop, List.take_append_drop]
  have hrest : tr.rest = r.body.take tr.clauseIndex ++ r.body.drop (tr.clauseIndex + 1) := by
    rw [htr.rest, List.eraseIdx_eq_take_drop_succ]
  have hfirst : ∀ c ∈ Premise.pattern tr.pattern :: tr.rest, c ∈ r.body := by
    intro c hc
    rw [hrest] at hc
    rw [hbody]
    exact (List.perm_middle.mem_iff).mpr hc
  rw [triggered_eq_first hs htests ht record fresh htr]
  ext env
  rw [Set.mem_ofPred_eq, Set.mem_ofPred_eq, mem_plain_iff hs htests record fresh hfirst,
    mem_plain_iff hs htests record fresh fun _ hc => hc, hrest,
    carries_middle_iff hr htests hbody (hguard _ htr.clause)]

/-- What is completed when a triple is tried on the pattern clauses of a rule.  Each trigger gives
what matching from left to right gives with its pattern in front, of which the triple is an
instance.  A trigger gives the same in the order of the body, if no call before the pattern has a
variable of it that is new there.  If that is so of all triggers, they give together what matching
the body from left to right gives with some pattern of which the triple is an instance. -/
theorem triggered_matching (hr : r.IsChecked) (htests : r.OnlyTests) (hs : sources.Built)
    (ht : sources.contains t) (record : Bool) (fresh n : Nat) :
    (∀ tr ∈ r.triggers n, triggered sources record fresh t tr =
      {env ∈ plain sources r record fresh (.pattern tr.pattern :: tr.rest) |
        env.instantiate tr.pattern = t}) ∧
    (∀ tr ∈ r.triggers n, r.GuardedAt tr.clauseIndex → triggered sources record fresh t tr =
      {env ∈ plain sources r record fresh r.body | env.instantiate tr.pattern = t}) ∧
    ((∀ i, r.GuardedAt i) → {env | ∃ tr ∈ r.triggers n, env ∈ triggered sources record fresh t tr} =
      {env ∈ plain sources r record fresh r.body |
        ∃ p, .pattern p ∈ r.body ∧ env.instantiate p = t}) := by
  have hof : ∀ tr ∈ r.triggers n, tr.IsOf r := fun _ => CheckedRule.isOf_of_mem_triggers
  refine ⟨fun tr htr => triggered_eq_first hs htests ht record fresh (hof tr htr),
    fun tr htr => triggered_eq_plain hr hs htests ht record fresh (hof tr htr), fun hguard => ?_⟩
  have heach : ∀ tr ∈ r.triggers n, triggered sources record fresh t tr =
      {env ∈ plain sources r record fresh r.body | env.instantiate tr.pattern = t} := fun tr htr =>
    triggered_eq_plain hr hs htests ht record fresh (hof tr htr) (hguard _)
  ext env
  simp only [Set.mem_ofPred_eq]
  constructor
  · rintro ⟨tr, htr, henv⟩
    rw [heach tr htr] at henv
    exact ⟨henv.1, tr.pattern, List.mem_of_getElem? (hof tr htr).clause, henv.2⟩
  · rintro ⟨henv, p, hp, hinst⟩
    obtain ⟨i, hi⟩ := List.mem_iff_getElem?.mp hp
    have htr := CheckedRule.mem_triggers n hi
    exact ⟨_, htr, (heach _ htr).symm ▸ ⟨henv, hinst⟩⟩

end Triggers

/-! ## Instances -/

def namingRule : Rule :=
  .make
    [.pattern ⟨.named "x", .iri "sends", .named "y"⟩,
      .call "strConcat" [.named "x", .named "y", .named "n"],
      .pattern ⟨.named "y", .iri "knows", .named "z"⟩]
    [.pattern ⟨.named "z", .iri "hears", .named "n"⟩] .forward

def naming : CheckedRule :=
  ⟨namingRule,
    [.pattern ⟨.var ⟨"x", 0⟩, .iri "sends", .var ⟨"y", 1⟩⟩,
      .call Tabling.strConcat [.var ⟨"x", 0⟩, .var ⟨"y", 1⟩, .var ⟨"n", 2⟩],
      .pattern ⟨.var ⟨"y", 1⟩, .iri "knows", .var ⟨"z", 3⟩⟩]⟩

theorem check_namingRule : namingRule.check .standard = .ok naming := by rfl

theorem onlyTests_naming : naming.OnlyTests := by
  intro b args hcall
  have hb : b = Tabling.strConcat := by simp_all [naming]
  have hfind : Registry.standard.find? "strConcat" = some Tabling.strConcat := by rfl
  exact hb ▸ Builtin.isTest_of_find? hfind (by decide)

theorem guardedFor_knows :
    GuardedFor ⟨.var ⟨"y", 1⟩, .iri "knows", .var ⟨"z", 3⟩⟩ (naming.body.take 2) := by
  intro before b args after hfront a ha v hv hvp
  have hsplit : before = naming.body.take 1 ∧
      args = [.var ⟨"x", 0⟩, .var ⟨"y", 1⟩, .var ⟨"n", 2⟩] := by
    rcases before with _ | ⟨c, _ | ⟨c', before⟩⟩
    · simp [naming] at hfront
    · simp_all [naming]
    · simp [naming] at hfront
  obtain ⟨rfl, rfl⟩ := hsplit
  have hv' : v = ⟨"y", 1⟩ := by
    simp only [Triple.occurrences, Triple.terms, List.flatMap_cons, List.flatMap_nil,
      Term.occurrences, List.append_nil, List.nil_append, List.mem_append,
      List.mem_singleton] at hvp
    refine hvp.resolve_right ?_
    rintro rfl
    simp only [List.mem_cons, List.not_mem_nil, or_false] at ha
    rcases ha with rfl | rfl | rfl <;> simp [Term.occurrences] at hv
  exact ⟨⟨.var ⟨"x", 0⟩, .iri "sends", .var ⟨"y", 1⟩⟩, List.mem_singleton_self _,
    by simp [hv', Triple.occurrences, Triple.terms, Term.occurrences]⟩

theorem guardedAt_naming (i : Nat) : naming.GuardedAt i := by
  intro p hp
  rcases i with _ | _ | _ | i
  · exact fun before b args after h => by simp at h
  · simp [naming] at hp
  · obtain rfl : _ = p := by simpa [naming] using hp
    exact guardedFor_knows
  · simp [naming] at hp

def acquaintances : Sources where
  raw := .ofList [⟨.iri "ann", .iri "sends", .iri "bob"⟩, ⟨.iri "bob", .iri "knows", .iri "cid"⟩]
  schema := .empty
  deductions := .empty

theorem built_acquaintances : acquaintances.Built :=
  ⟨Store.built_ofList (by decide), .empty, .empty⟩

/-- Bob and Cid complete the rule when they are tried, as they do from left to right. -/
theorem naming_triggered :
    {env | ∃ tr ∈ naming.triggers 0,
        env ∈ triggered acquaintances false 0 ⟨.iri "bob", .iri "knows", .iri "cid"⟩ tr} =
      {env ∈ plain acquaintances naming false 0 naming.body | ∃ p, .pattern p ∈ naming.body ∧
        env.instantiate p = ⟨.iri "bob", .iri "knows", .iri "cid"⟩} ∧
    ⟨[some (.iri "ann"), some (.iri "bob"), some (.plain "annbob"), some (.iri "cid")]⟩ ∈
      plain acquaintances naming false 0 naming.body := by
  refine ⟨?_, ?_⟩
  · exact (triggered_matching ⟨_, _, ⟨_, _, _, none, rfl⟩, check_namingRule⟩ onlyTests_naming
      built_acquaintances (t := ⟨.iri "bob", .iri "knows", .iri "cid"⟩) (by decide +kernel) false 0
      0).2.2 guardedAt_naming
  · have hone : (complete acquaintances naming false naming.body (.empty 4) []
        (.start 0)).firings.map Firing.env =
          [⟨[some (.iri "ann"), some (.iri "bob"), some (.plain "annbob"), some (.iri "cid")]⟩] := by
      decide +kernel
    exact (congrArg (_ ∈ ·) hone).mpr (List.mem_singleton_self _)

def utteringRule : Rule :=
  .make
    [.call "isLiteral" [.named "x"], .pattern ⟨.named "y", .iri "says", .named "x"⟩]
    [.pattern ⟨.named "y", .iri "utters", .named "x"⟩] .forward

def isLiteral : Builtin := .test "isLiteral" Builtin.isLiteral

def uttering : CheckedRule :=
  ⟨utteringRule,
    [.call isLiteral [.var ⟨"x", 0⟩], .pattern ⟨.var ⟨"y", 1⟩, .iri "says", .var ⟨"x", 0⟩⟩]⟩

theorem check_utteringRule : utteringRule.check .standard = .ok uttering := by rfl

theorem onlyTests_uttering : uttering.OnlyTests := by
  intro b args hcall
  have hb : b = isLiteral := by simp_all [uttering]
  have hfind : Registry.standard.find? "isLiteral" = some isLiteral := by rfl
  exact hb ▸ Builtin.isTest_of_find? hfind (by decide)

def greeting : Sources := ⟨.ofList [⟨.iri "ann", .iri "says", .plain "hello"⟩], .empty, .empty⟩

/-- A test that stands before the pattern it is about fails from left to right, and holds when the
pattern is the trigger. -/
theorem uttering_differs :
    ¬ ∀ (r : CheckedRule) (sources : Sources) (t : Triple), r.IsChecked → r.OnlyTests →
      sources.Built → sources.contains t →
        {env | ∃ tr ∈ r.triggers 0, env ∈ triggered sources false 0 t tr} =
          {env ∈ plain sources r false 0 r.body |
            ∃ p, .pattern p ∈ r.body ∧ env.instantiate p = t} := by
  intro hclaim
  have hchecked : uttering.IsChecked := ⟨_, _, ⟨_, _, _, none, rfl⟩, check_utteringRule⟩
  have hbuilt : greeting.Built := ⟨Store.built_ofList (by decide), .empty, .empty⟩
  have hsame := hclaim uttering greeting ⟨.iri "ann", .iri "says", .plain "hello"⟩ hchecked
    onlyTests_uttering hbuilt (by decide +kernel)
  have hplain : plain greeting uttering false 0 uttering.body = ∅ := by
    have hnone : (complete greeting uttering false uttering.body (.empty 2) []
        (.start 0)).firings.map Firing.env = [] := by decide +kernel
    exact Set.eq_empty_of_forall_notMem fun env henv =>
      List.not_mem_nil ((congrArg (env ∈ ·) hnone).mp henv)
  have htriggered : (complete greeting uttering false (uttering.body.eraseIdx 1)
      ⟨[some (.plain "hello"), some (.iri "ann")]⟩ [] (.start 0)).firings.map Firing.env =
        [⟨[some (.plain "hello"), some (.iri "ann")]⟩] := by decide +kernel
  have hfound : (⟨[some (.plain "hello"), some (.iri "ann")]⟩ : Bindings) ∈
      {env | ∃ tr ∈ uttering.triggers 0,
        env ∈ triggered greeting false 0 ⟨.iri "ann", .iri "says", .plain "hello"⟩ tr} :=
    ⟨_, CheckedRule.mem_triggers 0 (i := 1) rfl,
      ⟨[some (.plain "hello"), some (.iri "ann")]⟩, by decide +kernel,
      (congrArg (_ ∈ ·) htriggered).mpr (List.mem_singleton_self _)⟩
  rw [hsame, hplain] at hfound
  exact hfound.1

end Forward

end TripleRules
