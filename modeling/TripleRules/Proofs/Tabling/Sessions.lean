import TripleRules.Proofs.Rule.Halting
import TripleRules.Proofs.Tabling.Discipline
import TripleRules.Proofs.Tabling.Answers
import TripleRules.Proofs.Tabling.Places
import TripleRules.Proofs.Tabling.Roster
import TripleRules.Proofs.Tabling.Turns
import TripleRules.Proofs.Term.Canonical

/-!
# Sessions

Tables are made once and used for many things: goals are asked for, generators are pumped, also when
a pump ends in a fault, and the tables are emptied when triples or rules have changed.  Between two
calls everything in them is consistent, and no pump comes to a step that the engine is not made for.
A fault breaks off a turn; only that no work is forgotten cannot be promised after it.
-/

namespace TripleRules.Tabling

/-- The tables between two calls, under the triples and rules that are in force.  Says whether a
pump has come to a fault since the tables were last empty. -/
inductive Session : Context → Tables → (faulted : Bool) → Prop where
  | new {ctx : Context} (hctx : ctx.Built) (settings : ReasoningSettings) :
      Session ctx (.new settings) false
  | ask {ctx : Context} {t : Tables} {faulted : Bool} (h : Session ctx t faulted)
      (goal : Triple) : Session ctx (t.generatorFor ctx goal).2 faulted
  | pump {ctx : Context} {t : Tables} {faulted : Bool} (h : Session ctx t faulted)
      {fuel limit fresh : Nat} {target : GeneratorId} {o : Outcome}
      (ho : t.pump fuel ctx target limit fresh = some o) :
      Session ctx o.tables (faulted || o.fault.isSome)
  | reset {ctx ctx' : Context} {t : Tables} {faulted : Bool} (h : Session ctx t faulted)
      (hctx' : ctx'.Built) : Session ctx' t.reset false

def Suspension.Stands (s : Suspension) : Prop :=
  ∃ done, s.rule.body = done ++ .pattern s.pattern :: s.rest

/-- The engine is about to do what it is not made for. -/
inductive Astray (ctx : Context) (m : Machine) : Prop where
  /-- A rule without a single head is to be started. -/
  | start {turn : Turn} {r : CheckedRule} {rules : List CheckedRule} {below : List ChoicePoint}
      (hturn : m.turn = some turn)
      (hstack : (m.tables.generator turn.id).stack = .alternatives [] (r :: rules) :: below)
      (h : r.headPattern? = none)
  /-- A rule that does not stand at a pattern is to go on with a triple at hand. -/
  | data {turn : Turn} {s : Suspension} {x : Triple} {left : List Triple}
      {below : List ChoicePoint} (hturn : m.turn = some turn)
      (hstack : (m.tables.generator turn.id).stack = .data s (x :: left) :: below)
      (h : ¬ s.Stands)
  /-- A rule that does not stand at a pattern is to go on with an answer. -/
  | read {turn : Turn} {f : FrameId} {below : List ChoicePoint} (hturn : m.turn = some turn)
      (hstack : (m.tables.generator turn.id).stack = .consume f :: below)
      (h : ¬ (m.tables.frame f).continuation.Stands)
  /-- A rule that is taken on has no single head to conclude. -/
  | conclude {turn : Turn} {r : CheckedRule} {rest : List Premise} {env : Bindings} {t : Tables}
      (hturn : m.turn = some turn)
      (htakes : Takes m.tables turn.id (some (.cursor r rest env)) t)
      (h : r.headPattern? = none)
  /-- A triple at hand is to be put to the answers of a goal that is complete. -/
  | fact {turn : Turn} {x : Triple} {t : Tables} (hturn : m.turn = some turn)
      (htakes : Takes m.tables turn.id (some (.fact x)) t)
      (h : (t.generator turn.id).isComplete)
  /-- An answer of a rule is to be put to those of a goal that is complete. -/
  | answer {turn : Turn} {r : CheckedRule} {rest : List Premise} {env : Bindings}
      {premises : List Triple} {t t' : Tables} {fresh fresh' : Nat} {x : Triple}
      {d : Option Derivation} (hturn : m.turn = some turn)
      (htakes : Takes m.tables turn.id (some (.cursor r rest env)) t)
      (hproceed :
        proceed ctx turn.id (m.tables.generator turn.id).goal r rest env premises t fresh =
        (.answer x d, t', fresh'))
      (h : (t'.generator turn.id).isComplete)

/-- How goals, answers, frames and the agenda agree with one another between two calls. -/
structure Tables.Consistent (t : Tables) (faulted : Bool) : Prop where
  /-- The cache has just the goals of the generators, in canonical form, each once. -/
  cache : t.cache = (List.range t.size).map fun id => ((t.generator id).goal, id)
  keys : (t.cache.map (·.1)).Nodup
  normal : ∀ id < t.size, (t.generator id).goal.normalize = (t.generator id).goal
  /-- Answers are distinct ground instances of their goal, and an open search knows them all. -/
  distinct : ∀ id, (t.generator id).results.toList.Nodup
  ground : ∀ id, ∀ x ∈ (t.generator id).results, x.isGround
  matching : ∀ id, ∀ x ∈ (t.generator id).results, (t.generator id).goal.matches? x
  known : ∀ id, (t.generator id).isComplete = false →
    ∀ x, x ∈ (t.generator id).known ↔ x ∈ (t.generator id).results
  /-- The agenda has just the generators that are marked as queued, each once. -/
  queued : ∀ id, (t.generator id).queued ↔ id ∈ t.agenda
  agenda : t.agenda.Nodup
  /-- A frame of an open goal is in the queue or on the stack of the goal just when it is marked as
  pending, and then once. -/
  place : ∀ f < t.frames.size, (t.generator (t.frame f).owner).isComplete = false →
    (t.generator (t.frame f).owner).held.count f = if (t.frame f).pending then 1 else 0
  /-- No frame has read more answers than there are. -/
  read : ∀ f < t.frames.size,
    (t.frame f).nextResult ≤ (t.generator (t.frame f).target).results.size
  /-- Without faults, a frame is pending that has something to read or whose goal has come to its
  end, and is not finished; and whoever has work is queued. -/
  awake : faulted = false → ∀ f < t.frames.size, (t.frame f).finished = false →
    (t.generator (t.frame f).target).isComplete ∨
      (t.frame f).nextResult < (t.generator (t.frame f).target).results.size →
    (t.frame f).pending
  turn : faulted = false → ∀ id, (t.generator id).hasWork → (t.generator id).queued

/-! ## What every step keeps -/

def wellFormed {ctx : Context} (hctx : ctx.Built) : Discipline ctx where
  goal g := g.normalize = g
  cursor _ r rest _ := ctx.rules.Has r ∧ ∃ done, r.body = done ++ rest
  answer g x := x.isGround ∧ g.matches? x
  fact _ hx :=
    have hfound := (hctx.sources.mem_find _ _).mp hx
    ⟨hctx.sources.isGround hfound.1, hfound.2⟩
  start _ hr _ := ⟨hctx.rules.has_of_mem_candidates hr, [], rfl⟩
  call h _ := by
    obtain ⟨hr, done, hbody⟩ := h
    exact ⟨hr, done ++ [_], by rw [hbody, List.append_assoc, List.singleton_append]⟩
  subgoal _ := Triple.normalize_normalize _
  data h _ _ := by
    obtain ⟨hr, done, hbody⟩ := h
    exact ⟨hr, done ++ [_], by rw [hbody, List.append_assoc, List.singleton_append]⟩
  read h _ _ := by
    obtain ⟨hr, done, hbody⟩ := h
    exact ⟨hr, done ++ [_], by rw [hbody, List.append_assoc, List.singleton_append]⟩
  head _ _ hground hgoal := ⟨hground, hgoal⟩

/-- What holds of the tables between any two steps, after faults too. -/
structure Kept {ctx : Context} (hctx : ctx.Built) (t : Tables) : Prop where
  linked : Linked t
  recorded : Recorded t
  obeyed : (wellFormed hctx).Obeyed t
  listed : Listed t
  placed : Placed t none

namespace Kept

variable {ctx : Context} {hctx : ctx.Built} {t t' : Tables}

theorem blank (h : t.Blank) : Kept hctx t :=
  ⟨.blank h, .blank h, .blank h, .blank h, .blank h⟩

theorem ask (h : Kept hctx t) (goal : Triple) : Kept hctx (t.generatorFor ctx goal).2 :=
  ⟨h.linked.generatorFor ctx goal, h.recorded.generatorFor ctx goal,
    h.obeyed.generatorFor h.linked (Triple.normalize_normalize goal),
    h.listed.generatorFor ctx goal, h.placed.generatorFor h.linked ctx goal⟩

theorem enqueue (h : Kept hctx t) (id : GeneratorId) : Kept hctx (t.enqueue id) :=
  have hs := t.settles_enqueue id
  ⟨h.linked.settles hs, h.recorded.settles hs, h.obeyed.settles hs, h.listed.enqueue id,
    h.placed.enqueue id⟩

theorem takes (h : Kept hctx t) {id : GeneratorId} {w : Option Way} (ht : Takes t id w t') :
    Kept hctx t' :=
  ⟨h.linked.takes ht, h.recorded.takes ht, (h.obeyed.takes h.linked ht).1, h.listed.takes ht,
    h.placed.takes ht⟩

theorem move (h : Kept hctx t) {turn turn' : Option Turn} (hm : Move ctx t turn t' turn') :
    Kept hctx t' := by
  have hrecorded : Recorded t' := by
    rcases hm.settles_or_work h.linked with ⟨S, -, hs⟩ | ⟨id, hw⟩
    · exact h.recorded.settles hs
    · exact h.recorded.work hw
  exact ⟨h.linked.move hm, hrecorded, h.obeyed.move h.linked hm, h.listed.move hm,
    h.placed.move h.linked hm⟩

theorem persistent : Persistent ctx (fun t _ => Kept hctx t) (Kept hctx) where
  ask _ goal h := h.ask goal
  enqueue _ id h _ := h.enqueue id
  move _ _ _ _ h hm := h.move hm
  fault _ _ _ _ _ _ _ _ _ h ht _ := h.takes ht

theorem persistent_attentive :
    Persistent ctx (fun t turn => Kept hctx t ∧ Attentive t turn) (Kept hctx) where
  ask t goal h := by
    have halert := (Attentive.none_iff.mp h.2).generatorFor h.1.linked ctx goal
    exact ⟨h.1.ask goal, Attentive.none_iff.mpr halert⟩
  enqueue t id h _ := by
    have halert := (Attentive.none_iff.mp h.2).enqueue id
    exact ⟨h.1.enqueue id, Attentive.none_iff.mpr
      (halert.mono (fun _ _ hb => hb.1) (fun _ _ hl => hl) fun _ ho => ho)⟩
  move _ _ _ _ h hm := ⟨h.1.move hm, h.2.move h.1.linked hm⟩
  fault _ _ _ _ _ _ _ _ _ h ht _ := h.1.takes ht

/-- The engine does only what it is made for. -/
theorem not_astray {m : Machine} (h : Kept hctx m.tables) : ¬ Astray ctx m := by
  have htop : ∀ {id : GeneratorId} {c : ChoicePoint} {below : List ChoicePoint},
      (m.tables.generator id).stack = c :: below →
        (wellFormed hctx).Allows (m.tables.generator id).goal c := fun hstack =>
    h.obeyed.choice _ _ (by rw [hstack]; exact List.mem_cons_self)
  have hheaded : ∀ {r : CheckedRule}, ctx.rules.Has r → r.headPattern? ≠ none := by
    intro r hr
    obtain ⟨head, hhead⟩ := hctx.rules.exists_head hr
    rw [hhead]
    exact Option.some_ne_none head
  intro hastray
  cases hastray with
  | start _ hstack hnone =>
      have hr := (htop hstack).2 _ List.mem_cons_self
      exact hheaded (hctx.rules.has_of_mem_candidates hr) hnone
  | data _ hstack hstands => exact hstands (htop hstack).1.2
  | @read turn f _ _ hstack hstands =>
      have hf := h.linked.stack turn.id f (by rw [hstack]; exact List.mem_cons_self)
      exact hstands (h.obeyed.frame f hf.1).2
  | conclude _ htakes hnone =>
      exact hheaded ((h.obeyed.takes h.linked htakes).2 _ rfl).1 hnone
  | fact _ htakes hc =>
      rw [htakes.isComplete_eq, htakes.isComplete] at hc
      exact Bool.noConfusion hc
  | @answer turn r rest env premises t t' fresh _ _ _ _ htakes hproceed hc =>
      have hid := Tables.lt_size_of_isComplete_eq_false htakes.isComplete
      have hfollows := proceed_follows ctx (htakes.size ▸ hid) r rest env premises fresh
      rw [← htakes.goal, hproceed] at hfollows
      rw [hfollows.1, htakes.isComplete_eq, htakes.isComplete] at hc
      exact Bool.noConfusion hc

theorem consistent {faulted : Bool} (h : Kept hctx t)
    (hattentive : faulted = false → Attentive t none) : t.Consistent faulted where
  cache := h.listed.cache
  keys := h.listed.nodup_keys h.linked
  normal := h.obeyed.goal
  distinct := h.recorded.nodup
  ground id x hx := (h.obeyed.answer id x hx).1
  matching id x hx := (h.obeyed.answer id x hx).2
  known := h.recorded.known
  queued := h.listed.queued
  agenda := h.listed.agenda
  place f hf hc := by
    have hplace := h.placed.place f hf hc
    simpa using hplace
  read := h.placed.read
  awake hfaulted f hf hfin hunread := by
    have halert := Attentive.none_iff.mp (hattentive hfaulted)
    by_contra hp
    obtain ⟨hopen, hread⟩ :=
      (halert.waiting f hf hfin (by simpa using hp)).resolve_left not_false
    rcases hunread with hc | hlt
    · rw [hopen] at hc
      cases hc
    · exact absurd hread (Nat.not_le_of_lt hlt)
  turn hfaulted id hwork :=
    ((Attentive.none_iff.mp (hattentive hfaulted)).turn id hwork).resolve_right not_false

end Kept

theorem Session.kept {ctx : Context} {t : Tables} {faulted : Bool} (h : Session ctx t faulted) :
    ∃ hctx : ctx.Built, Kept hctx t ∧ (faulted = false → Attentive t none) := by
  have hblank : ∀ {t : Tables}, t.Blank → Attentive t none :=
    fun h => Attentive.none_iff.mpr (.blank h)
  induction h with
  | new hctx settings =>
      exact ⟨hctx, .blank (Tables.blank_new settings), fun _ => hblank (Tables.blank_new settings)⟩
  | ask _ goal ih =>
      obtain ⟨hctx, hkept, hattentive⟩ := ih
      exact ⟨hctx, hkept.ask goal, fun hfaulted =>
        (Kept.persistent_attentive.ask _ goal ⟨hkept, hattentive hfaulted⟩).2⟩
  | @pump ctx t faulted _ fuel limit fresh target o ho ih =>
      obtain ⟨hctx, hkept, hattentive⟩ := ih
      refine ⟨hctx, ?_, fun hfaulted => ?_⟩
      · rcases Kept.persistent.pump hkept ho with ⟨-, hkept', -⟩ | ⟨-, hkept'⟩
        · exact hkept'
        · exact hkept'
      · rw [Bool.or_eq_false_iff] at hfaulted
        rcases Kept.persistent_attentive.pump ⟨hkept, hattentive hfaulted.1⟩ ho with
          ⟨-, hrest, -⟩ | ⟨hfault, -⟩
        · exact hrest.2
        · rw [hfaulted.2] at hfault
          cases hfault
  | @reset _ _ t _ _ hctx' _ =>
      exact ⟨hctx', .blank t.blank_reset, fun _ => hblank t.blank_reset⟩

/-- Between two calls the tables are consistent, whatever has been asked, pumped and emptied, and
whether or not a pump has ended in a fault; and no step of a pump that starts then goes astray. -/
theorem session_consistent {ctx : Context} {t : Tables} {faulted : Bool}
    (h : Session ctx t faulted) :
    t.Consistent faulted ∧
      ∀ target limit fresh m, Passes ctx t target limit fresh m → ¬ Astray ctx m := by
  obtain ⟨hctx, hkept, hattentive⟩ := h.kept
  exact ⟨hkept.consistent hattentive, fun target limit fresh m hm =>
    (Kept.persistent.passes hkept hm).not_astray⟩

/-! ## An instance -/

def posts (sent : List Triple) : Context where
  sources := ⟨.ofList sent, .empty, .empty⟩
  rules := ⟨some (RuleSet.empty.insert .get), .empty⟩

theorem built_posts {sent : List Triple} (h : ∀ x ∈ sent, x.isGround) : (posts sent).Built where
  sources := ⟨Store.built_ofList h, .empty, .empty⟩
  rules :=
    { base := by
        rintro s ⟨⟩
        exact .insert .empty CheckedRule.isChecked_get rfl
      installed := .empty }

def badPost : Context := posts [⟨.iri "a", .iri "sends", .iri "bad"⟩]

def goodPost : Context := posts [⟨.iri "a", .iri "sends", .iri "b"⟩]

def anyGets : Triple := ⟨.named "x", .iri "gets", .named "y"⟩

def brokenPump : Option Outcome :=
  ((Tables.new {}).generatorFor badPost anyGets).2.pump 100 badPost 0 1 0

def mendedPump (o : Outcome) : Option Outcome :=
  (o.tables.reset.generatorFor goodPost anyGets).2.pump 100 goodPost 0 1 0

theorem mendedPump_consistent : ∃ o o', brokenPump = some o ∧ o.fault.isSome ∧
    mendedPump o = some o' ∧ o.tables.Consistent true ∧ o'.tables.Consistent false ∧
      ∀ m, Passes goodPost o'.tables 0 1 0 m → ¬ Astray goodPost m := by
  have hpumps : brokenPump.any fun o => o.fault.isSome &&
      (mendedPump o).any fun o' => !o'.fault.isSome := by
    decide +kernel
  rw [Option.any_eq_true] at hpumps
  obtain ⟨o, ho, hpumps⟩ := hpumps
  rw [Bool.and_eq_true, Option.any_eq_true] at hpumps
  obtain ⟨hfault, o', ho', hfault'⟩ := hpumps
  rw [Bool.not_eq_true'] at hfault'
  have hbroken : Session badPost o.tables (false || o.fault.isSome) :=
    .pump (.ask (.new (built_posts (by decide)) {}) anyGets) ho
  have hmended : Session goodPost o'.tables (false || o'.fault.isSome) :=
    .pump (.ask (.reset hbroken (built_posts (by decide))) anyGets) ho'
  rw [hfault, Bool.false_or] at hbroken
  rw [hfault', Bool.false_or] at hmended
  exact ⟨o, o', ho, hfault, ho', (session_consistent hbroken).1, (session_consistent hmended).1,
    (session_consistent hmended).2 0 1 0⟩

end TripleRules.Tabling
