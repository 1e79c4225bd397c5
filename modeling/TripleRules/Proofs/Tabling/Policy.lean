import TripleRules.Proofs.Derivation.Log
import TripleRules.Proofs.Rule.Policy
import TripleRules.Proofs.Tabling.Answers

/-!
# Policies in the backward engine

A policy that the rules in force and the sources keep to holds of all that is open in the tables: of
the rules that wait, of the rules that may be tried, and of all answers.  One step takes a rule up,
makes the calls that come next, and leaves the rule waiting, or offers an answer; what it records is
the derivation of that answer and nothing else.
-/

namespace TripleRules

open Tabling
open Tabling.Cursor (Leads)

/-! ## What is recorded -/

namespace Tabling.Tables

variable (t : Tables)

def book : Bool × DerivationLog := (t.record, t.log)

variable {t} in
theorem record_eq {t' : Tables} (h : t'.book = t.book) : t'.record = t.record :=
  congrArg Prod.fst h

variable {t} in
theorem log_eq {t' : Tables} (h : t'.book = t.book) : t'.log = t.log := congrArg Prod.snd h

@[simp] theorem book_modifyGenerator (id : GeneratorId) (f : Generator → Generator) :
    (t.modifyGenerator id f).book = t.book := rfl

@[simp] theorem book_modifySearch (id : GeneratorId) (f : Search → Search) :
    (t.modifySearch id f).book = t.book := rfl

@[simp] theorem book_modifyFrame (id : FrameId) (f : Frame → Frame) :
    (t.modifyFrame id f).book = t.book := rfl

@[simp] theorem book_count (f : Tabling.Stats → Tabling.Stats) : (t.count f).book = t.book := rfl

@[simp] theorem book_enqueue (id : GeneratorId) : (t.enqueue id).book = t.book := by
  unfold enqueue
  dsimp only
  split <;> rfl

@[simp] theorem book_generatorFor (ctx : Context) (goal : Triple) :
    (t.generatorFor ctx goal).2.book = t.book := by
  rcases t.generatorFor_cases ctx goal with ⟨id, f, -, heq⟩ | ⟨f, -, heq⟩
  · rw [heq, book_count]
  · rw [heq, book_enqueue, book_count]
    rfl

@[simp] theorem book_suspend (target owner : GeneratorId) (s : Suspension) :
    (t.suspend target owner s).book = t.book := by
  obtain ⟨f, heq⟩ := t.suspend_eq target owner s
  rw [heq]
  split <;> rfl

@[simp] theorem book_wake (f : FrameId) : (t.wake f).book = t.book := by
  unfold wake
  dsimp only
  split
  · rfl
  · split
    · rfl
    · rw [book_enqueue, book_modifySearch, book_modifyFrame]

theorem book_foldl {α : Type} {op : Tables → α → Tables} (hop : ∀ t a, (op t a).book = t.book)
    (l : List α) : (l.foldl op t).book = t.book :=
  List.foldlRecOn l op (motive := fun t' => t'.book = t.book) rfl fun t' h a _ => (hop t' a).trans h

@[simp] theorem book_complete (id : GeneratorId) : (t.complete id).book = t.book := by
  unfold complete
  dsimp only
  split
  · rfl
  · rw [book_foldl _ book_wake, book_foldl _ fun t f => book_modifyFrame t f _]
    rfl

@[simp] theorem book_notifyReaders (id : GeneratorId) (before : Nat) :
    (t.notifyReaders id before).book = t.book := by
  unfold notifyReaders
  dsimp only
  split
  · rfl
  · exact book_foldl t book_wake _

@[simp] theorem book_yieldTurn (turn : Turn) : (t.yieldTurn turn).book = t.book := by
  rw [yieldTurn, book_notifyReaders, book_enqueue]

@[simp] theorem book_blockTurn (turn : Turn) : (t.blockTurn turn).book = t.book := by
  rw [blockTurn, book_notifyReaders, book_modifySearch]

@[simp] theorem book_finishTurn (turn : Turn) : (t.finishTurn turn).book = t.book := by
  rw [finishTurn, book_complete, book_notifyReaders]

@[simp] theorem book_checkCompletion (target : GeneratorId) :
    (t.checkCompletion target).book = t.book := by
  unfold checkCompletion
  split
  · exact t.book_enqueue _
  · exact t.book_wake _
  · rw [book_foldl _ book_complete, book_count]

theorem stack_suspend (target owner : GeneratorId) (s : Suspension) (j : GeneratorId) :
    ((t.suspend target owner s).generator j).stack = (t.generator j).stack := by
  obtain ⟨f, heq⟩ := t.suspend_eq target owner s
  have hlink : (((t.link target owner s).count f).generator j).stack = (t.generator j).stack :=
    t.stack_link target owner s j
  rw [heq]
  split
  · refine (stack_modifySearch _ owner ?_ j).trans hlink
    exact fun _ => rfl
  · exact hlink

end Tabling.Tables

/-! ## Rules that are taken up -/

namespace Tabling

theorem Takes.book {t t' : Tables} {id : GeneratorId} {w : Option Way} (h : Takes t id w t') :
    t'.book = t.book := by
  cases h <;> rfl

def Suspension.cursor (s : Suspension) : Cursor :=
  ⟨s.rule, s.env, .pattern s.pattern :: s.rest, s.premises⟩

abbrev Cursor.Calls (record : Bool) (c c' : Cursor) : Prop := Leads record (fun _ _ => False) c c'

/-- A rule in progress that the next step comes to: the choice on top of a search leads to it, with
the calls that come before it. -/
def Machine.TakesUp (m : Machine) (c : Cursor) : Prop :=
  ∃ turn choice below c₀, m.turn = some turn ∧
    (m.tables.generator turn.id).stack = choice :: below ∧
    (m.tables.openChoice turn.id (m.tables.generator turn.id).goal choice).1 = .resumed c₀ ∧
    Cursor.Calls m.tables.record c₀ c

/-- A triple that the next step offers to the goal whose turn it is, whether or not the goal has it:
a triple at hand, or what a rule comes to. -/
def Machine.Offers (ctx : Context) (m : Machine) (x : Triple) : Prop :=
  ∃ turn choice below, m.turn = some turn ∧
    (m.tables.generator turn.id).stack = choice :: below ∧
    ((m.tables.openChoice turn.id (m.tables.generator turn.id).goal choice).1 = .fact x ∨
      ∃ c d t fresh,
        (m.tables.openChoice turn.id (m.tables.generator turn.id).goal choice).1 = .resumed c ∧
        proceed ctx turn.id (m.tables.generator turn.id).goal c.rule c.rest c.env c.premises
          (m.tables.openChoice turn.id (m.tables.generator turn.id).goal choice).2 m.fresh =
            (.answer x d, t, fresh))

end Tabling

namespace Policy

variable {P : Policy} {t t' : Tables} {ctx : Context}

def Allows (P : Policy) (log : DerivationLog) : ChoicePoint → Prop
  | .alternatives facts rules => (∀ x ∈ facts, P.triple log x) ∧ ∀ r ∈ rules, P.rule r
  | .data s left => P.cursor log s.cursor ∧ ∀ x ∈ left, P.triple log x
  | .consume _ => True

def Admits (P : Policy) (log : DerivationLog) : Opening → Prop
  | .fact x => P.triple log x
  | .resumed c => P.cursor log c
  | .exhausted | .unfit => True

theorem cursor_of_resume? (P : Policy) {log : DerivationLog} {s : Suspension} {x : Triple}
    {record : Bool} {c : Cursor} (hs : P.cursor log s.cursor) (hx : P.triple log x)
    (hrecord : record = P.record) (h : s.resume? x record = some c) : P.cursor log c := by
  unfold Suspension.resume? at h
  rw [Option.map_eq_some_iff] at h
  obtain ⟨env', hmatch, rfl⟩ := h
  rw [hrecord]
  exact P.read hs hx hmatch

structure Holds (P : Policy) (t : Tables) : Prop where
  record : t.record = P.record
  choice : ∀ id, ∀ c ∈ (t.generator id).stack, P.Allows t.log c
  frame : ∀ f < t.frames.size, P.cursor t.log (t.frame f).continuation.cursor
  answer : ∀ id, ∀ x ∈ (t.generator id).results, P.triple t.log x
  log : t.log.All P.note

structure Supplies (P : Policy) (ctx : Context) : Prop where
  built : ctx.Built
  rule : ∀ r, ctx.rules.Has r → P.rule r
  triple : ∀ log t, ctx.sources.contains t → P.triple log t

theorem Supplies.of_mem_find (h : P.Supplies ctx) {g x : Triple} (log : DerivationLog)
    (hx : x ∈ ctx.sources.find g) : P.triple log x :=
  h.triple log x ((h.built.sources.mem_find g x).mp hx).1

theorem Allows.record {log : DerivationLog} {c : ChoicePoint}
    (h : P.Allows log c) (d : Derivation) :
    P.Allows (log.record d) c := by
  cases c with
  | alternatives facts rules => exact h.imp_left fun hx x hmem => P.triple_record d (hx x hmem)
  | data s left => exact h.imp (P.cursor_record d) fun hx x hmem => P.triple_record d (hx x hmem)
  | consume f => trivial

namespace Holds

theorem blank (h : t.Blank) (hrecord : t.record = P.record) (hlog : t.log = .empty) :
    P.Holds t := by
  have hg : ∀ id, t.generator id = default := fun id =>
    Tables.generator_of_size_le (by rw [Tables.size, h.generators]; exact Nat.zero_le id)
  refine ⟨hrecord, fun id c hc => ?_, fun f hf => ?_, fun id x hx => ?_, ?_⟩
  · rw [hg] at hc
    exact absurd hc List.not_mem_nil
  · rw [h.frames, Array.size_empty] at hf
    exact absurd hf (Nat.not_lt_zero f)
  · rw [hg] at hx
    exact absurd hx (Array.not_mem_empty x)
  · rw [hlog]
    exact DerivationLog.all_empty _

theorem settles {S : List GeneratorId} (h : P.Holds t) (hs : Settles S t t')
    (hbook : t'.book = t.book) : P.Holds t' := by
  refine ⟨(Tables.record_eq hbook).trans h.record, fun id c hc => ?_, fun f hf => ?_,
    fun id x hx => ?_, ?_⟩
  all_goals rw [Tables.log_eq hbook]
  · exact h.choice id c (hs.mem_stack hc)
  · rw [hs.continuation]
    exact h.frame f (hs.frames ▸ hf)
  · exact h.answer id x (hs.results id ▸ hx)
  · exact h.log

theorem modifySearch (h : P.Holds t) (id : GeneratorId) {g : Search → Search}
    (hstack : ∀ s, (t.generator id).search = some s → ∀ c ∈ (g s).stack,
      c ∈ s.stack ∨ P.Allows t.log c) : P.Holds (t.modifySearch id g) := by
  refine ⟨h.record, fun j c hc => ?_, h.frame, fun j x hx => ?_, h.log⟩
  · rcases Tables.mem_stack_modifySearch hc with ⟨-, hc⟩ | ⟨rfl, s, hs, hc⟩
    · exact h.choice j c hc
    · rcases hstack s hs c hc with hc | hc
      · exact h.choice j c (Generator.stack_of_some hs ▸ hc)
      · exact hc
  · exact h.answer j x (t.results_modifySearch id g j ▸ hx)

theorem modifyFrame (h : P.Holds t) (id : FrameId) {g : Frame → Frame}
    (hcontinuation : ∀ x, (g x).continuation = x.continuation) : P.Holds (t.modifyFrame id g) := by
  refine ⟨h.record, h.choice, fun f hf => ?_, h.answer, h.log⟩
  rw [t.modifyFrame_keeps (·.continuation) id hcontinuation]
  exact h.frame f (by simpa using hf)

theorem replaceTop (h : P.Holds t) (id : GeneratorId) {c : ChoicePoint} (hc : P.Allows t.log c) :
    P.Holds (t.replaceTop id c) := by
  refine h.modifySearch id fun s _ c' hc' => ?_
  rcases List.mem_cons.mp hc' with rfl | hc'
  · exact .inr hc
  · exact .inl (List.mem_of_mem_tail hc')

theorem addGenerator (h : P.Holds t) (hctx : P.Supplies ctx) (key : Triple) :
    P.Holds (t.addGenerator ctx key) := by
  refine ⟨h.record, fun id c hc => ?_, h.frame, fun id x hx => ?_, h.log⟩
  · rw [t.generator_addGenerator] at hc
    split at hc
    · simp only [Generator.new, Generator.stack, Option.map_some, Option.getD_some,
        List.mem_singleton] at hc
      rw [hc]
      exact ⟨fun x hx => hctx.of_mem_find _ hx,
        fun r hr => hctx.rule r (hctx.built.rules.has_of_mem_candidates hr)⟩
    · exact h.choice id c hc
  · rw [t.generator_addGenerator] at hx
    split at hx
    · exact absurd hx (Array.not_mem_empty x)
    · exact h.answer id x hx

theorem generatorFor (h : P.Holds t) (hctx : P.Supplies ctx) (goal : Triple) :
    P.Holds (t.generatorFor ctx goal).2 := by
  have hbook := t.book_generatorFor ctx goal
  rcases t.settles_generatorFor ctx goal with hs | ⟨-, hs⟩
  · exact h.settles hs hbook
  · exact (h.addGenerator hctx goal.normalize).settles hs hbook

theorem suspend (h : P.Holds t) (target owner : GeneratorId) {s : Suspension}
    (hs : P.cursor t.log s.cursor) : P.Holds (t.suspend target owner s) := by
  have hbook := t.book_suspend target owner s
  refine ⟨(Tables.record_eq hbook).trans h.record, fun id c hc => ?_, fun f hf => ?_,
    fun id x hx => ?_, ?_⟩
  all_goals rw [Tables.log_eq hbook]
  · exact h.choice id c (t.stack_suspend target owner s id ▸ hc)
  · rw [frame_suspend]
    split
    · exact hs
    · rename_i hne
      rw [frames_suspend] at hf
      exact h.frame f (Nat.lt_of_le_of_ne (Nat.lt_succ_iff.mp hf) hne)
  · exact h.answer id x (results_suspend t target owner s id ▸ hx)
  · exact h.log

theorem addResult (h : P.Holds t) (id : GeneratorId) {x : Triple} {d : Option Derivation}
    (hx : P.triple (d.elim t.log t.log.record) x) (hd : ∀ d' ∈ d, P.note d') :
    P.Holds (t.addResult id x d).2 := by
  unfold Tables.addResult
  split
  · exact h
  · have hpush : ∀ (log : DerivationLog), P.triple log x → log.All P.note →
        (∀ {c}, P.Allows t.log c → P.Allows log c) → (∀ {c}, P.cursor t.log c → P.cursor log c) →
        (∀ {y}, P.triple t.log y → P.triple log y) →
        P.Holds { t.pushAnswer id x with log := log } := by
      intro log hx hlog hallows hcursor htriple
      refine ⟨h.record, fun j c hc => ?_, fun f hf => hcursor (h.frame f hf), fun j y hy => ?_,
        hlog⟩
      · exact hallows (h.choice j c (t.stack_pushAnswer id x j ▸ hc))
      · by_cases hid : id < t.size
        · have hresults := t.results_pushAnswer hid x j
          change y ∈ ((t.pushAnswer id x).generator j).results at hy
          rw [hresults] at hy
          split at hy
          · rcases Array.mem_push.mp hy with hy | rfl
            · exact htriple (h.answer j y hy)
            · exact hx
          · exact htriple (h.answer j y hy)
        · have hsame : (t.pushAnswer id x).generator j = t.generator j := by
            rw [Tables.pushAnswer, Tables.generator_modifyGenerator, if_neg fun hj => hid hj.2]
          exact htriple (h.answer j y (hsame ▸ hy))
    cases d with
    | none =>
        have hpushed := hpush t.log hx h.log (fun h => h) (fun h => h) fun h => h
        exact hpushed.settles (.of_eq rfl rfl rfl) rfl
    | some d =>
        have hpushed := hpush (t.log.record d) hx (h.log.record (hd d rfl)) (fun h => h.record d)
          (P.cursor_record d) (P.triple_record d)
        exact hpushed.settles (.of_eq rfl rfl rfl) rfl

/-! ## Steps -/

theorem openChoice (h : P.Holds t) (hlinked : Linked t) {id : GeneratorId} {c : ChoicePoint}
    {below : List ChoicePoint} (hstack : (t.generator id).stack = c :: below) :
    P.Admits t.log (t.openChoice id (t.generator id).goal c).1 ∧
      P.Holds (t.openChoice id (t.generator id).goal c).2 ∧
      (t.openChoice id (t.generator id).goal c).2.book = t.book := by
  have htop : c ∈ (t.generator id).stack := by
    rw [hstack]
    exact List.mem_cons_self
  have hallows := h.choice id c htop
  cases c with
  | alternatives facts rules =>
      obtain ⟨hfacts, hrules⟩ := hallows
      cases facts with
      | cons x facts =>
          refine ⟨hfacts x List.mem_cons_self, h.replaceTop id ⟨fun y hy => ?_, hrules⟩, rfl⟩
          exact hfacts y (List.mem_cons_of_mem x hy)
      | nil =>
          cases rules with
          | nil => exact ⟨trivial, h, rfl⟩
          | cons r rules =>
              have hrest : P.Holds (t.replaceTop id (.alternatives [] rules)) :=
                h.replaceTop id ⟨hfacts, fun q hq => hrules q (List.mem_cons_of_mem r hq)⟩
              unfold Tables.openChoice
              dsimp only
              split
              · rename_i env hstart
                exact ⟨P.start (hrules r List.mem_cons_self) hstart, hrest, rfl⟩
              · exact ⟨trivial, hrest, rfl⟩
  | data s left =>
      obtain ⟨hs, hleft⟩ := hallows
      cases left with
      | nil => exact ⟨trivial, h, rfl⟩
      | cons x left =>
          have hrest : P.Holds (t.replaceTop id (.data s left)) :=
            h.replaceTop id ⟨hs, fun y hy => hleft y (List.mem_cons_of_mem x hy)⟩
          unfold Tables.openChoice
          dsimp only
          split
          · rename_i c hresume
            refine ⟨?_, hrest, rfl⟩
            exact P.cursor_of_resume? hs (hleft x List.mem_cons_self) hrest.record hresume
          · exact ⟨trivial, hrest, rfl⟩
  | consume f =>
      have hlt : f < t.frames.size := (hlinked.stack id f htop).1
      unfold Tables.openChoice Tables.readAnswer
      dsimp only
      cases hread : (t.generator (t.frame f).target).results[(t.frame f).nextResult]? with
      | none => exact ⟨trivial, h.modifyFrame f fun _ => rfl, rfl⟩
      | some x =>
          have hx := h.answer _ x (Array.mem_of_getElem? hread)
          dsimp only
          cases hresume : (t.frame f).continuation.resume? x t.record with
          | none => exact ⟨trivial, h.modifyFrame f fun _ => rfl, rfl⟩
          | some c =>
              exact ⟨P.cursor_of_resume? (h.frame f hlt) hx h.record hresume,
                h.modifyFrame f fun _ => rfl, rfl⟩

theorem takesUp {m : Machine} (h : P.Holds m.tables) (hlinked : Linked m.tables) {c : Cursor}
    (hc : m.TakesUp c) : P.cursor m.tables.log c := by
  obtain ⟨turn, choice, below, c₀, -, hstack, hopen, hcalls⟩ := hc
  have hadmits := (h.openChoice hlinked hstack).1
  rw [hopen] at hadmits
  exact P.leads (fun _ _ => False.elim) hadmits (h.record ▸ hcalls)

end Holds

structure Concludes (P : Policy) (log : DerivationLog) (goal : Triple) (c : Cursor) (x : Triple)
    (d : Option Derivation) : Prop where
  cursor : P.cursor log c
  rest : c.rest = []
  head : ∃ head, c.rule.headPattern? = some head ∧ x = c.env.instantiate head
  ground : x.isGround
  goal : goal.matches? x
  derivation : d = if P.record then some ⟨c.rule.rule, x, c.premises⟩ else none

theorem Concludes.exists_head {log : DerivationLog} {goal : Triple} {c : Cursor} {x : Triple}
    {d : Option Derivation} (h : P.Concludes log goal c x d) :
    ∃ head, .pattern head ∈ c.rule.rule.head ∧ x = c.env.instantiate head ∧
      P.cursor log ⟨c.rule, c.env, [], c.premises⟩ ∧ (c.env.instantiate head).isGround := by
  obtain ⟨hc, hrest, ⟨head, hhead, rfl⟩, hground, -, -⟩ := h
  refine ⟨head, ?_, rfl, ?_, hground⟩
  · rw [CheckedRule.headPattern?_eq_some.mp hhead]
    exact List.mem_cons_self
  · rw [← hrest]
    exact hc

theorem Concludes.triple {log : DerivationLog} {goal : Triple} {c : Cursor} {x : Triple}
    {d : Option Derivation} (h : P.Concludes log goal c x d) :
    P.triple (d.elim log log.record) x := by
  obtain ⟨head, hmem, rfl, hc, hground⟩ := h.exists_head
  have hconclude := P.conclude hc hmem hground
  rw [h.derivation]
  split
  · rename_i hrecord
    rw [if_pos hrecord] at hconclude
    exact hconclude
  · rename_i hrecord
    rw [if_neg hrecord] at hconclude
    exact hconclude

theorem Concludes.note {log : DerivationLog} {goal : Triple} {c : Cursor} {x : Triple}
    {d : Option Derivation} (h : P.Concludes log goal c x d) : ∀ d' ∈ d, P.note d' := by
  obtain ⟨head, hmem, rfl, hc, hground⟩ := h.exists_head
  intro d' hd'
  rw [h.derivation] at hd'
  split at hd'
  · rw [← Option.some.inj hd']
    exact P.derive hc hmem hground
  · cases hd'

def Results (P : Policy) (t : Tables) (goal : Triple) : Proceeding × Tables × Nat → Prop
  | (.answer x d, t', _) => t' = t ∧ ∃ c, P.Concludes t.log goal c x d
  | (.nothing, t', _) => P.Holds t' ∧ t'.book = t.book
  | (.fault _, _, _) => True

theorem Holds.proceed (h : P.Holds t) (hctx : P.Supplies ctx) (id : GeneratorId) (goal : Triple)
    {r : CheckedRule} {rest : List Premise} {env : Bindings} {premises : List Triple}
    (hc : P.cursor t.log ⟨r, env, rest, premises⟩) (fresh : Nat) :
    P.Results t goal (proceed ctx id goal r rest env premises t fresh) := by
  have hproceeds := proceeds ctx id goal r rest env premises t fresh
  generalize Tabling.proceed ctx id goal r rest env premises t fresh = result at hproceeds ⊢
  induction hproceeds with
  | answer hhead hground hgoal =>
      exact ⟨rfl, _, hc, rfl, ⟨_, hhead, rfl⟩, hground, hgoal, by rw [h.record]⟩
  | barren => exact ⟨h, rfl⟩
  | holds hcall _ ih => exact ih (P.call hc hcall)
  | refused => exact ⟨h.settles (.of_eq rfl rfl rfl) rfl, rfl⟩
  | fault => trivial
  | @suspended p rest env fresh =>
      have hbook := t.book_generatorFor ctx (env.instantiate p)
      refine ⟨(h.generatorFor hctx (env.instantiate p)).suspend _ id ?_,
        (Tables.book_suspend _ _ _ _).trans hbook⟩
      rw [Tables.log_eq hbook]
      exact hc
  | opened =>
      refine ⟨h.modifySearch id fun s _ c hmem => ?_, rfl⟩
      rcases List.mem_cons.mp hmem with rfl | hmem
      · exact .inr ⟨hc, fun x hx => hctx.of_mem_find _ hx⟩
      · exact .inl hmem

theorem Holds.offers {m : Machine} (h : P.Holds m.tables) (hctx : P.Supplies ctx)
    (hlinked : Linked m.tables) {x : Triple} (hx : m.Offers ctx x) : ∃ log, P.triple log x := by
  obtain ⟨turn, choice, below, -, hstack, hoffer⟩ := hx
  obtain ⟨hadmits, hholds, hbook⟩ := h.openChoice hlinked hstack
  rcases hoffer with hfact | ⟨c, d, t, fresh, hresumed, hproceed⟩
  · rw [hfact] at hadmits
    exact ⟨_, hadmits⟩
  · rw [hresumed, ← Tables.log_eq hbook] at hadmits
    have hresults := hholds.proceed hctx turn.id (m.tables.generator turn.id).goal hadmits m.fresh
    rw [hproceed] at hresults
    obtain ⟨-, c', hconcludes⟩ := hresults
    exact ⟨_, hconcludes.triple⟩

/-- What a step does to what has been recorded: nothing, or it adds the derivation of an answer that
its goal has not had.  By then no triple at hand is left to be offered. -/
inductive Writes (P : Policy) (t : Tables) : DerivationLog → Prop where
  | none : Writes P t t.log
  | answer {id : GeneratorId} {c : Cursor} {x : Triple} {d : Derivation}
      (hconcludes : P.Concludes t.log (t.generator id).goal c x (some d))
      (hopen : (t.generator id).isComplete = false) (hnew : x ∉ (t.generator id).known)
      (hfacts : ∀ y facts rules below,
        (t.generator id).stack ≠ .alternatives (y :: facts) rules :: below) :
      Writes P t (t.log.record d)

theorem Holds.offer {m : Machine} (h : P.Holds m.tables) (turn : Turn) {x : Triple}
    {d : Option Derivation} (hx : P.triple (d.elim m.tables.log m.tables.log.record) x)
    (hd : ∀ d' ∈ d, P.note d') : P.Holds (m.offer turn x d).tables := by
  have hadd := h.addResult turn.id hx hd
  unfold Machine.offer
  split
  · rename_i heq
    rw [heq] at hadd
    exact hadd
  · rename_i heq
    rw [heq] at hadd
    exact hadd

theorem log_offer (m : Machine) (turn : Turn) (x : Triple) (d : Option Derivation) :
    (m.offer turn x d).tables.log = if x ∈ (m.tables.generator turn.id).known then m.tables.log
      else d.elim m.tables.log m.tables.log.record := by
  have hlog : (m.offer turn x d).tables.log = (m.tables.addResult turn.id x d).2.log := by
    unfold Machine.offer
    split
    · rename_i heq
      rw [heq]
    · rename_i heq
      rw [heq]
  rw [hlog, Tables.addResult]
  simp only [← search_any_known]
  split
  · rfl
  · cases d <;> rfl

theorem generator_readAnswer (t : Tables) (f : FrameId) (j : GeneratorId) :
    (t.readAnswer f).2.generator j = t.generator j := by
  unfold Tables.readAnswer
  dsimp only
  split
  · split <;> rfl
  · rfl

theorem known_openChoice (t : Tables) (id : GeneratorId) (goal : Triple) (c : ChoicePoint)
    (j : GeneratorId) :
    ((t.openChoice id goal c).2.generator j).known = (t.generator j).known := by
  unfold Tables.openChoice
  split
  · exact t.known_replaceTop id _ j
  · dsimp only
    split <;> exact t.known_replaceTop id _ j
  · rfl
  · dsimp only
    split <;> exact t.known_replaceTop id _ j
  · rfl
  · rename_i f
    have hread := generator_readAnswer t f j
    split <;> rename_i heq <;> rw [heq] at hread <;> exact congrArg Generator.known hread

theorem ne_fact_of_resumed {id : GeneratorId} {goal : Triple} {c : ChoicePoint} {c₀ : Cursor}
    (h : (t.openChoice id goal c).1 = .resumed c₀) (y : Triple) (facts : List Triple)
    (rules : List CheckedRule) : c ≠ .alternatives (y :: facts) rules := by
  rintro rfl
  cases h

theorem writes_of_book (h : t'.book = t.book) : P.Writes t t'.log := by
  rw [Tables.log_eq h]
  exact .none

/-- A rule is taken on.  If it comes to an answer, the derivation of that is recorded, unless the
goal has had it. -/
theorem Holds.follow {m m' : Machine} {turn : Turn} {goal : Triple} {c : Cursor}
    (h : P.Holds m.tables) (hctx : P.Supplies ctx) (hc : P.cursor m.tables.log c)
    (hstep : Machine.follow ctx m turn goal c = .next m') :
    P.Holds m'.tables ∧ (m'.tables.log = m.tables.log ∨
      ∃ x d c', P.Concludes m.tables.log goal c' x (some d) ∧
        x ∉ (m.tables.generator turn.id).known ∧ m'.tables.log = m.tables.log.record d) := by
  have hproceed := h.proceed hctx turn.id goal hc m.fresh
  unfold Machine.follow at hstep
  split at hstep
  · rename_i x d t fresh heq
    rw [heq] at hproceed
    obtain ⟨rfl, c', hconcludes⟩ := hproceed
    cases hstep
    have hlog := log_offer ⟨m.tables, fresh, some turn⟩ turn x d
    refine ⟨Holds.offer (m := ⟨m.tables, fresh, some turn⟩) h turn hconcludes.triple
      hconcludes.note, ?_⟩
    by_cases hknown : x ∈ (m.tables.generator turn.id).known
    · rw [if_pos hknown] at hlog
      exact .inl hlog
    · rw [if_neg hknown] at hlog
      cases d with
      | none => exact .inl hlog
      | some d => exact .inr ⟨x, d, c', hconcludes, hknown, hlog⟩
  · rename_i t fresh heq
    rw [heq] at hproceed
    cases hstep
    exact ⟨hproceed.1, .inl (Tables.log_eq hproceed.2)⟩
  · cases hstep

theorem Holds.turnStep {limit : Nat} {m m' : Machine} {turn : Turn} {s : Search}
    (h : P.Holds m.tables) (hctx : P.Supplies ctx) (hlinked : Linked m.tables)
    (hs : (m.tables.generator turn.id).search = some s)
    (hstep : Machine.turnStep ctx limit m turn (m.tables.generator turn.id).goal s = .next m') :
    P.Holds m'.tables ∧ P.Writes m.tables m'.tables.log := by
  have hstack := Generator.stack_of_some hs
  unfold Machine.turnStep at hstep
  split at hstep
  · cases hstep
    exact ⟨h.settles (Tables.settles_yieldTurn hlinked turn) (by simp), writes_of_book (by simp)⟩
  · split at hstep
    · cases hstep
      refine ⟨h.modifySearch turn.id fun s' _ c hc => ?_, writes_of_book rfl⟩
      rw [List.mem_singleton.mp hc]
      exact .inr trivial
    · split at hstep
      · cases hstep
        exact ⟨h.settles (Tables.settles_blockTurn hlinked turn) (by simp),
          writes_of_book (by simp)⟩
      · cases hstep
        exact ⟨h.settles (Tables.settles_finishTurn hlinked turn) (by simp),
          writes_of_book (by simp)⟩
    · rename_i choice below hcons
      obtain ⟨hadmits, hholds, hbook⟩ := h.openChoice hlinked (hstack.trans hcons)
      have hlog := Tables.log_eq hbook
      split at hstep
      · rename_i t heq
        rw [heq] at hholds hbook hlog
        cases hstep
        refine ⟨Holds.modifySearch (t := t) hholds turn.id fun s' hs' c hc => ?_,
          writes_of_book hbook⟩
        -- The rest of the stack was there before.
        have hold : c ∈ (m.tables.generator turn.id).stack := by
          rw [hstack, hcons]
          exact List.mem_cons_of_mem _ hc
        rw [hlog]
        exact .inr (h.choice turn.id c hold)
      · rename_i t heq
        rw [heq] at hholds hbook
        cases hstep
        exact ⟨hholds, writes_of_book hbook⟩
      · rename_i x t heq
        rw [heq] at hadmits hholds hlog
        cases hstep
        have hsame := log_offer { m with tables := t } turn x none
        rw [Option.elim_none, ite_self, hlog] at hsame
        refine ⟨Holds.offer (m := { m with tables := t }) hholds turn ?_ (by simp), hsame ▸ .none⟩
        change P.triple t.log x
        rw [hlog]
        exact hadmits
      · rename_i c t heq
        have hfacts := ne_fact_of_resumed (congrArg Prod.fst heq)
        have hknown := known_openChoice m.tables turn.id (m.tables.generator turn.id).goal choice
          turn.id
        rw [heq] at hadmits hholds hlog hknown
        have hc : P.cursor t.log c := by
          rw [hlog]
          exact hadmits
        obtain ⟨hholds', hwrites⟩ := Holds.follow (m := { m with tables := t }) hholds hctx hc hstep
        refine ⟨hholds', ?_⟩
        rcases hwrites with hsame | ⟨x, d, c', hconcludes, hnew, hwrites⟩
        · rw [hsame, hlog]
          exact .none
        · rw [hwrites, hlog]
          rw [hlog] at hconcludes
          refine .answer hconcludes (Generator.isComplete_of_some hs) (hknown ▸ hnew) ?_
          intro y facts rules below' hy
          rw [hstack, hcons] at hy
          exact hfacts y facts rules (List.cons.inj hy).1

theorem Holds.step {limit start : Nat} {target : GeneratorId} {m m' : Machine}
    (h : P.Holds m.tables) (hctx : P.Supplies ctx) (hlinked : Linked m.tables)
    (hstep : Machine.step ctx limit start target m = .next m') :
    P.Holds m'.tables ∧ P.Writes m.tables m'.tables.log := by
  unfold Machine.step at hstep
  split at hstep
  · rename_i turn _
    dsimp only at hstep
    split at hstep
    · rename_i s hs
      exact h.turnStep hctx hlinked hs hstep
    · cases hstep
      exact ⟨h, .none⟩
  · dsimp only at hstep
    split at hstep
    · cases hstep
    · split at hstep
      · rename_i id agenda _
        cases hstep
        exact ⟨h.settles (m.tables.settles_beginTurn id agenda) rfl, writes_of_book rfl⟩
      · cases hstep
        obtain ⟨S, -, hs⟩ := Tables.checkCompletion_settles hlinked target
        exact ⟨h.settles hs (by simp), writes_of_book (by simp)⟩

/-! ## Pumps -/

structure Governs (P : Policy) (t : Tables) : Prop extends P.Holds t where
  linked : Linked t

namespace Governs

theorem blank (h : t.Blank) (hrecord : t.record = P.record) (hlog : t.log = .empty) :
    P.Governs t := ⟨.blank h hrecord hlog, .blank h⟩

theorem ask (h : P.Governs t) (hctx : P.Supplies ctx) (goal : Triple) :
    P.Governs (t.generatorFor ctx goal).2 :=
  ⟨h.generatorFor hctx goal, h.linked.generatorFor ctx goal⟩

theorem enqueue (h : P.Governs t) (id : GeneratorId) : P.Governs (t.enqueue id) :=
  have hs := t.settles_enqueue id
  ⟨h.settles hs (by simp), h.linked.settles hs⟩

theorem step {limit start : Nat} {target : GeneratorId} {m m' : Machine} (h : P.Governs m.tables)
    (hctx : P.Supplies ctx) (hlimit : 1 ≤ limit)
    (hstep : Machine.step ctx limit start target m = .next m') : P.Governs m'.tables :=
  ⟨(h.toHolds.step hctx h.linked hstep).1, h.linked.move (step_next hlimit hstep)⟩

/-- Every state that a pump passes through keeps to the policy. -/
theorem passes (h : P.Governs t) (hctx : P.Supplies ctx) {target : GeneratorId}
    {limit fresh : Nat} {m : Machine} (hm : Passes ctx t target limit fresh m) :
    P.Governs m.tables := by
  induction hm with
  | start =>
      dsimp only
      split
      · exact h.enqueue target
      · exact h
  | step _ hstep ih => exact ih.step hctx (Nat.le_max_right limit 1) hstep

theorem pump (h : P.Governs t) (hctx : P.Supplies ctx) {fuel limit fresh : Nat}
    {target : GeneratorId} {o : Outcome} (ho : t.pump fuel ctx target limit fresh = some o) :
    o.tables.record = P.record ∧ (o.fault = none → P.Governs o.tables) := by
  obtain ⟨m, hm, hdone⟩ := exists_passes_of_pump ho
  have hgoverns := h.passes hctx hm
  rcases step_done hdone with ⟨-, htables, -⟩ | ⟨_, _, _, _, _, t', _, f, _, htakes, _, htables, hf⟩
  · rw [htables]
    exact ⟨hgoverns.record, fun _ => hgoverns⟩
  · rw [htables]
    refine ⟨(Tables.record_eq htakes.book).trans hgoverns.record, fun hfault => ?_⟩
    rw [hfault] at hf
    cases hf

end Governs

end Policy

end TripleRules
