import TripleRules.Proofs.Graph.Delivery
import TripleRules.Proofs.Tabling.Faults

/-!
# Readings that are dropped

A reading that is dropped leaves its goal in the tables, and later pumps go on with it.  That brings
no query other answers than it would have had.  But a fault ends whatever query happens to be
pumping, also if it lies in the rules of a goal that nobody reads any more.  Such a fault can be
traced back: a query comes to one only if its own pattern, or one that has been asked for since
goals were last forgotten, leads to a fault when it is asked alone.
-/

namespace TripleRules

open Tabling

/-! ## Patterns that lead to faults -/

namespace Tabling

/-- One of these patterns leads to a fault. -/
def Suspect (ctx : Context) (asked : List Triple) : Prop := ∃ q ∈ asked, Faulty ctx q.normalize

abbrev Traced {ctx : Context} (hctx : ctx.Built) (asked : List Triple) (t : Tables) : Prop :=
  Upheld (tracing hctx (Suspect ctx asked)) t

namespace Traced

variable {ctx : Context} {hctx : ctx.Built} {asked : List Triple} {t : Tables}

theorem append (h : Traced hctx asked t) (pattern : Triple) : Traced hctx (asked ++ [pattern]) t :=
  h.widen fun ⟨q, hq, hfaulty⟩ => ⟨q, List.mem_append_left _ hq, hfaulty⟩

theorem ask (h : Traced hctx asked t) (pattern : Triple) :
    Traced hctx (asked ++ [pattern]) (t.generatorFor ctx pattern).2 :=
  (h.append pattern).generatorFor pattern fun hfaulty =>
    ⟨pattern, List.mem_append_right _ List.mem_cons_self, hfaulty⟩

end Traced

end Tabling

namespace InferenceGraph

variable {g g' g'' : InferenceGraph} {r : Reasoner} {asked : List Triple}

/-! ## Graphs in which nothing is known, and what is done to them -/

/-- A graph that has just been bound, or whose goals have just been forgotten, be it for good. -/
inductive Emptied (r : Reasoner) : InferenceGraph → Prop where
  | bind {fuel fresh fresh' : Nat} {data : Store} {g : InferenceGraph} (hdata : data.Built)
      (h : r.bind fuel data fresh = some (.ok g, fresh')) : Emptied r g
  | reset {g : InferenceGraph} (h : History r g) : Emptied r g.reset
  | close {g : InferenceGraph} (h : History r g) : Emptied r g.close

theorem Emptied.blank (h : Emptied r g) : g.tables.Blank := by
  cases h with
  | bind _ hbind => exact blank_bind hbind
  | @reset g | @close g => exact g.tables.blank_reset

theorem Emptied.context_built (h : Emptied r g) (hr : r.Built) : g.context.Built := by
  cases h with
  | bind hdata hbind => exact ((History.bind hdata hbind).stocked hr).context_built hr
  | reset h | close h => exact (h.stocked hr).context_built hr

/-- Readings that are dropped after any number of items, and questions whether a triple holds, with
the patterns asked for since the last fault.  A fault forgets all goals. -/
inductive Abandoned (g : InferenceGraph) : List Triple → InferenceGraph → Prop where
  | nil : Abandoned g [] g
  | find {asked : List Triple} {g' g'' : InferenceGraph} (h : Abandoned g asked g')
      (pattern : Triple) {items : List Item} {a : Answers}
      (hreads : Reads (g'.find pattern).2 (g'.find pattern).1 items g'' a) :
      Abandoned g (if items.all (·.answer?.isOk) then asked ++ [pattern] else []) g''
  | contains {asked : List Triple} {g' : InferenceGraph} (h : Abandoned g asked g')
      {fuel fresh : Nat} {t : Triple} {reply : Reply (Except Fault Bool)}
      (hcontains : g'.contains fuel t fresh = some reply) :
      Abandoned g (if reply.value.isOk then asked ++ [t] else []) reply.graph

theorem Abandoned.onlyTables (h : Abandoned g asked g') : OnlyTables g g' := by
  induction h with
  | nil => exact .refl g
  | find _ pattern hreads ih =>
      exact hreads.keeps (fun _ _ _ _ _ hread hnext => hread.trans (onlyTables_next hnext))
        (ih.trans (onlyTables_find _ pattern))
  | contains _ hcontains ih => exact ih.trans (onlyTables_contains hcontains)

theorem Reads.of_contains {fuel fresh : Nat} {t : Triple} {reply : Reply (Except Fault Bool)}
    (h : g.contains fuel t fresh = some reply) :
    ∃ item a, Reads (g.find t).2 (g.find t).1 [item] reply.graph a ∧
      reply.value.isOk = item.answer?.isOk := by
  rw [InferenceGraph.contains, Option.map_eq_some_iff] at h
  obtain ⟨reply', hnext, rfl⟩ := h
  refine ⟨_, _, Reads.nil.snoc hnext, ?_⟩
  cases reply'.value.1 <;> rfl

/-! ## Open graphs -/

section Open

variable {hctx : g.context.Built} (hdet : g.context.Deterministic) (hopen : g.closed = false)
  {t : Tables} {pattern : Triple}

include hdet hopen

theorem Reads.traced (h : Traced hctx asked t) {items : List Item} {a : Answers}
    (hreads : Reads (InferenceGraph.find { g with tables := t } pattern).2
      (InferenceGraph.find { g with tables := t } pattern).1 items g' a) :
    ∃ t', g' = { g with tables := t' } ∧
      Traced hctx (if items.all (·.answer?.isOk) then asked ++ [pattern] else []) t' := by
  have hanswers : ∀ (found : List Triple) (n : Nat),
      (found.map Item.answer ++ List.replicate n Item.finished).all (·.answer?.isOk) := by
    simp [Item.answer?, Except.isOk, Except.toBool]
  cases htabled : g.rules.isTabled pattern with
  | true =>
      obtain ⟨hid, -⟩ := h.linked.generatorFor_fst g.context pattern
      rw [find_tabled (g := { g with tables := t }) hopen htabled] at hreads
      have hcourse := Reads.course (g := g) (sustained_tracing hctx hdet _) (fun _ _ h => h.linked)
        (h.ask pattern) hid hreads
      cases hcourse with
      | @reading t' found hread =>
          have hall := hanswers found 0
          rw [List.replicate_zero, List.append_nil] at hall
          rw [if_pos hall]
          exact ⟨t', rfl, hread.holds⟩
      | @ended t' found hread n =>
          rw [if_pos (hanswers found (n + 1))]
          exact ⟨t', rfl, hread.holds⟩
      | @broken t₁ t' found _ _ f n =>
          -- The tables are empty again, so nothing in them leads anywhere.
          rw [if_neg (by simp [Item.answer?, Except.isOk, Except.toBool])]
          exact ⟨t'.reset, rfl, .blank t'.blank_reset⟩
  | false =>
      rw [find_direct (g := { g with tables := t }) hopen htabled] at hreads
      obtain ⟨rfl, found, rest, n, -, -, rfl, -⟩ := hreads.direct
      rw [if_pos (hanswers found n)]
      exact ⟨t, rfl, h.append pattern⟩

/-- A fault comes from one of the patterns that have been asked for since the last one. -/
theorem Abandoned.traced (hblank : g.tables.Blank) (h : Abandoned g asked g') :
    ∃ t, g' = { g with tables := t } ∧ Traced hctx asked t := by
  induction h with
  | nil => exact ⟨g.tables, rfl, .blank hblank⟩
  | find _ pattern hreads ih =>
      obtain ⟨t, rfl, ht⟩ := ih
      exact Reads.traced hdet hopen ht hreads
  | contains _ hcontains ih =>
      obtain ⟨t, rfl, ht⟩ := ih
      obtain ⟨item, a, hreads, hvalue⟩ := Reads.of_contains hcontains
      have htraced := Reads.traced hdet hopen ht hreads
      rw [List.all_cons, List.all_nil, Bool.and_true, ← hvalue] at htraced
      exact htraced

/-- What a query brings.  Its answers, and whether its pattern leads to a fault, do not depend on
what has been pumped before. -/
theorem query_traced (h : Traced hctx asked t) {fuel fresh : Nat}
    {reply : Reply (Except Fault (List Triple))}
    (hreply : InferenceGraph.query { g with tables := t } fuel pattern fresh = some reply) :
    (∀ xs, reply.value = .ok xs →
      (∀ x, x ∈ xs ↔ Tabling.Answers g.context pattern.normalize x) ∧
        ¬ Faulty g.context pattern.normalize) ∧
    ∀ f, reply.value = .error f → Suspect g.context (asked ++ [pattern]) := by
  cases htabled : g.rules.isTabled pattern with
  | true =>
      rcases query_tabled (g := { g with tables := t }) (sustained_tracing hctx hdet _)
          (fun _ _ h => h.linked) h.linked hopen (h.ask pattern) htabled hreply with
        ⟨t', found, hall, -, hvalue⟩ | ⟨t', f, hsuspect, -, hvalue⟩
      · rw [hvalue]
        refine ⟨fun xs hok => ?_, fun f herror => nomatch herror⟩
        cases hok
        have hupheld := hall.holds
        have hsound := hupheld.not_faulty hctx hall.size hall.isComplete
        have hanswers := hupheld.mem_results_iff_answers hctx (fun _ _ hx => hx) hall.size
          hall.isComplete
        rw [hall.goal] at hsound hanswers
        refine ⟨fun x => ?_, hsound⟩
        rw [← hanswers, ← Array.mem_toList_iff, hall.all]
      · rw [hvalue]
        exact ⟨fun xs hok => (nomatch hok), fun _ _ => hsuspect⟩
  | false =>
      obtain ⟨hvalue, -⟩ := query_direct (g := { g with tables := t }) hopen htabled hreply
      rw [hvalue]
      refine ⟨fun xs hok => ?_, fun f herror => nomatch herror⟩
      cases hok
      exact ⟨fun x => (answers_iff_of_plain hctx htabled x).symm, not_faulty_of_plain htabled⟩

/-- A pattern that leads to a fault is never answered. -/
theorem query_of_faulty (h : Traced hctx asked t)
    (hfaulty : Faulty g.context pattern.normalize) {fuel fresh : Nat}
    {reply : Reply (Except Fault (List Triple))}
    (hreply : InferenceGraph.query { g with tables := t } fuel pattern fresh = some reply) :
    ∃ f, reply.value = .error f := by
  cases hvalue : reply.value with
  | ok xs => exact absurd hfaulty ((query_traced hdet hopen h hreply).1 xs hvalue).2
  | error f => exact ⟨f, rfl⟩

end Open

/-! ## Closed graphs -/

theorem query_closed (hclosed : g.closed = true) {fuel fresh : Nat} {pattern : Triple}
    {reply : Reply (Except Fault (List Triple))} (h : g.query fuel pattern fresh = some reply) :
    reply.value = .error .graphClosed := by
  rw [InferenceGraph.query, InferenceGraph.find, if_pos hclosed] at h
  cases fuel with
  | zero => cases h
  | succ n =>
      cases h
      rfl

/-! ## Queries after readings that were dropped -/

/-- A query after any readings that were dropped, and the same query when all goals have been
forgotten.  When both bring answers, these are the same.  What comes to a fault when all goals have
been forgotten comes to one before, too.  In turn, if a query comes to a fault, there is a pattern
that does so when all goals have been forgotten: its own, or one that has been asked for since the
last fault.  All this is about queries that end.  Whether they do may depend on what has been pumped
before, as a rule that reads its own answers without end can keep others from their turn. -/
theorem query_after_abandoned (hr : r.Built) (hg : Emptied r g) (hdet : g.context.Deterministic)
    (h : Abandoned g asked g') {pattern : Triple} {fuel fresh : Nat}
    {reply : Reply (Except Fault (List Triple))}
    (hreply : g'.query fuel pattern fresh = some reply) :
    (∀ fuel' fresh' reply', g'.reset.query fuel' pattern fresh' = some reply' →
      (∀ xs ys, reply.value = .ok xs → reply'.value = .ok ys → ∀ x, x ∈ xs ↔ x ∈ ys) ∧
      ∀ f, reply'.value = .error f → ∃ f', reply.value = .error f') ∧
    ∀ f, reply.value = .error f → ∃ q ∈ asked ++ [pattern], ∀ fuel' fresh' reply',
      g'.reset.query fuel' q fresh' = some reply' → ∃ f', reply'.value = .error f' := by
  cases hclosed : g.closed with
  | true =>
      have hsame := h.onlyTables
      have hvalue : reply.value = .error .graphClosed :=
        query_closed (hsame.closed_eq.trans hclosed) hreply
      refine ⟨fun fuel' fresh' reply' _ => ⟨fun xs ys hok => ?_, fun _ _ => ⟨_, hvalue⟩⟩,
        fun _ _ => ⟨pattern, List.mem_append_right _ List.mem_cons_self,
          fun fuel' fresh' reply' hreply' => ⟨_, query_closed ?_ hreply'⟩⟩⟩
      · rw [hvalue] at hok
        cases hok
      · exact (hsame.trans (onlyTables_reset g')).closed_eq.trans hclosed
  | false =>
      have hctx := hg.context_built hr
      obtain ⟨t, rfl, ht⟩ : ∃ t, g' = { g with tables := t } ∧ Traced hctx asked t :=
        h.traced hdet hclosed hg.blank
      have hblank : Traced hctx [] t.reset := .blank t.blank_reset
      have hnow := query_traced hdet hclosed ht hreply
      refine ⟨fun fuel' fresh' reply' hreply' => ?_, fun f hf => ?_⟩
      · have hfirst := query_traced hdet hclosed hblank hreply'
        refine ⟨fun xs ys hxs hys x => ?_, fun f hf => ?_⟩
        · exact ((hnow.1 xs hxs).1 x).trans ((hfirst.1 ys hys).1 x).symm
        · obtain ⟨q, hq, hfaulty⟩ := hfirst.2 f hf
          rw [List.mem_singleton.mp hq] at hfaulty
          exact query_of_faulty hdet hclosed ht hfaulty hreply
      · obtain ⟨q, hq, hfaulty⟩ := hnow.2 f hf
        exact ⟨q, hq, fun _ _ _ hreply' => query_of_faulty hdet hclosed hblank hfaulty hreply'⟩

/-! ## An instance -/

theorem deterministic_backOffice (h : g.Serves backOffice)
    (hinstalled : g.forward.installed.rules = []) : g.context.Deterministic := by
  rintro c (⟨s, hs, hc⟩ | hc) b args hcall
  · have hbase : g.context.rules.base = some backOffice.base.backward := by
      simp only [InferenceGraph.context, InferenceGraph.rules, h.settings, h.base]
      rfl
    rw [hbase, Option.some.injEq] at hs
    subst hs
    have hrules : c ∈ [CheckedRule.get, CheckedRule.mail] := hc
    have hb : b = haltOn := by
      rcases List.mem_cons.mp hrules with rfl | hmail
      · simp_all [CheckedRule.get]
      · rw [List.mem_singleton.mp hmail] at hcall
        simp [CheckedRule.mail] at hcall
    rw [hb]
    exact Builtin.isDeterministic_ofFun _ _ _
  · rw [show g.context.rules.installed.rules = [] from hinstalled] at hc
    exact absurd hc List.not_mem_nil

def allMailed : List Triple := letterMailed ++ [⟨.iri "bob", .iri "mails", .iri "bad"⟩]

theorem exists_dropped : ∃ g n, backOffice.bind 100 mailbag 0 = some (.ok g, n) ∧
    g.context.Deterministic ∧
    (∃ reply, (g.find anyGets).2.query 100 anyMail 0 = some reply ∧ reply.value = .error halted) ∧
    ∃ reply, (g.find anyGets).2.reset.query 100 anyMail 0 = some reply ∧
      reply.value = .ok allMailed := by
  have hruns : (backOffice.bind 100 mailbag 0).any fun x => x.1.toOption.any fun g =>
      g.forward.installed.rules.isEmpty &&
        (((g.find anyGets).2.query 100 anyMail 0).any fun reply => reply.value == .error halted) &&
        ((g.find anyGets).2.reset.query 100 anyMail 0).any fun reply =>
          reply.value == .ok allMailed := by
    decide +kernel
  simp only [Option.any_eq_true, Bool.and_eq_true, beq_iff_eq, List.isEmpty_iff] at hruns
  obtain ⟨⟨bound, n⟩, hbind, g, hg, ⟨hinstalled, hbroken⟩, hmailed⟩ := hruns
  cases bound with
  | error f => cases hg
  | ok _ =>
      cases hg
      have hserves : g.Serves backOffice :=
        (History.bind (Store.built_ofList (by decide)) hbind).serves
      exact ⟨g, n, hbind, deterministic_backOffice hserves hinstalled, hbroken, hmailed⟩

/-- After a reading that was dropped, the query for all mail comes to a fault, and when all goals
have been forgotten it does not.  So it is the dropped reading that leads to a fault. -/
theorem mailbag_traced : ∃ g reply, Emptied backOffice g ∧ g.context.Deterministic ∧
    Abandoned g [anyGets] (g.find anyGets).2 ∧
    (g.find anyGets).2.query 100 anyMail 0 = some reply ∧ reply.value = .error halted ∧
    ∀ fuel fresh reply', (g.find anyGets).2.reset.query fuel anyGets fresh = some reply' →
      ∃ f, reply'.value = .error f := by
  obtain ⟨g, n, hbind, hdet, ⟨reply, hreply, hbroken⟩, reply', hreply', hmailed⟩ := exists_dropped
  have hg : Emptied backOffice g := .bind (Store.built_ofList (by decide)) hbind
  have hdropped : Abandoned g [anyGets] (g.find anyGets).2 := .find .nil anyGets .nil
  obtain ⟨q, hq, hfails⟩ :=
    (query_after_abandoned built_backOffice hg hdet hdropped hreply).2 halted hbroken
  refine ⟨g, reply, hg, hdet, hdropped, hreply, hbroken, ?_⟩
  rcases List.mem_cons.mp hq with rfl | hq
  · exact hfails
  · rw [List.mem_singleton.mp hq] at hfails
    obtain ⟨f, hf⟩ := hfails 100 0 reply' hreply'
    rw [hmailed] at hf
    cases hf

/-- A reading that was dropped lets another query come to a fault. -/
theorem query_broken_by_dropped :
    Reasoner.build .halting [getRule, mailRule] { mode := .backward, pumpBatch := 1 } =
      .ok backOffice ∧
    ∃ g n, backOffice.bind 100 mailbag 0 = some (.ok g, n) ∧ g.context.Deterministic ∧
      Abandoned g [anyGets] (g.find anyGets).2 ∧
      ((g.find anyGets).2.query 100 anyMail 0).map (·.value) = some (.error halted) ∧
      ((g.find anyGets).2.reset.query 100 anyMail 0).map (·.value) = some (.ok allMailed) := by
  obtain ⟨g, n, hbind, hdet, ⟨reply, hreply, hbroken⟩, reply', hreply', hmailed⟩ := exists_dropped
  refine ⟨rfl, g, n, hbind, hdet, .find .nil anyGets .nil, ?_, ?_⟩
  · rw [hreply, Option.map_some, hbroken]
  · rw [hreply', Option.map_some, hmailed]

end InferenceGraph

end TripleRules
