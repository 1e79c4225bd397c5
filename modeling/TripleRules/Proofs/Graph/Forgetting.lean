import TripleRules.Proofs.Graph.Failure

/-!
# Forgotten goals

The answers of a goal are kept in the tables for as long as the goal is not forgotten.  An update
that is carried out forgets all goals, so a query after it is answered from what the graph holds
now.  An update that fails forgets none, although the asserted triples have changed: a goal that had
all its answers before has the same ones after it.
-/

namespace TripleRules

open Tabling

namespace InferenceGraph

variable {g : InferenceGraph} {r : Reasoner}

/-! ## Updates and tables -/

theorem reset_reset (g : InferenceGraph) : g.reset.reset = g.reset := rfl

theorem tables_deduce {fuel fresh : Nat} {reply : Reply (Option Fault)}
    (hreply : g.deduce fuel fresh = some reply) : reply.graph.tables = g.tables := by
  cases deduces hreply with
  | idle | pass => rfl

theorem tables_bind {fuel fresh fresh' : Nat} {data : Store}
    (h : r.bind fuel data fresh = some (.ok g, fresh')) : g.tables = .new r.settings := by
  obtain ⟨reply, hdeduce, rfl⟩ := deduce_of_bind_ok h
  exact tables_deduce hdeduce

theorem blank_bind {fuel fresh fresh' : Nat} {data : Store}
    (h : r.bind fuel data fresh = some (.ok g, fresh')) : g.tables.Blank := by
  rw [tables_bind h]
  exact Tables.blank_new r.settings

theorem tables_add {fuel fresh : Nat} {t : Triple} {reply : Reply (Except Fault Bool)}
    (hreply : g.add fuel t fresh = some reply) :
    reply.graph = g ∨ (reply.value = .ok true ∧ reply.graph.reset = reply.graph) ∨
      ((∃ f, reply.value = .error f) ∧ reply.graph.tables = g.tables) := by
  cases adds hreply with
  | closed | refused | known => exact .inl rfl
  | idle | pass => exact .inr (.inl ⟨rfl, reset_reset _⟩)
  | broken => exact .inr (.inr ⟨⟨_, rfl⟩, rfl⟩)

theorem tables_delete {fuel fresh : Nat} {t : Triple} {reply : Reply (Except Fault Bool)}
    (hreply : g.delete fuel t fresh = some reply) :
    reply.graph = g ∨ (reply.value = .ok true ∧ reply.graph.reset = reply.graph) ∨
      ((∃ f, reply.value = .error f) ∧ reply.graph.tables = g.tables) := by
  cases deletes hreply with
  | closed | unknown => exact .inl rfl
  | anew => exact .inr (.inl ⟨rfl, reset_reset _⟩)
  | broken _ hdeduce =>
      have hkept := tables_deduce hdeduce
      exact .inr (.inr ⟨⟨_, rfl⟩, hkept⟩)

/-- An update leaves the tables as they are, or forgets all goals. -/
theorem tables_update {fuel fresh : Nat} {t : Triple} {reply : Reply (Except Fault Bool)}
    (h : g.add fuel t fresh = some reply ∨ g.delete fuel t fresh = some reply) :
    reply.graph.tables = g.tables ∨ reply.graph.tables = g.tables.reset := by
  rcases h with h | h
  · cases adds h with
    | closed | refused | known | broken => exact .inl rfl
    | idle | pass => exact .inr rfl
  · cases deletes h with
    | closed | unknown => exact .inl rfl
    | broken _ hdeduce =>
        have hkept := tables_deduce hdeduce
        exact .inl hkept
    | anew _ hdeduce =>
        have hkept := tables_deduce hdeduce
        exact .inr (congrArg Tables.reset hkept)

/-! ## Goals that have all their answers -/

theorem iterate_readStep_complete {id : GeneratorId} (hc : (g.tables.generator id).isComplete)
    (fuel fresh : Nat) {left next steps : Nat}
    (hnext : next + left = (g.tables.generator id).results.size) (hsteps : left < steps) :
    iterate (readStep fuel) steps
        ⟨(g.tables.generator id).results.toList.take next, .tabled id next, g, fresh⟩ =
      some (some ⟨.ok (g.tables.generator id).results.toList, g, fresh⟩) := by
  have hready : (decide (next < (g.tables.generator id).results.size) ||
      (g.tables.generator id).isComplete) = true := by rw [hc, Bool.or_true]
  obtain ⟨n, rfl⟩ := Nat.exists_eq_succ_of_ne_zero (Nat.ne_of_gt (Nat.zero_lt_of_lt hsteps))
  induction left generalizing next n with
  | zero =>
      have hend : (g.tables.generator id).results[next]? = none :=
        Array.getElem?_eq_none (by omega)
      have hall : (g.tables.generator id).results.toList.take next =
          (g.tables.generator id).results.toList :=
        List.take_of_length_le (by rw [Array.length_toList]; omega)
      rw [iterate, readStep]
      simp only [InferenceGraph.next, readTabled, hready, if_true, hend, hall]
  | succ left ih =>
      have hlt : next < (g.tables.generator id).results.size := by omega
      have hget : (g.tables.generator id).results[next]? =
          some (g.tables.generator id).results[next] := Array.getElem?_eq_getElem hlt
      have htake : (g.tables.generator id).results.toList.take next ++
          [(g.tables.generator id).results[next]] =
          (g.tables.generator id).results.toList.take (next + 1) := by
        rw [← Array.getElem_toList hlt, List.take_append_getElem]
      obtain ⟨n, rfl⟩ := Nat.exists_eq_succ_of_ne_zero (show n ≠ 0 by omega)
      rw [iterate, readStep]
      simp only [InferenceGraph.next, readTabled, hready, if_true, hget, htake]
      exact ih (by omega) (by rw [hc, Bool.or_true]) _ (by omega)

/-- A goal that has all its answers is answered with them, in order. -/
theorem query_of_complete (hopen : ¬ g.closed = true) {pattern : Triple}
    (htabled : g.rules.isTabled pattern) {id : GeneratorId}
    (hid : g.tables.cache.lookup pattern.normalize = some id)
    (hc : (g.tables.generator id).isComplete) {fuel : Nat}
    (hfuel : (g.tables.generator id).results.size < fuel) (fresh : Nat) :
    ∃ reply, g.query fuel pattern fresh = some reply ∧
      reply.value = .ok (g.tables.generator id).results.toList := by
  let g' : InferenceGraph :=
    { g with tables := g.tables.count fun s => { s with cacheHits := s.cacheHits + 1 } }
  have hfind : g.find pattern = (.tabled id 0, g') := by
    rw [InferenceGraph.find, if_neg hopen, if_pos htabled, Tables.generatorFor, hid]
  have hread : iterate (readStep fuel) fuel ⟨[], .tabled id 0, g', fresh⟩ =
      some (some ⟨.ok (g'.tables.generator id).results.toList, g', fresh⟩) :=
    iterate_readStep_complete (g := g') hc fuel fresh (Nat.zero_add _) hfuel
  refine ⟨⟨.ok (g'.tables.generator id).results.toList, g', fresh⟩, ?_, rfl⟩
  rw [InferenceGraph.query, hfind, Option.join_eq_some_iff]
  exact hread

/-! ## Queries after updates -/

/-- A query right after an update that changed the asserted triples.  If the update was carried out,
or if no goal was known before, the query is answered as if all goals had been forgotten.  If the
update failed, because a builtin gave up, a goal that had all its answers before is answered with
these, whatever has been changed. -/
theorem query_after_update (hg : History r g) {fuel fresh : Nat} {t : Triple}
    {reply : Reply (Except Fault Bool)}
    (hupdate : g.add fuel t fresh = some reply ∨ g.delete fuel t fresh = some reply)
    (hchanged : reply.graph.raw.triples ≠ g.raw.triples) :
    (reply.value = .ok true ∨ ∃ f, f.IsFatal ∧ reply.value = .error f) ∧
    (reply.value = .ok true ∨ g.reset = g → ∀ fuel' pattern fresh',
      reply.graph.query fuel' pattern fresh' = reply.graph.reset.query fuel' pattern fresh') ∧
    ∀ f, reply.value = .error f → ∀ pattern id, reply.graph.rules.isTabled pattern →
      g.tables.cache.lookup pattern.normalize = some id → (g.tables.generator id).isComplete →
        ∀ fuel' fresh', (g.tables.generator id).results.size < fuel' →
          ∃ reply', reply.graph.query fuel' pattern fresh' = some reply' ∧
            reply'.value = .ok (g.tables.generator id).results.toList := by
  have hopen := hg.orderly.not_closed
  have hopen' : ¬ reply.graph.closed = true :=
    hupdate.elim (fun h => (hg.act (.add h)).orderly.not_closed)
      fun h => (hg.act (.delete h)).orderly.not_closed
  have htables : (reply.value = .ok true ∧ reply.graph.reset = reply.graph) ∨
      ((∃ f, reply.value = .error f) ∧ reply.graph.tables = g.tables) :=
    (hupdate.elim tables_add tables_delete).resolve_left
      fun hsame => hchanged (by rw [hsame])
  have hfatal : ∀ f, reply.value = .error f → f.IsFatal := by
    intro f hf
    rcases hupdate with h | h
    · rcases hg.orderly.add_error h hf with ⟨-, hsame, -⟩ | ⟨hfatal, -⟩
      · exact absurd (by rw [hsame]) hchanged
      · exact hfatal
    · exact (hg.orderly.delete_error h hf).1
  rcases htables with ⟨hok, hreset⟩ | ⟨⟨f, hf⟩, hkept⟩
  · refine ⟨.inl hok, fun _ fuel' pattern fresh' => by rw [hreset], fun f hf => ?_⟩
    rw [hok] at hf
    cases hf
  · refine ⟨.inr ⟨f, hfatal f hf, hf⟩, fun h fuel' pattern fresh' => ?_, ?_⟩
    · have hblank : g.reset = g := by
        refine h.resolve_left fun hok => ?_
        rw [hf] at hok
        cases hok
      have htables : g.tables.reset = g.tables := congrArg InferenceGraph.tables hblank
      have hreset : reply.graph.reset = reply.graph := by
        rw [InferenceGraph.reset, hkept, htables, ← hkept]
      rw [hreset]
    · intro f' _ pattern id htabled hid hc fuel' fresh' hfuel
      rw [← hkept] at hid hc hfuel ⊢
      exact query_of_complete hopen' htabled hid hc hfuel fresh'

/-! ## An instance -/

def anyMail : Triple := ⟨.named "x", .iri "mails", .named "y"⟩

def card : Triple := ⟨.iri "cid", .iri "sends", .iri "card"⟩

def mailRead : Option InferenceGraph :=
  letterSent.bind fun g => (g.query 100 anyMail 0).map (·.graph)

theorem history_mailRead (h : mailRead = some g) : History postOffice g := by
  obtain ⟨g₀, hsent, h⟩ := Option.bind_eq_some_iff.mp h
  obtain ⟨reply, hquery, rfl⟩ := Option.map_eq_some_iff.mp h
  exact (history_letterSent hsent).act (.query hquery)

def letterMailed : List Triple := [⟨.iri "ann", .iri "mails", .iri "letter"⟩]

/-- After the bad letter all mail is asked for again.  After a card it is, too. -/
theorem mailRead_queries : ∃ g on on', mailRead = some g ∧
    g.add 100 badLetter 0 = some on ∧ on.value = .error halted ∧
    (∃ reply, on.graph.query 100 anyMail 0 = some reply ∧ reply.value = .ok letterMailed) ∧
    g.add 100 card 0 = some on' ∧ on'.value = .ok true ∧
    on'.graph.query 100 anyMail 0 = on'.graph.reset.query 100 anyMail 0 := by
  have hmail : mailRead.any fun g =>
      g.tables.cache.lookup anyMail.normalize == some 0 &&
        ((g.tables.generator 0).isComplete &&
          (g.tables.generator 0).results.toList == letterMailed) &&
      ((g.add 100 badLetter 0).any fun on => on.value == .error halted &&
        (decide (on.graph.raw.triples ≠ g.raw.triples) && on.graph.rules.isTabled anyMail)) &&
      (g.add 100 card 0).any fun on => on.value == .ok true &&
        decide (on.graph.raw.triples ≠ g.raw.triples) := by
    decide +kernel
  simp only [Option.any_eq_true, Bool.and_eq_true, beq_iff_eq, decide_eq_true_eq] at hmail
  obtain ⟨g, hg, ⟨⟨hid, hc, hresults⟩, on, hon, hfails, hchanged, htabled⟩, on', hon', hok,
    hchanged'⟩ := hmail
  have hhistory := history_mailRead hg
  have hsize : (g.tables.generator 0).results.size < 100 := by
    rw [← Array.length_toList, hresults]
    decide
  have hstale := (query_after_update hhistory (.inl hon) hchanged).2.2 halted hfails anyMail 0
    htabled hid hc 100 0 hsize
  rw [hresults] at hstale
  exact ⟨g, on, on', hg, hon, hfails, hstale, hon', hok,
    (query_after_update hhistory (.inl hon') hchanged').2.1 (.inl hok) 100 anyMail 0⟩

/-- The query after the bad letter misses it, and brings it when all goals have been forgotten. -/
theorem badLetter_missed :
    Reasoner.build .halting [writeRule, getRule, mailRule] {} = .ok postOffice ∧
    ∃ g on, History postOffice g ∧ g.add 100 badLetter 0 = some on ∧
    on.graph.raw.triples ≠ g.raw.triples ∧
    (on.graph.query 100 anyMail 0).map (·.value) = some (.ok letterMailed) ∧
    (on.graph.reset.query 100 anyMail 0).map (·.value) =
      some (.ok (letterMailed ++ [⟨.iri "bob", .iri "mails", .iri "bad"⟩])) := by
  have hmissed : mailRead.any fun g => (g.add 100 badLetter 0).any fun on =>
      decide (on.graph.raw.triples ≠ g.raw.triples) &&
      ((on.graph.query 100 anyMail 0).map (·.value) == some (.ok letterMailed) &&
        (on.graph.reset.query 100 anyMail 0).map (·.value) ==
          some (.ok (letterMailed ++ [⟨.iri "bob", .iri "mails", .iri "bad"⟩]))) := by
    decide +kernel
  simp only [Option.any_eq_true, Bool.and_eq_true, beq_iff_eq, decide_eq_true_eq] at hmissed
  obtain ⟨g, hg, on, hon, hchanged, hstale, hfresh⟩ := hmissed
  exact ⟨build_postOffice, g, on, history_mailRead hg, hon, hchanged, hstale, hfresh⟩

end InferenceGraph

end TripleRules
