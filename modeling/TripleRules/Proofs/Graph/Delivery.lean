import TripleRules.Proofs.Graph.Forgetting
import TripleRules.Proofs.Tabling.Sessions

/-!
# Delivery

The answers to a pattern come one by one and each comes once.  Those that are in the stores come
first, in the order of the stores, and those that rules prove come after them.  The end is reached
only when all have come, and a fault is the end too: nothing comes after it, and all goals have been
forgotten.  This holds for any rules, in every graph that no update has been broken off on.
-/

namespace TripleRules

open Tabling

/-! ## Tables between two calls -/

namespace Tabling

/-- Between two calls the tables are in order, after faults too, and triples at hand come first. -/
structure InOrder {ctx : Context} (hctx : ctx.Built) (t : Tables) : Prop where
  kept : Kept hctx t
  factsFirst : FactsFirst ctx t

namespace InOrder

variable {ctx : Context} {hctx : ctx.Built} {t t' : Tables}

theorem blank (h : t.Blank) : InOrder hctx t := ⟨.blank h, .blank h⟩

theorem ask (h : InOrder hctx t) (goal : Triple) : InOrder hctx (t.generatorFor ctx goal).2 :=
  ⟨h.kept.ask goal, h.factsFirst.generatorFor goal⟩

theorem enqueue (h : InOrder hctx t) (id : GeneratorId) : InOrder hctx (t.enqueue id) :=
  ⟨h.kept.enqueue id, h.factsFirst.settles (closed_nil t) (t.settles_enqueue id)⟩

theorem move (h : InOrder hctx t) {turn turn' : Option Turn} (hm : Move ctx t turn t' turn') :
    InOrder hctx t' :=
  ⟨h.kept.move hm, h.factsFirst.move h.kept.linked h.kept.recorded hctx.sources.nodup_find hm⟩

theorem persistent : Persistent ctx (fun t _ => InOrder hctx t) fun _ => True where
  ask _ goal h := h.ask goal
  enqueue _ id h _ := h.enqueue id
  move _ _ _ _ h hm := h.move hm
  fault _ _ _ _ _ _ _ _ _ _ _ _ := trivial

end InOrder

end Tabling

namespace InferenceGraph

variable {g g' : InferenceGraph} {r : Reasoner}

/-! ## Graphs on which no update has been broken off -/

/-- The graphs that a reasoner has bound and that have been worked with since, as long as no builtin
has given up in an update.  Readings may have been dropped at any place or have ended in a fault. -/
inductive Unbroken (r : Reasoner) : InferenceGraph → Prop where
  | bind {fuel fresh fresh' : Nat} {data : Store} {g : InferenceGraph} (hdata : data.Built)
      (h : r.bind fuel data fresh = some (.ok g, fresh')) : Unbroken r g
  | add {g : InferenceGraph} (h : Unbroken r g) {fuel fresh : Nat} {t : Triple}
      {reply : Reply (Except Fault Bool)} (hadd : g.add fuel t fresh = some reply)
      (hvalue : ∀ f, reply.value = .error f → ¬ f.IsFatal) : Unbroken r reply.graph
  | delete {g : InferenceGraph} (h : Unbroken r g) {fuel fresh : Nat} {t : Triple}
      {reply : Reply (Except Fault Bool)} (hdelete : g.delete fuel t fresh = some reply)
      (hvalue : ∀ f, reply.value = .error f → ¬ f.IsFatal) : Unbroken r reply.graph
  | find {g : InferenceGraph} (h : Unbroken r g) (pattern : Triple) : Unbroken r (g.find pattern).2
  | next {g : InferenceGraph} (h : Unbroken r g) {fuel fresh : Nat} {answers : Answers}
      {reply : Reply (Item × Answers)} (hnext : g.next fuel answers fresh = some reply) :
      Unbroken r reply.graph
  | reset {g : InferenceGraph} (h : Unbroken r g) : Unbroken r g.reset

theorem Unbroken.query (h : Unbroken r g) {fuel fresh : Nat} {pattern : Triple}
    {reply : Reply (Except Fault (List Triple))}
    (hquery : g.query fuel pattern fresh = some reply) : Unbroken r reply.graph :=
  query_keeps (h.find pattern) (fun _ _ _ _ _ h hnext => h.next hnext) hquery

theorem Unbroken.history (h : Unbroken r g) : History r g := by
  induction h with
  | bind hdata hbind => exact .bind hdata hbind
  | add _ hadd _ ih => exact ih.act (.add hadd)
  | delete _ hdelete _ ih => exact ih.act (.delete hdelete)
  | find _ pattern ih => exact ih.act (.find pattern)
  | next _ hnext ih => exact ih.act (.next hnext)
  | reset _ ih => exact ih.act .reset

def Poised (g : InferenceGraph) : Prop := ∃ hctx : g.context.Built, InOrder hctx g.tables

namespace Poised

theorem of_blank (hctx : g.context.Built) (h : g.tables.Blank) : g.Poised := ⟨hctx, .blank h⟩

theorem reset (h : g.Poised) : g.reset.Poised :=
  have ⟨hctx, _⟩ := h
  ⟨hctx, .blank g.tables.blank_reset⟩

theorem find (h : g.Poised) (pattern : Triple) : (g.find pattern).2.Poised := by
  obtain ⟨hctx, horder⟩ := h
  rcases graph_find g pattern with heq | heq
  · rw [heq]
    exact ⟨hctx, horder⟩
  · rw [heq]
    exact ⟨hctx, horder.ask pattern⟩

theorem next (h : g.Poised) {fuel fresh : Nat} {answers : Answers}
    {reply : Reply (Item × Answers)} (hreply : g.next fuel answers fresh = some reply) :
    reply.graph.Poised := by
  obtain ⟨hctx, horder⟩ := h
  have hnexts := nexts hreply
  generalize reply.graph = g' at hnexts ⊢
  cases hnexts with
  | off => exact ⟨hctx, horder⟩
  | pumped hpump hdone =>
      rcases InOrder.persistent.pump horder hpump with ⟨-, horder', -⟩ | ⟨hfault, -⟩
      · exact ⟨hctx, horder'⟩
      · rw [hdone] at hfault
        cases hfault
  | @broken _ o => exact ⟨hctx, .blank o.tables.blank_reset⟩

end Poised

theorem Poised.update (h : g.Poised) {reply : Reply (Except Fault Bool)}
    (hctx : reply.graph.context.Built)
    (htables : reply.graph = g ∨ (reply.value = .ok true ∧ reply.graph.reset = reply.graph) ∨
      ((∃ f, reply.value = .error f) ∧ reply.graph.tables = g.tables))
    (hrefused : ∀ f, reply.value = .error f → reply.graph = g) : reply.graph.Poised := by
  rcases htables with hsame | ⟨-, hreset⟩ | ⟨⟨f, hf⟩, -⟩
  · rw [hsame]
    exact h
  · rw [← hreset]
    exact .of_blank hctx reply.graph.tables.blank_reset
  · rw [hrefused f hf]
    exact h

theorem Unbroken.poised (h : Unbroken r g) (hr : r.Built) : g.Poised := by
  induction h with
  | bind hdata hbind =>
      exact .of_blank ((History.bind hdata hbind).stocked hr |>.context_built hr) (blank_bind hbind)
  | @add g h fuel fresh t reply hadd hvalue ih =>
      have horderly := h.history.orderly
      have hctx := ((h.history.act (.add hadd)).stocked hr).context_built hr
      refine ih.update hctx (tables_add hadd) fun f hf => ?_
      rcases horderly.add_error hadd hf with ⟨-, hsame, -⟩ | ⟨hfatal, -⟩
      · exact hsame
      · exact absurd hfatal (hvalue f hf)
  | @delete g h fuel fresh t reply hdelete hvalue ih =>
      have horderly := h.history.orderly
      have hctx := ((h.history.act (.delete hdelete)).stocked hr).context_built hr
      refine ih.update hctx (tables_delete hdelete) fun f hf => ?_
      exact absurd (horderly.delete_error hdelete hf).1 (hvalue f hf)
  | find _ pattern ih => exact ih.find pattern
  | next _ hnext ih => exact ih.next hnext
  | reset _ ih => exact ih.reset

/-! ## Triples in the stores -/

/-- The instances of a pattern in the stores: asserted ones in the order in which they came, then
those of the schema that are not asserted, then those that have been deduced and are in neither. -/
def facts (g : InferenceGraph) (pattern : Triple) : List Triple :=
  g.raw.triples.filter pattern.matches? ++
    (g.schema.graph.triples.filter pattern.matches?).filter (fun t => !g.raw.contains t) ++
    (g.forward.deductions.triples.filter pattern.matches?).filter
      (fun t => !(g.raw.contains t || g.schema.graph.contains t))

theorem find_sources (h : g.context.Built) (pattern : Triple) :
    g.sources.find pattern = g.facts pattern := by
  have hraw : g.raw.find pattern = g.raw.triples.filter pattern.matches? :=
    h.sources.raw.consistent.find_eq pattern
  have hschema : g.schema.graph.find pattern = g.schema.graph.triples.filter pattern.matches? :=
    h.sources.schema.consistent.find_eq pattern
  have hdeductions : g.forward.deductions.find pattern =
      g.forward.deductions.triples.filter pattern.matches? :=
    h.sources.deductions.consistent.find_eq pattern
  rw [InferenceGraph.facts, ← hraw, ← hschema, ← hdeductions]
  rfl

theorem facts_normalize (g : InferenceGraph) (pattern : Triple) :
    g.facts pattern.normalize = g.facts pattern := by
  have hmatches : pattern.normalize.matches? = pattern.matches? := by
    ext t
    rw [Bool.eq_iff_iff]
    exact Triple.normalize_matches? pattern t
  unfold InferenceGraph.facts
  rw [hmatches]

/-- Answers that have been read: each is a ground instance of the pattern and has come once; those
in the stores have come first, in their order, and the others are in none of the stores. -/
structure Delivered (g : InferenceGraph) (pattern : Triple) (found : List Triple) : Prop where
  nodup : found.Nodup
  ground : ∀ t ∈ found, t.isGround
  matching : ∀ t ∈ found, pattern.matches? t
  order : found <+: g.facts pattern ∨ g.facts pattern <+: found
  beyond : ∀ t ∈ found.drop (g.facts pattern).length,
    t ∉ g.raw.triples ∧ t ∉ g.schema.graph.triples ∧ t ∉ g.forward.deductions.triples

theorem mem_facts (hctx : g.context.Built) (pattern t : Triple) :
    t ∈ g.facts pattern ↔ g.sources.contains t ∧ pattern.matches? t := by
  rw [← find_sources hctx]
  exact hctx.sources.mem_find pattern t

theorem Delivered.of_order (hctx : g.context.Built) {pattern : Triple} {found : List Triple}
    (hnodup : found.Nodup) (hground : ∀ t ∈ found, t.isGround)
    (hmatching : ∀ t ∈ found, pattern.matches? t)
    (horder : found <+: g.facts pattern ∨ g.facts pattern <+: found) :
    g.Delivered pattern found := by
  refine ⟨hnodup, hground, hmatching, horder, fun t ht => ?_⟩
  have hmatch := hmatching t (List.mem_of_mem_drop ht)
  have hout : ¬ g.sources.contains t := by
    intro hin
    have hfact : t ∈ g.facts pattern := (mem_facts hctx pattern t).mpr ⟨hin, hmatch⟩
    rcases horder with hle | ⟨rest, rfl⟩
    · rw [List.drop_of_length_le hle.length_le] at ht
      exact List.not_mem_nil ht
    · rw [List.drop_left] at ht
      exact (List.nodup_append.mp hnodup).2.2 t hfact t ht rfl
  rw [Sources.contains_iff, not_or, not_or] at hout
  exact hout

/-- Answers of a goal. -/
theorem HasRead.delivered {hctx : g.context.Built} {pattern : Triple} {id : GeneratorId}
    {t : Tables} {found : List Triple}
    (h : HasRead (fun t _ => InOrder hctx t) id pattern.normalize t found) :
    g.Delivered pattern found := by
  have hkept := h.holds.kept
  have hanswer : ∀ x ∈ found, x.isGround ∧ pattern.matches? x := by
    intro x hx
    have hin : x ∈ (t.generator id).results :=
      Array.mem_toList_iff.mp (h.inPlace.subset hx)
    have hobeyed : x.isGround ∧ (t.generator id).goal.matches? x := hkept.obeyed.answer id x hin
    rw [h.goal, Triple.normalize_matches?] at hobeyed
    exact hobeyed
  refine .of_order hctx ?_ (fun x hx => (hanswer x hx).1) (fun x hx => (hanswer x hx).2) ?_
  · exact h.inPlace.sublist.nodup (hkept.recorded.nodup id)
  · have hfirst := (h.holds.factsFirst id h.size).prefix_or
    have hfind : g.context.sources.find (t.generator id).goal = g.facts pattern := by
      rw [h.goal, ← facts_normalize]
      exact find_sources hctx pattern.normalize
    rw [hfind] at hfirst
    rcases hfirst with hle | hge
    · exact .inl (h.inPlace.trans hle)
    · exact List.prefix_or_prefix_of_prefix h.inPlace hge

/-- All answers of a goal have been read: the triples in the stores are among them. -/
theorem HasReadAll.facts_first {hctx : g.context.Built} {pattern : Triple} {id : GeneratorId}
    {t : Tables} {found : List Triple}
    (h : HasReadAll (fun t _ => InOrder hctx t) id pattern.normalize t found) :
    g.facts pattern <+: found := by
  have hfirst := (h.holds.factsFirst id h.size).prefix_of_isComplete h.isComplete
  rw [h.all, h.goal] at hfirst
  rw [← facts_normalize, ← find_sources hctx]
  exact hfirst

/-- How the reading of the answers to a pattern goes, however far it is taken, in every graph on
which no update has been broken off.  Only the tables change.  Answers come first: each is a ground
instance of the pattern and comes once, and those in the stores come before all others, in the order
of the stores.  After the answers there is nothing, but only when those in the stores have all come
and, if rules can prove the pattern, when its goal is complete and all its answers have come; or
there is one fault and then nothing, and no goal is known any more. -/
theorem find_delivers (hr : r.Built) (hg : Unbroken r g) (pattern : Triple) {items : List Item}
    {a : Answers} (h : Reads (g.find pattern).2 (g.find pattern).1 items g' a) :
    OnlyTables g g' ∧ ∃ found rest, items = found.map .answer ++ rest ∧ g.Delivered pattern found ∧
      (rest = [] ∨
        (∃ n, rest = List.replicate (n + 1) .finished ∧ g.facts pattern <+: found ∧
          (g.rules.isTabled pattern → ∃ id, g'.tables.cache.lookup pattern.normalize = some id ∧
            (g'.tables.generator id).isComplete ∧
            (g'.tables.generator id).results.toList = found)) ∨
        ∃ f n, rest = .fault f :: List.replicate n .finished ∧ g'.tables.Blank) := by
  obtain ⟨hctx, horder⟩ := hg.poised hr
  have hopen := hg.history.orderly.opened
  have hsame : OnlyTables g g' := h.keeps
    (fun _ _ _ _ _ hread hnext => hread.trans (onlyTables_next hnext)) (onlyTables_find g pattern)
  refine ⟨hsame, ?_⟩
  cases htabled : g.rules.isTabled pattern with
  | true =>
      obtain ⟨hid, hgoal⟩ := horder.kept.linked.generatorFor_fst g.context pattern
      rw [find_tabled hopen htabled] at h
      have hcourse := h.course InOrder.persistent.toSustained (fun _ _ h => h.kept.linked)
        (horder.ask pattern) hid
      rw [hgoal] at hcourse
      cases hcourse with
      | @reading t found hread =>
          exact ⟨found, [], (List.append_nil _).symm, hread.delivered, .inl rfl⟩
      | @ended t found hall n =>
          refine ⟨found, _, rfl, hall.toHasRead.delivered, .inr (.inl ⟨n, rfl, hall.facts_first,
            fun _ => ⟨_, ?_, hall.isComplete, hall.all⟩⟩)⟩
          exact (hall.holds.kept.linked.cache _ _).mpr ⟨hall.size, hall.goal⟩
      | @broken t t' found hread _ f n =>
          exact ⟨found, _, rfl, hread.delivered, .inr (.inr ⟨f, n, rfl, t'.blank_reset⟩)⟩
  | false =>
      rw [find_direct hopen htabled] at h
      obtain ⟨rfl, found, left, n, hfind, hleft, rfl, -⟩ := h.direct
      rw [find_sources hctx] at hfind
      have hdelivered : Delivered g' pattern found := by
        have hnodup := hctx.sources.nodup_find pattern
        have hmem : ∀ t ∈ found, g'.sources.contains t ∧ pattern.matches? t := fun t ht =>
          (mem_facts hctx pattern t).mp (by rw [hfind]; exact List.mem_append_left _ ht)
        have hle : found <+: g'.facts pattern := ⟨left, hfind.symm⟩
        refine .of_order hctx ?_ (fun t ht => hctx.sources.isGround (hmem t ht).1)
          (fun t ht => (hmem t ht).2) (.inl hle)
        rw [show g'.context.sources.find pattern = g'.facts pattern from find_sources hctx pattern]
          at hnodup
        exact hle.sublist.nodup hnodup
      refine ⟨found, _, rfl, hdelivered, ?_⟩
      cases n with
      | zero => exact .inl rfl
      | succ n =>
          obtain rfl : left = [] := hleft.resolve_left (Nat.succ_ne_zero n)
          rw [List.append_nil] at hfind
          exact .inr (.inl ⟨n, rfl, ⟨[], by rw [List.append_nil, hfind]⟩,
            fun htrue => absurd htrue Bool.false_ne_true⟩)

/-! ## An instance -/

def backOffice : Reasoner :=
  ⟨((RuleBase.empty .halting).add .get).add .mail, { mode := .backward, pumpBatch := 1 }, .empty⟩

theorem built_backOffice : backOffice.Built := by
  have hmade : ∀ q ∈ [getRule, mailRule], q.IsMade := by
    intro q hq
    rcases List.mem_cons.mp hq with rfl | hq
    · exact ⟨_, _, _, none, rfl⟩
    · rw [List.mem_singleton.mp hq]
      exact ⟨_, _, _, none, rfl⟩
  have hbuild : Reasoner.build .halting [getRule, mailRule] { mode := .backward, pumpBatch := 1 } =
      .ok backOffice := rfl
  exact .build hmade hbuild

def mailbag : Store := .ofList [⟨.iri "cid", .iri "gets", .iri "card"⟩, letter, badLetter]

def mailbagRead : Option (InferenceGraph × Reply (List Item × Answers)) :=
  match backOffice.bind 100 mailbag 0 with
  | some (.ok g, fresh) =>
    ((g.find anyGets).2.readItems 100 (g.find anyGets).1 fresh 4).map fun r => (g, r)
  | _ => none

def mailbagGot : List Triple :=
  [⟨.iri "cid", .iri "gets", .iri "card"⟩, ⟨.iri "ann", .iri "gets", .iri "letter"⟩]

/-- The card comes first, then the letter, then the fault at the bad letter, and then nothing. -/
theorem mailbag_delivers : ∃ g g' a, Unbroken backOffice g ∧
    Reads (g.find anyGets).2 (g.find anyGets).1
      (mailbagGot.map .answer ++ [.fault halted, .finished]) g' a ∧
    OnlyTables g g' ∧ g.Delivered anyGets mailbagGot ∧ g'.tables.Blank := by
  have hitems : mailbagRead.any fun x =>
      x.2.value.1 == mailbagGot.map .answer ++ [.fault halted, .finished] := by
    decide +kernel
  rw [Option.any_eq_true] at hitems
  obtain ⟨⟨g, r⟩, hread, hitems⟩ := hitems
  rw [beq_iff_eq] at hitems
  unfold mailbagRead at hread
  split at hread
  · rename_i hbind
    obtain ⟨r', hread', heq⟩ := Option.map_eq_some_iff.mp hread
    cases heq
    have hg : Unbroken backOffice g := .bind (Store.built_ofList (by decide)) hbind
    have hreads := reads_readItems hread'
    rw [hitems] at hreads
    obtain ⟨hsame, found, rest, hsplit, hdelivered, hrest⟩ :=
      find_delivers built_backOffice hg anyGets hreads
    rcases hrest with rfl | ⟨n, rfl, -⟩ | ⟨f, n, rfl, hblank⟩
    · rw [List.append_nil] at hsplit
      exact absurd hsplit (map_answer_ne (fun _ => Item.noConfusion) mailbagGot found [.finished])
    · cases (map_answer_inj (fun _ => Item.noConfusion) (fun _ => Item.noConfusion) hsplit).2
    · obtain ⟨rfl, -⟩ :=
        map_answer_inj (fun _ => Item.noConfusion) (fun _ => Item.noConfusion) hsplit
      exact ⟨g, r.graph, r.value.2, hg, hreads, hsame, hdelivered, hblank⟩
  · cases hread

end InferenceGraph

end TripleRules
