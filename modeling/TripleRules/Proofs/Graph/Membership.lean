import TripleRules.Proofs.Graph.Abandoned
import TripleRules.Proofs.Graph.Tests

/-!
# Membership and enumeration

Whether a triple holds is found out on the triple as a goal, so the rules begin with what it has in
the places of the head.  When a pattern is asked for that has the triple among its instances, they
begin with less.
-/

namespace TripleRules

namespace InferenceGraph

variable {g g' : InferenceGraph} {r : Reasoner}

/-! ## What is answered -/

structure Steady (g : InferenceGraph) : Prop where
  opened : g.closed = false
  built : g.context.Built
  isPure : g.context.Pure
  reached : Tabling.Reached g.context g.tables

theorem History.steady (h : History r g) (hr : r.Built) (htests : r.base.OnlyTests) : g.Steady where
  opened := h.orderly.opened
  built := (h.stocked hr).context_built hr
  isPure := (h.onlyTests hr htests).isPure
  reached := (h.unbroken hr htests).reached

namespace Steady

/-- Whatever is asked and pumped, answers are derived and no way to an answer is lost. -/
theorem invariant (h : g.Steady) :
    Tabling.Invariant g.context fun t _ => Tabling.Upheld (Tabling.derivation h.built) t :=
  Tabling.Upheld.invariant (Tabling.steady_derivation h.built h.isPure) fun _ => trivial

theorem upheld (h : g.Steady) : Tabling.Upheld (Tabling.derivation h.built) g.tables :=
  .reached (Tabling.steady_derivation h.built h.isPure) (fun _ => trivial) h.reached

theorem upheld_ask (h : g.Steady) (pattern : Triple) :
    Tabling.Upheld (Tabling.derivation h.built) (g.tables.generatorFor g.context pattern).2 :=
  h.upheld.generatorFor pattern trivial

/-- All answers of a goal have been read: they are those that can be derived. -/
theorem mem_iff_answers (h : g.Steady) {id : Tabling.GeneratorId} {goal : Triple}
    {t : Tabling.Tables} {found : List Triple}
    (hall : HasReadAll (fun t _ => Tabling.Upheld (Tabling.derivation h.built) t) id goal t found)
    (x : Triple) : x ∈ found ↔ Tabling.Answers g.context goal x := by
  rw [← hall.all, Array.mem_toList_iff, hall.holds.mem_results_iff_answers h.built
    (fun _ _ hx => hx) hall.size hall.isComplete, hall.goal]

/-- A query that ends brings what can be derived for its goal. -/
theorem query (h : g.Steady) {fuel fresh : Nat} {pattern : Triple}
    {reply : Reply (Except Fault (List Triple))}
    (hreply : g.query fuel pattern fresh = some reply) :
    ∃ xs, reply.value = .ok xs ∧
      ∀ x, x ∈ xs ↔ Tabling.Answers g.context pattern.normalize x := by
  cases htabled : g.rules.isTabled pattern with
  | false =>
      obtain ⟨hvalue, -⟩ := query_direct h.opened htabled hreply
      exact ⟨_, hvalue, fun x => (Tabling.answers_iff_of_plain h.built htabled x).symm⟩
  | true =>
      rcases query_tabled h.invariant.persistent.toSustained (fun _ _ h => h.linked)
        h.upheld.linked h.opened (h.upheld_ask pattern) htabled hreply with
        ⟨t, found, hall, -, hvalue⟩ | ⟨_, _, hJ, -⟩
      · exact ⟨found, hvalue, h.mem_iff_answers hall⟩
      · exact hJ.elim

/-- When it is found out whether a triple holds, it is looked whether anything can be derived for
the triple as a goal. -/
theorem contains (h : g.Steady) {fuel fresh : Nat} {t : Triple}
    {reply : Reply (Except Fault Bool)} (hreply : g.contains fuel t fresh = some reply) :
    ∃ b, reply.value = .ok b ∧ (b = true ↔ ∃ x, Tabling.Answers g.context t.normalize x) := by
  unfold InferenceGraph.contains at hreply
  rw [Option.map_eq_some_iff] at hreply
  obtain ⟨item, hnext, rfl⟩ := hreply
  cases htabled : g.rules.isTabled t with
  | false =>
      have hanswers : ∀ x, Tabling.Answers g.context t.normalize x ↔ x ∈ g.sources.find t :=
        Tabling.answers_iff_of_plain h.built htabled
      rw [find_direct h.opened htabled, next_direct] at hnext
      cases hnext
      cases hfind : g.sources.find t with
      | nil =>
          rw [hfind] at hanswers
          refine ⟨false, rfl, iff_of_false Bool.false_ne_true ?_⟩
          rintro ⟨x, hx⟩
          exact absurd ((hanswers x).mp hx) List.not_mem_nil
      | cons x xs =>
          rw [hfind] at hanswers
          exact ⟨true, rfl, iff_of_true rfl ⟨x, (hanswers x).mpr List.mem_cons_self⟩⟩
  | true =>
      obtain ⟨hid, hgoal⟩ := h.upheld.linked.generatorFor_fst g.context t
      rw [find_tabled h.opened htabled] at hnext
      have hstart : HasRead (fun t _ => Tabling.Upheld (Tabling.derivation h.built) t)
          (g.tables.generatorFor g.context t).1 t.normalize
          (g.tables.generatorFor g.context t).2 [] :=
        ⟨h.upheld_ask t, hid, hgoal, List.nil_prefix⟩
      obtain ⟨t', ⟨x, hx, -, hvalue⟩ | ⟨hall, -, hvalue⟩ | ⟨_, hJ, -⟩⟩ :=
        hstart.next h.invariant.persistent.toSustained (fun _ _ h => h.linked) hnext
      · refine ⟨true, by rw [hvalue]; rfl, iff_of_true rfl ⟨x, ?_⟩⟩
        have hmem : x ∈ (t'.generator _).results :=
          Array.mem_toList_iff.mp (hx.inPlace.subset List.mem_cons_self)
        exact hx.goal ▸ hx.holds.obeyed.answer _ x hmem
      · refine ⟨false, by rw [hvalue]; rfl, iff_of_false Bool.false_ne_true ?_⟩
        rintro ⟨x, hx⟩
        exact absurd ((h.mem_iff_answers hall x).mpr hx) List.not_mem_nil
      · exact hJ.elim

end Steady

/-! ## Membership -/

/-- The graphs that a reasoner has bound and that have been worked with since.  They may have been
closed on the way. -/
inductive Reachable (r : Reasoner) : InferenceGraph → Prop where
  | bind {fuel fresh fresh' : Nat} {data : Store} {g : InferenceGraph} (hdata : data.Built)
      (h : r.bind fuel data fresh = some (.ok g, fresh')) : Reachable r g
  | act {g g' : InferenceGraph} (h : Reachable r g) (ha : Acts g g') : Reachable r g'
  | close {g : InferenceGraph} (h : Reachable r g) : Reachable r g.close

theorem Reachable.history (h : Reachable r g) (hopen : g.closed = false) : History r g := by
  induction h with
  | bind hdata hbind => exact .bind hdata hbind
  | act _ ha ih => exact (ih (ha.reworked.closed ▸ hopen)).act ha
  | close => cases hopen

theorem contains_closed (hclosed : g.closed = true) {fuel fresh : Nat} {t : Triple}
    {reply : Reply (Except Fault Bool)} (h : g.contains fuel t fresh = some reply) :
    reply.value = .error .graphClosed := by
  rw [InferenceGraph.contains, InferenceGraph.find, if_pos hclosed] at h
  cases h
  rfl

/-- On graphs whose rules call tests only, a triple is found to hold if and only if it is among the
answers to itself.  It is found to hold if and only if it is among the answers to any pattern that
it is an instance of, provided that in the rules in force each variable that a call shares with the
head is in a pattern before the call.  The graphs may be those before and after any readings.  On a
closed graph both fail. -/
theorem contains_iff_mem_query (hr : r.Built) (htests : r.base.OnlyTests) (hg : Reachable r g)
    (hg' : Reachable r g') (hsame : OnlyTables g g') {t p : Triple} (ht : t.isGround)
    (hp : p.matches? t) (hguard : p = t ∨ g.context.HeadGuarded) {fuel fresh fuel' fresh' : Nat}
    {found : Reply (Except Fault Bool)} {reply : Reply (Except Fault (List Triple))}
    (hfound : g.contains fuel t fresh = some found)
    (hreply : g'.query fuel' p fresh' = some reply) :
    (g.closed = false ∧ ∃ b xs, found.value = .ok b ∧ reply.value = .ok xs ∧
      (b = true ↔ t ∈ xs)) ∨
    (g.closed = true ∧ found.value = .error .graphClosed ∧
      reply.value = .error .graphClosed) := by
  cases hclosed : g.closed with
  | true =>
      exact .inr ⟨rfl, contains_closed hclosed hfound,
        query_closed (hsame.closed_eq.trans hclosed) hreply⟩
  | false =>
      have hhistory := hg.history hclosed
      have hsteady := hhistory.steady hr htests
      have hsteady' := (hg'.history (hsame.closed_eq.trans hclosed)).steady hr htests
      obtain ⟨b, hb, hholds⟩ := hsteady.contains hfound
      obtain ⟨xs, hxs, hanswers⟩ := hsteady'.query hreply
      have hcontext : g'.context = g.context := by
        obtain ⟨_, rfl⟩ := hsame
        rfl
      rw [hcontext] at hanswers
      refine .inl ⟨rfl, b, xs, hb, hxs, ?_⟩
      calc b = true
          ↔ ∃ x, Tabling.Answers g.context t.normalize x := hholds
        _ ↔ Tabling.Answers g.context t.normalize t :=
            ⟨fun ⟨x, hx⟩ => hx.eq_of_isGround hsteady.built ht ▸ hx, fun hx => ⟨t, hx⟩⟩
        _ ↔ Tabling.Answers g.context p.normalize t := by
            rcases hguard with rfl | hguard
            · rfl
            · exact Tabling.answers_iff_of_matches hsteady.built (hhistory.onlyTests hr htests)
                hguard ((Triple.matches?_iff_eq_of_isGround ht t).mpr rfl) hp
        _ ↔ t ∈ xs := (hanswers t).symm

/-! ## An instance -/

def nextToRule : Rule :=
  .make
    [.pattern ⟨.named "x", .iri "at", .named "m"⟩,
      .call "sum" [.named "m", .plain "1", .named "n"],
      .pattern ⟨.named "y", .iri "at", .named "n"⟩]
    [.pattern ⟨.named "x", .iri "next to", .named "y"⟩] .backward

def sumTest : Builtin := .ofFun "sum" (.exactly 3) Builtin.sum

def nextTo : CheckedRule :=
  ⟨nextToRule,
    [.pattern ⟨.var ⟨"x", 0⟩, .iri "at", .var ⟨"m", 1⟩⟩,
      .call sumTest [.var ⟨"m", 1⟩, .plain "1", .var ⟨"n", 2⟩],
      .pattern ⟨.var ⟨"y", 3⟩, .iri "at", .var ⟨"n", 2⟩⟩]⟩

def queue : Reasoner := ⟨(RuleBase.empty .standard).add nextTo, {}, .empty⟩

theorem build_queue : Reasoner.build .standard [nextToRule] {} = .ok queue := by rfl

theorem headGuarded_nextTo : nextTo.HeadGuarded := by
  intro before b args after hbody head hhead a ha v hv hmem
  have hargs : args = [.var ⟨"m", 1⟩, .plain "1", .var ⟨"n", 2⟩] := by
    match before, hbody with
    | [_], hbody => simp_all [nextTo]
    | [], hbody | [_, _], hbody | _ :: _ :: _ :: _, hbody => simp [nextTo] at hbody
  have hvars : v = ⟨"m", 1⟩ ∨ v = ⟨"n", 2⟩ := by
    have hmem : v ∈ args.flatMap Term.occurrences := List.mem_flatMap.mpr ⟨a, ha, hv⟩
    rw [hargs] at hmem
    simpa [Term.occurrences, Term.plain] using hmem
  obtain rfl : ⟨.var ⟨"x", 0⟩, .iri "next to", .var ⟨"y", 3⟩⟩ = head := Option.some.inj hhead
  rcases hvars with rfl | rfl <;> simp [Triple.occurrences, Triple.terms, Term.occurrences] at hmem

theorem onlyTests_queue : queue.base.OnlyTests := by
  refine Reasoner.onlyTests_build build_queue fun q hq => ?_
  rw [List.mem_singleton.mp hq]
  exact Rule.onlyTests_make _ (by simp) _ _

theorem built_queue : queue.Built := by
  refine .build (fun q hq => ?_) build_queue
  rw [List.mem_singleton.mp hq]
  exact ⟨_, _, _, none, rfl⟩

theorem Serves.headGuarded_queue (h : g.Serves queue) (hg : g.forward.installed.rules = []) :
    g.context.HeadGuarded := by
  rintro c (⟨s, hs, hc⟩ | hc)
  · simp only [InferenceGraph.context, InferenceGraph.rules, h.base] at hs
    split at hs
    · cases hs
      rw [List.mem_singleton.mp hc]
      exact headGuarded_nextTo
    · cases hs
  · simp only [InferenceGraph.context, InferenceGraph.rules, hg] at hc
    cases hc

def places : Store :=
  .ofList [⟨.iri "ann", .iri "at", .ofInt 1⟩, ⟨.iri "bob", .iri "at", .ofInt 2⟩]

def annNextToBob : Triple := ⟨.iri "ann", .iri "next to", .iri "bob"⟩

def anyNextTo : Triple := ⟨.named "x", .iri "next to", .named "y"⟩

def queueBound : Option InferenceGraph :=
  match queue.bind 100 places 0 with
  | some (.ok g, _) => some g
  | _ => none

/-- Ann is next to Bob, and this is among the answers when all are asked for who are next to each
other. -/
theorem annNextToBob_found : ∃ g found reply xs, queueBound = some g ∧
    g.contains 100 annNextToBob 0 = some found ∧ found.value = .ok true ∧
    g.query 100 anyNextTo 0 = some reply ∧ reply.value = .ok xs ∧ annNextToBob ∈ xs := by
  have hrun : queueBound.any fun g => decide (g.forward.installed.rules = []) &&
      ((g.contains 100 annNextToBob 0).any fun found => found.value == .ok true) &&
      (g.query 100 anyNextTo 0).isSome := by
    decide +kernel
  simp only [Option.any_eq_true, Bool.and_eq_true, decide_eq_true_eq, beq_iff_eq,
    Option.isSome_iff_exists] at hrun
  obtain ⟨g, hbound, ⟨hinstalled, found, hfound, hvalue⟩, reply, hreply⟩ := hrun
  have hdata : places.Built := Store.built_ofList (by decide)
  have hbind : ∃ n, queue.bind 100 places 0 = some (.ok g, n) := by
    unfold queueBound at hbound
    split at hbound
    · rename_i hbind
      cases hbound
      exact ⟨_, hbind⟩
    · cases hbound
  obtain ⟨n, hbind⟩ := hbind
  have hguard := (History.bind hdata hbind).serves.headGuarded_queue hinstalled
  have hg : Reachable queue g := .bind hdata hbind
  rcases contains_iff_mem_query built_queue onlyTests_queue hg hg (.refl g)
    (by decide : annNextToBob.isGround) (by decide : anyNextTo.matches? annNextToBob)
    (.inr hguard) hfound hreply with ⟨-, b, xs, hb, hxs, hiff⟩ | ⟨-, herror, -⟩
  · rw [hvalue] at hb
    cases hb
    exact ⟨g, found, reply, xs, hbound, hfound, hvalue, hreply, hxs, hiff.mp rfl⟩
  · rw [hvalue] at herror
    cases herror

/-! ## Calls on what the goal has bound -/

/-- All readings come to their end, and a triple is found to hold without being among the answers
to a pattern, or the other way round. -/
def Disagrees (g : InferenceGraph) (t p : Triple) : Prop :=
  ∃ fuel fresh found own reply b xs, g.contains fuel t fresh = some found ∧
    g.query fuel t fresh = some own ∧ g.query fuel p fresh = some reply ∧ found.value = .ok b ∧
    reply.value = .ok xs ∧ ¬ (b = true ↔ t ∈ xs)

def disagrees? (g : InferenceGraph) (t p : Triple) : Bool :=
  (g.contains 100 t 0).any fun found => (g.query 100 t 0).isSome &&
    (g.query 100 p 0).any fun reply =>
      match found.value, reply.value with
      | .ok b, .ok xs => b != decide (t ∈ xs)
      | _, _ => false

theorem disagrees_of_disagrees? {t p : Triple} (h : g.disagrees? t p) : g.Disagrees t p := by
  simp only [disagrees?, Option.any_eq_true, Bool.and_eq_true, Option.isSome_iff_exists] at h
  obtain ⟨found, hfound, ⟨own, hown⟩, reply, hreply, h⟩ := h
  split at h
  · rename_i b xs hb hxs
    refine ⟨100, 0, found, own, reply, b, xs, hfound, hown, hreply, hb, hxs, fun hiff => ?_⟩
    rw [bne_iff_ne, ne_eq, Bool.eq_iff_iff, decide_eq_true_eq] at h
    exact h hiff
  · cases h

structure Clash where
  name : String
  args : List Term
  said : Term

def anyCheck : Triple := ⟨.named "y", .iri "checks", .named "x"⟩

namespace Clash

def rule (c : Clash) : Rule :=
  .make [.call c.name c.args, .pattern ⟨.named "y", .iri "says", .named "x"⟩] [.pattern anyCheck]
    .backward

def data (c : Clash) : Store := .ofList [⟨.iri "ann", .iri "says", c.said⟩]

def target (c : Clash) : Triple := ⟨.iri "ann", .iri "checks", c.said⟩

end Clash

def lessThanFive : Clash := ⟨"lessThan", [.named "x", .plain "5"], .plain "3"⟩

/-- For each standard builtin that is a test and does not search for a pattern, a call that turns
out differently when what is said has come from the goal. -/
def clashes : List Clash :=
  [⟨"equal", [.named "x", .iri "yes"], .iri "yes"⟩,
    ⟨"notEqual", [.named "x", .iri "no"], .iri "yes"⟩,
    lessThanFive,
    ⟨"greaterThan", [.named "x", .plain "1"], .plain "3"⟩,
    ⟨"le", [.named "x", .plain "5"], .plain "3"⟩,
    ⟨"ge", [.named "x", .plain "1"], .plain "3"⟩,
    ⟨"sum", [.named "x", .plain "1", .plain "3"], .plain "02"⟩,
    ⟨"difference", [.named "x", .plain "1", .plain "1"], .plain "02"⟩,
    ⟨"product", [.plain "1", .plain "2", .named "x"], .plain "02"⟩,
    ⟨"quotient", [.plain "4", .plain "2", .named "x"], .plain "02"⟩,
    ⟨"min", [.plain "05", .plain "7", .named "x"], .plain "5"⟩,
    ⟨"max", [.plain "05", .plain "3", .named "x"], .plain "5"⟩,
    ⟨"isLiteral", [.named "x"], .plain "hello"⟩,
    ⟨"notLiteral", [.named "x"], .plain "hello"⟩,
    ⟨"isBNode", [.named "x"], .blank (.fresh 0)⟩,
    ⟨"notBNode", [.named "x"], .blank (.fresh 0)⟩,
    ⟨"isFunctor", [.named "x"], .compound "pair" []⟩,
    ⟨"bound", [.named "x"], .iri "yes"⟩,
    ⟨"unbound", [.named "x"], .iri "yes"⟩,
    ⟨"strConcat", [.named "x", .plain "a"], .plain "a"⟩]

namespace Clash

variable {c : Clash}

def graph? (c : Clash) : Option InferenceGraph :=
  match Reasoner.build .standard [c.rule] {} with
  | .ok r =>
    match r.bind 100 c.data 0 with
    | some (.ok g, _) => some g
    | _ => none
  | .error _ => none

theorem reachable_graph? (hname : c.name ≠ "makeTemp") (hground : c.target.isGround)
    (h : c.graph? = some g) : ∃ r, Reasoner.build .standard [c.rule] {} = .ok r ∧ r.Built ∧
      r.base.OnlyTests ∧ Reachable r g := by
  have hdata : c.data.Built := by
    refine Store.built_ofList ?_
    simpa [target, Triple.isGround, Term.isGround] using hground
  unfold graph? at h
  split at h
  · rename_i r hbuild
    split at h
    · rename_i hbind
      cases h
      refine ⟨r, hbuild, .build (fun q hq => ?_) hbuild,
        Reasoner.onlyTests_build hbuild fun q hq => ?_, .bind hdata hbind⟩
      · rw [List.mem_singleton.mp hq]
        exact ⟨_, _, _, none, rfl⟩
      · rw [List.mem_singleton.mp hq]
        refine Rule.onlyTests_make _ (fun name args hcall => ?_) _ _
        simp only [List.mem_cons, Clause.call.injEq, List.not_mem_nil, or_false,
          reduceCtorEq] at hcall
        exact hcall.1 ▸ hname
    · cases h
  · cases h

def shows? (c : Clash) : Bool :=
  c.target.isGround && anyCheck.matches? c.target &&
    c.graph?.any fun g => g.disagrees? c.target anyCheck

end Clash

theorem shows?_of_mem_clashes : ∀ c ∈ clashes, c.shows? := by decide +kernel

theorem exists_mem_clashes {search : PatternSearch} {b : Builtin}
    (hb : b ∈ (Registry.standardWith search).builtins) (hmints : b.name ≠ "makeTemp")
    (hsearches : b.name ≠ "regex") : ∃ c ∈ clashes, c.name = b.name := by
  have hnames : (Registry.standardWith search).builtins.map (·.name) =
      Registry.standard.builtins.map (·.name) := by rfl
  have hall : ∀ name ∈ Registry.standard.builtins.map (·.name), name ≠ "makeTemp" →
      name ≠ "regex" → ∃ c ∈ clashes, c.name = name := by
    decide +kernel
  exact hall b.name (hnames ▸ List.mem_map_of_mem hb) hmints hsearches

/-- Whichever test a rule calls on what no pattern has had before it, a search for a pattern aside,
membership and enumeration may disagree. -/
theorem every_test_disagrees {b : Builtin} (hb : b.IsTest) (hsearches : b.name ≠ "regex") :
    ∃ (c : Clash) (r : Reasoner) (g : InferenceGraph), c.name = b.name ∧
      Reasoner.build .standard [c.rule] {} = .ok r ∧ r.Built ∧ r.base.OnlyTests ∧ Reachable r g ∧
      c.target.isGround ∧ anyCheck.matches? c.target ∧ g.Disagrees c.target anyCheck := by
  obtain ⟨_, hmem, hmints⟩ := hb
  obtain ⟨c, hc, hname⟩ := exists_mem_clashes hmem hmints hsearches
  have hshows := shows?_of_mem_clashes c hc
  rw [Clash.shows?, Bool.and_eq_true, Bool.and_eq_true, Option.any_eq_true] at hshows
  obtain ⟨⟨hground, hmatch⟩, g, hgraph, hdisagrees⟩ := hshows
  obtain ⟨r, hbuild, hr, htests, hg⟩ := Clash.reachable_graph? (hname ▸ hmints) hground hgraph
  exact ⟨c, r, g, hname, hbuild, hr, htests, hg, hground, hmatch,
    disagrees_of_disagrees? hdisagrees⟩

/-- That Ann checks the three is found, and is the answer when it is asked for, but nothing is
brought when all is asked for that anyone checks. -/
theorem lessThanFive_not_enumerated : ∃ r g found own reply,
    Reasoner.build .standard [lessThanFive.rule] {} = .ok r ∧ r.Built ∧ r.base.OnlyTests ∧
    Reachable r g ∧ lessThanFive.target.isGround ∧ anyCheck.matches? lessThanFive.target ∧
    g.contains 100 lessThanFive.target 0 = some found ∧ found.value = .ok true ∧
    g.query 100 lessThanFive.target 0 = some own ∧ own.value = .ok [lessThanFive.target] ∧
    g.query 100 anyCheck 0 = some reply ∧ reply.value = .ok [] := by
  have hrun : lessThanFive.graph?.any fun g =>
      ((g.contains 100 lessThanFive.target 0).any fun found => found.value == .ok true) &&
      ((g.query 100 lessThanFive.target 0).any fun own =>
        own.value == .ok [lessThanFive.target]) &&
      (g.query 100 anyCheck 0).any fun reply => reply.value == .ok [] := by
    decide +kernel
  simp only [Option.any_eq_true, Bool.and_eq_true, beq_iff_eq] at hrun
  obtain ⟨g, hgraph, ⟨⟨found, hfound, hholds⟩, own, hown, hself⟩, reply, hreply, hnone⟩ := hrun
  have hground : lessThanFive.target.isGround := by decide
  obtain ⟨r, hbuild, hr, htests, hg⟩ := Clash.reachable_graph? (by decide) hground hgraph
  exact ⟨r, g, found, own, reply, hbuild, hr, htests, hg, hground, by decide, hfound, hholds, hown,
    hself, hreply, hnone⟩

end InferenceGraph

end TripleRules
