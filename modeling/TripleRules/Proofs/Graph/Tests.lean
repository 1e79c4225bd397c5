import TripleRules.Proofs.Forward.Solutions
import TripleRules.Proofs.Graph.Delivery
import TripleRules.Proofs.Graph.Engines
import TripleRules.Proofs.Tabling.Goals

/-!
# Graphs whose rules call tests only

A test never ends the reasoning.  So when the rules of a base, and the rules nested in their heads,
call tests only, no update of a graph is ever broken off, all rules that are installed call tests
only, and the tables are always those of what the graph holds.
-/

namespace TripleRules

open Forward Forward.Engine
open Tabling (Cursor)

/-- The rules of a base, and the rules nested in their heads, call tests only. -/
structure RuleBase.OnlyTests (b : RuleBase) : Prop where
  forward : ∀ c ∈ b.forward, c.OnlyTests
  nested : ∀ c ∈ b.forward, ∀ q, .rule q ∈ c.rule.head → CallsTests b.known q.body
  backward : ∀ c ∈ b.backward.rules, c.OnlyTests

def Rule.OnlyTests (q : Rule) (known : Registry) : Prop :=
  CallsTests known q.body ∧ ∀ n, .rule n ∈ q.head → CallsTests known n.body

theorem Rule.onlyTests_make (search : PatternSearch) {body : List Clause}
    (h : ∀ name args, .call name args ∈ body → name ≠ "makeTemp") (t : Triple) (d : Direction) :
    (Rule.make body [.pattern t] d).OnlyTests (.standardWith search) :=
  ⟨(callsTests_standard search h).make _ _,
    fun _ hn => Conclusion.noConfusion (List.mem_singleton.mp hn)⟩

theorem RuleBase.Gathers.onlyTests {known : Registry} {rules : List Rule} {b : RuleBase}
    (h : b.Gathers known rules) (hrules : ∀ q ∈ rules, q.OnlyTests known) : b.OnlyTests where
  forward c hc := by
    obtain ⟨-, q, hq, hcheck⟩ := (h.mem_forward c).mp hc
    exact (hrules q hq).1.onlyTests hcheck
  nested c hc := by
    obtain ⟨-, q, hq, hcheck⟩ := (h.mem_forward c).mp hc
    rw [h.keeps_known, (Rule.check_ok hcheck).2.2]
    exact (hrules q hq).2
  backward c hc := by
    obtain ⟨-, q, hq, hcheck⟩ := (h.mem_backward c).mp hc
    exact (hrules q hq).1.onlyTests hcheck

/-! ## The forward engine -/

namespace Forward.Engine

variable {d : Data} {e e' : Engine} {c : Cursor}

theorem Opens.of_base {seen : List Triple} (h : e.Opens seen c) (hb : e.base.Built) :
    c.rule ∈ e.base.forward ∧ c.rest ⊆ c.rule.body := by
  cases h with
  | front hr => exact ⟨(List.mem_filter.mp hr).1, List.Subset.refl _⟩
  | trigger _ htr =>
      obtain ⟨r, hr, hrule, -, hrest⟩ := hb.of_mem_triggersFor htr
      rw [← hrule] at hr hrest
      rw [hrest]
      exact ⟨hr, (List.eraseIdx_sublist _ _).subset⟩

theorem Enters.mem_forward (h : e.Enters d c) (hb : e.base.Built) : c.rule ∈ e.base.forward := by
  cases h with
  | front hr => exact (List.mem_filter.mp hr).1
  | trigger _ htr =>
      obtain ⟨r, hr, hrule, -, -⟩ := hb.of_mem_triggersFor htr
      exact hrule ▸ hr

theorem Proceeds.fault_eq_none (hb : e.base.Built) (htests : ∀ c ∈ e.base.forward, c.OnlyTests)
    {start : Nat} {w : Deeds} {o : Outcome} (h : Proceeds d e start w o) : o.fault = none := by
  induction h with
  | start | assert | pop | drop => rfl
  | enter _ _ hfault => rw [entered_of_none hfault]
  | broken h hc hfault =>
      obtain ⟨ts, hdeduces, -⟩ := h.deduces
      rw [← hdeduces.base] at hb htests
      obtain ⟨hrule, hrest⟩ := hc.of_base hb
      exact absurd (matching_fault_eq_none _ d (fun b args hcall =>
        (htests _ hrule b args (hrest hcall)).isUsual.isPure.neverFatal) _) hfault

theorem Draws.installed {F : Firing → Prop} (hd : Draws d F e e') {q : CheckedRule}
    (hq : q ∈ e'.installed.rules) : q ∈ e.installed.rules ∨
      ∃ f n, F f ∧ .rule n ∈ f.rule.rule.head ∧
        (n.specialize f.env).check e.base.known = .ok q := by
  induction hd with
  | refl | noted | counted | halted => exact .inl hq
  | deduce e =>
      unfold Engine.deduce at hq
      split at hq <;> exact .inl hq
  | install e hf hn =>
      unfold Engine.install at hq
      split at hq
      · exact .inl hq
      · rename_i c hcheck
        split at hq
        · exact .inl hq
        · rcases RuleSet.mem_of_mem_insert hq with hq | rfl
          · exact .inl hq
          · exact .inr ⟨_, _, hf, hn, hcheck⟩
  | trans hd _ ih ih' =>
      rcases ih' hq with hq | hnew
      · exact ih hq
      · rw [hd.chained.extends.base] at hnew
        exact .inr hnew

theorem Reaches.installed (hb : e.base.Built) (hr : Reaches d e e') {q : CheckedRule}
    (hq : q ∈ e'.installed.rules) : q ∈ e.installed.rules ∨
      ∃ c ∈ e.base.forward, ∃ n env, .rule n ∈ c.rule.head ∧
        (n.specialize env).check e.base.known = .ok q := by
  induction hr with
  | refl => exact .inl hq
  | plan _ _ ih => exact ih hq
  | @enter e' hreach c hc fresh ih =>
      rcases (draws_matchAndFire e' d c fresh).installed hq with hq | ⟨f, n, hf, hn, hcheck⟩
      · exact ih hq
      · have hbase := hreach.chained.extends.base
        have hrule : f.rule = c.rule := hf.leads.rule_eq
        have hmem : c.rule ∈ e'.base.forward := hc.mem_forward (hbase ▸ hb)
        rw [hrule] at hn
        rw [hbase] at hmem hcheck
        exact .inr ⟨c.rule, hmem, n, f.env, hn, hcheck⟩

theorem onlyTests_reaches (hb : e.base.Built) (htests : e.base.OnlyTests) (hr : Reaches d e e')
    (h : ∀ c ∈ e.installed.rules, c.OnlyTests) : ∀ c ∈ e'.installed.rules, c.OnlyTests := by
  intro q hq
  rcases hr.installed hb hq with hq | ⟨c, hc, n, env, hn, hcheck⟩
  · exact h q hq
  · exact ((htests.nested c hc n hn).specialize env).onlyTests hcheck

end Forward.Engine

/-! ## Reasoners -/

namespace Reasoner

variable {r : Reasoner}

theorem Built.onlyTests_schema (h : r.Built) (htests : r.base.OnlyTests) :
    ∀ c ∈ r.schema.installed.rules, c.OnlyTests := by
  induction h with
  | build _ h =>
      obtain ⟨b, -, rfl⟩ := build_ok h
      exact fun c hc => absurd hc List.not_mem_nil
  | @bindSchema r r' h fuel fresh fresh' schema _ hbind =>
      cases bindsSchema hbind with
      | plain => exact fun c hc => absurd hc List.not_mem_nil
      | worked _ hrun _ =>
          have hreaches := (passes_run (planned_new _ _ _ _) hrun).reaches
          exact onlyTests_reaches h.base htests hreaches fun c hc => absurd hc List.not_mem_nil

theorem Chains.onlyTests {d : Data} {e : Engine} (h : r.Chains d e) (hr : r.Built)
    (htests : r.base.OnlyTests) : ∀ c ∈ e.installed.rules, c.OnlyTests := by
  induction h with
  | schema => exact fun c hc => absurd hc List.not_mem_nil
  | start => exact hr.onlyTests_schema htests
  | assert _ _ ih => exact ih
  | pass h hpass ih =>
      rw [← h.base] at htests
      exact onlyTests_reaches (h.base ▸ hr.base) htests hpass ih

theorem onlyTests_build {known : Registry} {rules : List Rule} {settings : ReasoningSettings}
    {r : Reasoner} (h : build known rules settings = .ok r)
    (hrules : ∀ q ∈ rules, q.OnlyTests known) : r.base.OnlyTests := by
  obtain ⟨b, hb, rfl⟩ := build_ok h
  exact (RuleBase.gathers_ofRules hb).onlyTests hrules

end Reasoner

/-! ## Graphs -/

namespace InferenceGraph

variable {g : InferenceGraph} {r : Reasoner}

theorem History.onlyTests (h : History r g) (hr : r.Built) (htests : r.base.OnlyTests) :
    g.context.OnlyTests := by
  rintro c (⟨s, hs, hc⟩ | hc)
  · simp only [InferenceGraph.context, InferenceGraph.rules, h.serves.base] at hs
    split at hs
    · cases hs
      exact htests.backward c hc
    · cases hs
  · exact h.engaged.chains.onlyTests hr htests c hc

theorem History.add_not_fatal (h : History r g) (hr : r.Built) (htests : r.base.OnlyTests)
    {fuel fresh : Nat} {t : Triple} {reply : Reply (Except Fault Bool)}
    (hreply : g.add fuel t fresh = some reply) {f : Fault} (hf : reply.value = .error f) :
    ¬ f.IsFatal := by
  have hbase := h.engaged.chains.base
  cases adds hreply with
  | closed | refused =>
      cases hf
      rintro ⟨_, _, _, ⟨⟩⟩
  | known | idle | pass => cases hf
  | broken _ _ _ ho hfault =>
      obtain ⟨w, hw⟩ := exists_performs (c := .addTriple t) ho
      rw [hw.proceeds.fault_eq_none (hbase ▸ hr.base) (hbase ▸ htests.forward)] at hfault
      cases hfault

theorem History.delete_not_fatal (h : History r g) (hr : r.Built) (htests : r.base.OnlyTests)
    {fuel fresh : Nat} {t : Triple} {reply : Reply (Except Fault Bool)}
    (hreply : g.delete fuel t fresh = some reply) {f : Fault} (hf : reply.value = .error f) :
    ¬ f.IsFatal := by
  have hbase := h.serves.base
  cases deletes hreply with
  | closed =>
      cases hf
      rintro ⟨_, _, _, ⟨⟩⟩
  | unknown | anew => cases hf
  | broken _ hdeduce hfault =>
      cases deduces hdeduce with
      | idle => cases hfault
      | pass _ hrun =>
          obtain ⟨w, hw⟩ := exists_performs (c := .run) hrun
          have hnone := hw.proceeds.fault_eq_none (hbase ▸ hr.base) (hbase ▸ htests.forward)
          dsimp only at hfault
          rw [hnone] at hfault
          cases hfault

/-- No update of the graph has been broken off. -/
theorem History.unbroken (h : History r g) (hr : r.Built) (htests : r.base.OnlyTests) :
    Unbroken r g :=
  h.keeps .bind (fun hg h hadd => h.add hadd fun _ => hg.add_not_fatal hr htests hadd)
    (fun hg h hdelete => h.delete hdelete fun _ => hg.delete_not_fatal hr htests hdelete)
    (fun pattern _ h => h.find pattern) (fun _ h hnext => h.next hnext) .reset

/-- The tables of a graph on which no update has been broken off are those of what it holds. -/
theorem Unbroken.reached (h : Unbroken r g) : Tabling.Reached g.context g.tables := by
  have hreset : ∀ g : InferenceGraph, g.reset = g → Tabling.Reached g.context g.tables := by
    intro g heq
    rw [← heq]
    exact reached_reset g
  induction h with
  | bind _ hbind => exact ⟨_, blank_bind hbind, .refl⟩
  | add h hadd hvalue ih =>
      rcases tables_add hadd with hsame | ⟨-, heq⟩ | ⟨⟨f, hf⟩, -⟩
      · rw [hsame]
        exact ih
      · exact hreset _ heq
      · rcases h.history.orderly.add_error hadd hf with ⟨-, hsame, -⟩ | ⟨hfatal, -⟩
        · rw [hsame]
          exact ih
        · exact absurd hfatal (hvalue f hf)
  | delete h hdelete hvalue ih =>
      rcases tables_delete hdelete with hsame | ⟨-, heq⟩ | ⟨⟨f, hf⟩, -⟩
      · rw [hsame]
        exact ih
      · exact hreset _ heq
      · exact absurd (h.history.orderly.delete_error hdelete hf).1 (hvalue f hf)
  | @find g _ pattern ih =>
      rcases graph_find g pattern with heq | heq
      · rw [heq]
        exact ih
      · rw [heq]
        exact ih.ask pattern
  | @next g _ _ _ _ reply hnext ih =>
      have hnexts := nexts hnext
      generalize reply.graph = g' at hnexts ⊢
      cases hnexts with
      | off => exact ih
      | pumped hpump _ => exact ih.pump hpump
      | @broken _ o => exact ⟨_, o.tables.blank_reset, .refl⟩
  | reset => exact reached_reset _

end InferenceGraph

end TripleRules
