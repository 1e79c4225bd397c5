import TripleRules.Proofs.Derivation.Log
import TripleRules.Proofs.Forward.Passes
import TripleRules.Proofs.Forward.Matching
import TripleRules.Proofs.Rule.Policy

/-!
# Policies in the forward engine

A policy that the forward rules and the sources keep to holds of every rule that a pass enters, of
all that its body leads to, and of what is deduced.
-/

namespace TripleRules

open Forward Forward.Engine
open Tabling (Cursor)
open Tabling.Cursor (Leads)

namespace Forward

def Firing.done (f : Firing) : Cursor := ⟨f.rule, f.env, [], f.premises⟩

/-- A body is completed clause by clause, with triples that are found in the sources. -/
theorem leads_of_mem_firings {sources : Sources} {rule : CheckedRule} {record : Bool}
    {rest : List Premise} {env : Bindings} {premises : List Triple} {m : Matching} {f : Firing}
    (hf : f ∈ (complete sources rule record rest env premises m).firings) :
    f ∈ m.firings ∨
      Leads record (fun g t => t ∈ sources.find g) ⟨rule, env, rest, premises⟩ f.done := by
  induction rest generalizing env premises m with
  | nil =>
      rcases List.mem_append.mp hf with hf | hf
      · exact .inl hf
      · rw [List.mem_singleton.mp hf]
        exact .inr .refl
  | cons q rest ih =>
      cases q with
      | pattern p =>
          rw [complete] at hf
          revert hf
          refine List.foldlRecOn _ _ (motive := fun m' : Matching => f ∈ m'.firings →
            f ∈ m.firings ∨ Leads record (fun g t => t ∈ sources.find g)
              ⟨rule, env, .pattern p :: rest, premises⟩ f.done) .inl ?_
          intro m' ihm t ht
          split
          · exact ihm
          · split
            · exact ihm
            · rename_i env' hmatch
              intro hf
              rcases ih hf with hf | hleads
              · exact ihm hf
              · exact .inr ((Leads.refl.read ht hmatch).trans hleads)
      | call b args =>
          rw [complete] at hf
          split at hf
          · rename_i env' fresh' hcall
            rcases ih hf with hf | hleads
            · exact .inl hf
            · exact .inr ((Leads.refl.call hcall).trans hleads)
          · exact .inl hf
          · exact .inl hf
          · exact .inl hf

theorem Engine.Completes.leads {e : Engine} {d : Data} {c : Cursor} {f : Firing}
    (h : e.Completes d c f) :
    Leads e.record (fun g t => t ∈ (e.sources d).find g) c f.done := by
  obtain ⟨fresh, hf⟩ := h
  exact (leads_of_mem_firings hf).resolve_left List.not_mem_nil

/-- A rule that a pass is at work on: it has been entered, and some of its clauses may be done. -/
def Engine.WorksOn (e : Engine) (d : Data) (c : Cursor) : Prop :=
  ∃ c₀, e.Enters d c₀ ∧ Leads e.record (fun g t => t ∈ (e.sources d).find g) c₀ c

theorem Engine.Completes.worksOn {e : Engine} {d : Data} {c : Cursor} {f : Firing}
    (hc : e.Enters d c) (h : e.Completes d c f) : e.WorksOn d f.done := ⟨c, hc, h.leads⟩

end Forward

namespace Policy

variable {P : Policy} {d : Data} {e e' : Engine}

/-- The forward rules and all triples at hand keep to a policy. -/
structure Covers (P : Policy) (d : Data) (e : Engine) : Prop where
  base : e.base.Built
  sources : (e.sources d).Built
  record : e.record = P.record
  rule : ∀ r ∈ e.base.forward, P.rule r
  triple : ∀ t, (e.sources d).contains t → P.triple e.log t
  log : e.log.All P.note

namespace Covers

theorem of_mem_find (h : P.Covers d e) {g t : Triple} (ht : t ∈ (e.sources d).find g) :
    P.triple e.log t := h.triple t ((h.sources.mem_find g t).mp ht).1

theorem enters (h : P.Covers d e) {c : Cursor} (hc : e.Enters d c) : P.cursor e.log c := by
  cases hc with
  | front hr => exact P.front (h.rule _ (List.mem_filter.mp hr).1)
  | @trigger t tr env ht htr hmatch =>
      obtain ⟨r, hr, hrule, hpattern, hrest⟩ := h.base.of_mem_triggersFor htr
      rw [hrule] at hmatch ⊢
      rw [hrest, h.record]
      exact P.trigger (h.rule r hr) hpattern (h.triple t ht) hmatch

theorem worksOn (h : P.Covers d e) {c : Cursor} (hc : e.WorksOn d c) : P.cursor e.log c := by
  obtain ⟨c₀, henters, hleads⟩ := hc
  exact P.leads (fun _ _ ht => h.of_mem_find ht) (h.enters henters) (h.record ▸ hleads)

theorem noted (h : P.Covers d e) (hbase : e'.base = e.base) (hrecord : e'.record = e.record)
    (hdeductions : e'.deductions = e.deductions) (hlog : e'.log = e.log) : P.Covers d e' where
  base := hbase ▸ h.base
  sources := by
    rw [Engine.sources, hdeductions]
    exact h.sources
  record := hrecord.trans h.record
  rule := hbase ▸ h.rule
  triple := by
    rw [hlog, Engine.sources, hdeductions]
    exact h.triple
  log := hlog ▸ h.log

theorem deduce (h : P.Covers d e) {f : Firing} (hf : P.cursor e.log f.done) {p : Triple}
    (hp : .pattern p ∈ f.rule.rule.head) : P.Covers d (e.deduce d f (f.env.instantiate p)) := by
  unfold Engine.deduce
  split
  · exact h
  · rename_i hnew
    rw [Bool.or_eq_true, not_or, Bool.not_eq_true', Bool.not_eq_false] at hnew
    have hconclude := P.conclude hf hp hnew.1
    have hderive := P.derive hf hp hnew.1
    refine ⟨h.base, ⟨h.sources.raw, h.sources.schema, h.sources.deductions.insert hnew.1⟩,
      h.record, h.rule, fun t ht => ?_, ?log⟩
    case log =>
      dsimp only
      split
      · exact h.log.record hderive
      · exact h.log
    rw [← h.record] at hconclude
    rw [Sources.contains_iff] at ht
    have hold : (e.sources d).contains t ∨ t = f.env.instantiate p := by
      rw [Sources.contains_iff]
      rcases ht with ht | ht | ht
      · exact .inl (.inl ht)
      · exact .inl (.inr (.inl ht))
      · exact ((Store.mem_insert _ _ t).mp ht).imp_left fun ht => .inr (.inr ht)
    rcases hold with hold | rfl
    · dsimp only
      split
      · exact P.triple_record _ (h.triple t hold)
      · exact h.triple t hold
    · exact hconclude

theorem install (h : P.Covers d e) (r : Rule) (env : Bindings) : P.Covers d (e.install r env) := by
  unfold Engine.install
  split
  · exact h.noted rfl rfl rfl rfl
  · split
    · exact h
    · exact h.noted rfl rfl rfl rfl

theorem cursor_deduce {c : Cursor} (hc : P.cursor e.log c) (d : Data) (f : Firing) (t : Triple) :
    P.cursor (e.deduce d f t).log c := by
  unfold Engine.deduce
  split
  · exact hc
  · dsimp only
    split
    · exact P.cursor_record _ hc
    · exact hc

theorem cursor_install {c : Cursor} (hc : P.cursor e.log c) (r : Rule) (env : Bindings) :
    P.cursor (e.install r env).log c := by
  unfold Engine.install
  split
  · exact hc
  · split <;> exact hc

theorem draws (h : P.Covers d e) {F : Firing → Prop} (hd : Draws d F e e')
    (hF : ∀ f, F f → P.cursor e.log f.done) :
    P.Covers d e' ∧ ∀ f, F f → P.cursor e'.log f.done := by
  induction hd with
  | refl => exact ⟨h, hF⟩
  | noted | counted | halted => exact ⟨h.noted rfl rfl rfl rfl, hF⟩
  | deduce e hf hp => exact ⟨h.deduce (hF _ hf) hp, fun g hg => cursor_deduce (hF g hg) d _ _⟩
  | install e _ _ => exact ⟨h.install _ _, fun g hg => cursor_install (hF g hg) _ _⟩
  | trans _ _ ih ih' =>
      obtain ⟨hcovers, hcursor⟩ := ih h hF
      exact ih' hcovers hcursor

/-- What a policy says holds wherever a pass comes to. -/
theorem reaches (h : P.Covers d e) (hr : Reaches d e e') : P.Covers d e' := by
  induction hr with
  | refl => exact h
  | plan _ _ ih => exact ih.noted rfl rfl rfl rfl
  | enter _ hc fresh ih =>
      exact (ih.draws (draws_matchAndFire _ d _ fresh) fun f hf => ih.worksOn (hf.worksOn hc)).1

end Covers

end Policy

end TripleRules
