import TripleRules.Proofs.Forward.Policy
import TripleRules.Proofs.Rule.Explanation

/-!
# Explanations of deductions

A forward engine records a derivation with every triple that it deduces.  The triple is new, so the
derivation is its first, and its premises are asserted, in the schema, or deduced before.
-/

namespace TripleRules

open Forward Forward.Engine

def Forward.Data.Gives (d : Data) (t : Triple) : Prop := t ∈ d.raw.triples ∨ t ∈ d.schema.triples

/-- What a forward engine has recorded explains its deductions, which are none of the schema. -/
structure Forward.Engine.Explains (d : Data) (e : Engine) : Prop where
  covers : (Policy.explaining d.Gives).Covers d e
  founded : e.log.Founded d.Gives
  conclusions : e.log.conclusions = e.deductions.triples
  apart : ∀ t ∈ e.deductions.triples, t ∉ d.schema.triples

namespace Forward.Engine.Explains

variable {d : Data} {e e' : Engine}

theorem noted (h : Explains d e) (hbase : e'.base = e.base) (hrecord : e'.record = e.record)
    (hdeductions : e'.deductions = e.deductions) (hlog : e'.log = e.log) : Explains d e' where
  covers := h.covers.noted hbase hrecord hdeductions hlog
  founded := hlog ▸ h.founded
  conclusions := by
    rw [hlog, hdeductions]
    exact h.conclusions
  apart := hdeductions ▸ h.apart

theorem deduce (h : Explains d e) {f : Firing}
    (hf : (Policy.explaining d.Gives).cursor e.log f.done)
    {p : Triple} (hp : .pattern p ∈ f.rule.rule.head) :
    Explains d (e.deduce d f (f.env.instantiate p)) := by
  have hcovers := h.covers.deduce hf hp
  unfold Engine.deduce at hcovers ⊢
  split
  · exact h
  · rename_i hnew
    rw [if_neg hnew] at hcovers
    rw [Bool.or_eq_true, not_or, Bool.not_eq_true', Bool.not_eq_false, Sources.contains_iff, not_or,
      not_or] at hnew
    obtain ⟨-, hraw, hschema, hdeductions⟩ := hnew
    replace hdeductions : f.env.instantiate p ∉ e.deductions.triples := hdeductions
    have hrecord : e.record = true := h.covers.record
    have hgives : ¬ d.Gives (f.env.instantiate p) := fun hin => hin.elim hraw hschema
    have hinsert : (e.deductions.insert (f.env.instantiate p)).triples =
        e.deductions.triples ++ [f.env.instantiate p] := by
      rw [Store.insert, if_neg fun hin => hdeductions ((Store.contains_iff _ _).mp hin)]
    refine ⟨hcovers, ?_, ?_, fun t ht => ?_⟩
    · rw [if_pos hrecord]
      exact h.founded.record (hf.1.isInstance hp) hf.2 (.inr hgives)
    · rw [if_pos hrecord, DerivationLog.conclusions_record h.founded.nodup, h.conclusions]
      exact (if_neg hdeductions).trans hinsert.symm
    · rcases (Store.mem_insert _ _ _).mp ht with ht | rfl
      · exact h.apart t ht
      · exact hschema

/-- Conclusions of bodies that account for their premises are explained. -/
theorem draws (h : Explains d e) {F : Firing → Prop} (hd : Draws d F e e')
    (hF : ∀ f, F f → (Policy.explaining d.Gives).cursor e.log f.done) : Explains d e' := by
  suffices hboth : Explains d e' ∧ ∀ f, F f → (Policy.explaining d.Gives).cursor e'.log f.done from
    hboth.1
  induction hd with
  | refl => exact ⟨h, hF⟩
  | noted | counted | halted => exact ⟨h.noted rfl rfl rfl rfl, hF⟩
  | deduce e hf hp =>
      exact ⟨h.deduce (hF _ hf) hp, fun g hg => Policy.Covers.cursor_deduce (hF g hg) d _ _⟩
  | install e _ _ =>
      refine ⟨?_, fun g hg => Policy.Covers.cursor_install (hF g hg) _ _⟩
      unfold Engine.install
      split
      · exact h.noted rfl rfl rfl rfl
      · split
        · exact h
        · exact h.noted rfl rfl rfl rfl
  | trans _ _ ih ih' =>
      obtain ⟨hexplains, hcursor⟩ := ih h hF
      exact ih' hexplains hcursor

theorem reaches (h : Explains d e) (hr : Reaches d e e') : Explains d e' := by
  induction hr with
  | refl => exact h
  | plan _ _ ih => exact ih.noted rfl rfl rfl rfl
  | @enter e' _ c hc fresh ih =>
      exact ih.draws (draws_matchAndFire e' d c fresh) fun f hf =>
        ih.covers.worksOn (hf.worksOn hc)

theorem new {b : RuleBase} (hb : b.Built) (hrules : ∀ c ∈ b.forward, c.IsReliable)
    {settings : ReasoningSettings} (hlog : settings.derivationLogging = true) (installed : RuleSet)
    (hraw : d.raw.Built) (hschema : d.schema.Built) : Explains d (.new b settings installed) where
  covers := {
    base := hb
    sources := ⟨hraw, hschema, .empty⟩
    record := hlog
    rule := hrules
    triple := fun t ht => by
      rw [Sources.contains_iff] at ht
      rcases ht with ht | ht | ht
      · exact .inl (.inl ht)
      · exact .inl (.inr ht)
      · exact absurd ht List.not_mem_nil
    log := DerivationLog.all_empty _ }
  founded := .empty _
  conclusions := rfl
  apart _ ht := absurd ht List.not_mem_nil

theorem assert {raw schema : Store} (h : Explains ⟨raw, schema⟩ e) {t : Triple} (ht : t.isGround) :
    Explains ⟨raw.insert t, schema⟩ e := by
  have hgives : ∀ u, Data.Gives ⟨raw, schema⟩ u → Data.Gives ⟨raw.insert t, schema⟩ u := fun u hu =>
    hu.imp_left fun hu => (Store.mem_insert _ _ _).mpr (.inl hu)
  refine ⟨⟨h.covers.base, ?_, h.covers.record, h.covers.rule, fun u hu => ?_, h.covers.log⟩,
    h.founded.mono hgives, h.conclusions, h.apart⟩
  · exact ⟨h.covers.sources.raw.insert ht, h.covers.sources.schema, h.covers.sources.deductions⟩
  · rw [Sources.contains_iff] at hu
    rcases hu with hu | hu | hu
    · exact .inl (.inl hu)
    · exact .inl (.inr hu)
    · exact .inr (h.conclusions ▸ hu)

end Forward.Engine.Explains

end TripleRules
