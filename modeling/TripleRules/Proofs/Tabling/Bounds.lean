import Mathlib.Data.List.Nodup
import TripleRules.Proofs.Model.Flat
import TripleRules.Proofs.Tabling.LeastModel

/-!
# Bounds

Under flat rules the tables stay finite.  Answers are triples over the terms of the stores and of
the rules.  Goals that rules ask for are triples over these terms, the ground terms of the goals
that were asked for from outside, and three canonical variables.
-/

namespace TripleRules

def Sources.triples (s : Sources) : List Triple :=
  s.raw.triples ++ s.schema.triples ++ s.deductions.triples

theorem Sources.mem_triples (s : Sources) (t : Triple) : t ∈ s.triples ↔ s.contains t := by
  rw [contains_iff, triples, List.mem_append, List.mem_append, or_assoc]

theorem Store.Built.length_find_le {s : Store} (h : s.Built) (p : Triple) :
    (s.find p).length ≤ s.size := by
  rw [h.consistent.find_eq]
  exact List.length_filter_le _ _

theorem Sources.Built.length_find_le {s : Sources} (h : s.Built) (p : Triple) :
    (s.find p).length ≤ s.size := by
  have hraw := h.raw.length_find_le p
  have hschema := h.schema.length_find_le p
  have hdeductions := h.deductions.length_find_le p
  have hfilter := List.length_filter_le (fun t => !s.raw.contains t) (s.schema.find p)
  have hfilter' := List.length_filter_le
    (fun t => !(s.raw.contains t || s.schema.contains t)) (s.deductions.find p)
  rw [find, size, List.length_append, List.length_append]
  omega

def RuleView.all (v : RuleView) : List CheckedRule :=
  (v.base.map (·.rules)).getD [] ++ v.installed.rules

theorem RuleView.Has.mem_all {v : RuleView} {r : CheckedRule} (h : v.Has r) : r ∈ v.all := by
  rcases h with ⟨s, hs, hr⟩ | hr
  · rw [all, hs]
    exact List.mem_append_left _ hr
  · exact List.mem_append_right _ hr

namespace Tabling

namespace Context

variable (ctx : Context)

def Flat : Prop := ∀ r, ctx.rules.Has r → r.IsFlat

def terms : List Term :=
  (ctx.sources.triples ++ ctx.rules.all.flatMap CheckedRule.patterns).flatMap Triple.terms

def termsWith (asked : List Triple) : List Term := ctx.terms ++ asked.flatMap Triple.terms

def goalsWith (asked : List Triple) : List Triple :=
  asked ++ Triple.allOver (ctx.termsWith asked ++ Triple.canonicalTerms)

/-- No goal has more answers than this, and no look-up finds more triples. -/
def width : Nat := (Triple.allOver ctx.terms).length + ctx.sources.size

variable {ctx}

theorem over_of_mem_patterns {r : CheckedRule} (hr : ctx.rules.Has r) {p : Triple}
    (hp : p ∈ r.patterns) : p.Over ctx.terms := by
  intro x hx
  have hmem : p ∈ ctx.rules.all.flatMap CheckedRule.patterns :=
    List.mem_flatMap.mpr ⟨r, hr.mem_all, hp⟩
  exact List.mem_flatMap.mpr ⟨p, List.mem_append_right _ hmem, hx⟩

/-- The least model is over the terms of the triples at hand and of the rules. -/
theorem Entails.over (hctx : ctx.Built) (hguard : ctx.Guarded) (hflat : ctx.Flat) {x : Triple}
    (hx : ctx.Entails x) : x.Over ctx.terms := by
  refine Entailed.over ?_ ?_ ?_ hx
  · intro t ht y hy
    have hmem := (ctx.sources.mem_triples t).mpr ht
    exact List.mem_flatMap.mpr ⟨t, List.mem_append_left _ hmem, hy⟩
  · intro r hr
    exact ⟨hctx.rules.isChecked hr, hguard r hr, hflat r hr, fun p hp => over_of_mem_patterns hr hp⟩
  · intro r hr p hp
    exact hctx.rules.headPattern?_eq hr hp

theorem terms_subset_termsWith (asked : List Triple) : ctx.terms ⊆ ctx.termsWith asked :=
  fun _ hx => List.mem_append_left _ hx

theorem mem_termsWith_of_goal {asked : List Triple} {g : Triple} (hg : g ∈ ctx.goalsWith asked)
    {x : Term} (hx : x ∈ g.terms) (hground : x.isGround) : x ∈ ctx.termsWith asked := by
  rcases List.mem_append.mp hg with hg | hg
  · exact List.mem_append_right _ (List.mem_flatMap.mpr ⟨g, hg, hx⟩)
  · rcases List.mem_append.mp (Triple.over_of_mem_allOver hg x hx) with hx | hx
    · exact hx
    · obtain ⟨i, -, rfl⟩ := List.mem_map.mp hx
      cases hground

theorem termsWith_mono {asked asked' : List Triple} (h : asked ⊆ asked') :
    ctx.termsWith asked ⊆ ctx.termsWith asked' := by
  intro x hx
  rcases List.mem_append.mp hx with hx | hx
  · exact List.mem_append_left _ hx
  · obtain ⟨g, hg, hx⟩ := List.mem_flatMap.mp hx
    exact List.mem_append_right _ (List.mem_flatMap.mpr ⟨g, h hg, hx⟩)

theorem goalsWith_mono {asked asked' : List Triple} (h : asked ⊆ asked') :
    ctx.goalsWith asked ⊆ ctx.goalsWith asked' := by
  intro g hg
  rcases List.mem_append.mp hg with hg | hg
  · exact List.mem_append_left _ (h hg)
  · apply List.mem_append_right
    apply Triple.mem_allOver
    intro x hx
    rcases List.mem_append.mp (Triple.over_of_mem_allOver hg x hx) with hx | hx
    · exact List.mem_append_left _ (termsWith_mono h hx)
    · exact List.mem_append_right _ hx

end Context

/-! ## Rules keep to the bounds -/

def Keeps (ctx : Context) (asked : List Triple) (r : CheckedRule) (rest : List Premise)
    (env : Bindings) : Prop :=
  Progresses ctx r rest env ∧ env.Values (· ∈ ctx.termsWith asked)

namespace Keeps

variable {ctx : Context} {asked : List Triple} {r : CheckedRule} {rest : List Premise}
  {env env' : Bindings} {p x : Triple}

theorem mem_patterns (h : Keeps ctx asked r (.pattern p :: rest) env) : p ∈ r.patterns := by
  obtain ⟨⟨-, -, -, done, hbody, -⟩, -⟩ := h
  apply CheckedRule.mem_patterns_of_body
  rw [hbody]
  exact List.mem_append_right _ List.mem_cons_self

theorem read (hflat : ctx.Flat) (h : Keeps ctx asked r (.pattern p :: rest) env)
    (hx : ctx.Entails x) (hover : x.Over ctx.terms) (hmatch : env.match? p x = some env') :
    Keeps ctx asked r rest env' := by
  have hp := hflat r h.1.1 p h.mem_patterns
  have hover := hover.mono (Context.terms_subset_termsWith asked)
  exact ⟨h.1.read hx hmatch, Bindings.values_match? hp hover h.2 hmatch⟩

theorem subgoal (hflat : ctx.Flat) (h : Keeps ctx asked r (.pattern p :: rest) env) :
    (env.instantiate p).normalize ∈ ctx.goalsWith asked := by
  have hmem := h.mem_patterns
  obtain ⟨⟨hr, -, hground, -⟩, hvalues⟩ := h
  have hover := (Context.over_of_mem_patterns hr hmem).mono (Context.terms_subset_termsWith asked)
  have hsub := Bindings.over_normalize_instantiate (hflat r hr p hmem) hover hground hvalues
  exact List.mem_append_right _ (Triple.mem_allOver hsub)

end Keeps

def bounded {ctx : Context} (hctx : ctx.Built) (hguard : ctx.Guarded) (hflat : ctx.Flat)
    (asked : List Triple) : Discipline ctx where
  goal g := g ∈ ctx.goalsWith asked
  cursor _ := Keeps ctx asked
  answer g x := g.matches? x ∧ ctx.Entails x
  fact _ hx := entails_of_mem_find hctx hx
  start {g r env} hg hr hstart := by
    have hhas := hctx.rules.has_of_mem_candidates hr
    refine ⟨.start hhas hstart, ?_⟩
    apply CheckedRule.values_start? (hflat r hhas) _ hstart
    intro x hx hground
    exact Context.mem_termsWith_of_goal hg hx hground
  call {g r b args rest env env' fresh fresh'} h hcall := by
    have henv := ((h.1.call_holds_iff hguard fresh env').mp (congrArg Prod.fst hcall)).2
    refine ⟨h.1.call hguard hcall, ?_⟩
    rw [henv]
    exact h.2
  subgoal h := h.subgoal hflat
  data h hx hmatch :=
    have hentails := (entails_of_mem_find hctx hx).2
    h.read hflat hentails (hentails.over hctx hguard hflat) hmatch
  read h hx hmatch := h.read hflat hx.2 (hx.2.over hctx hguard hflat) hmatch
  head h hhead hground hgoal := ⟨hgoal, h.1.entails hhead hground⟩

/-- The tables keep to the bounds that some finite list of goals sets. -/
def Bounded {ctx : Context} (hctx : ctx.Built) (hguard : ctx.Guarded) (hflat : ctx.Flat)
    (asked : List Triple) (t : Tables) : Prop :=
  Faithful hctx hguard t ∧ (bounded hctx hguard hflat asked).Obeyed t

namespace Bounded

variable {ctx : Context} {hctx : ctx.Built} {hguard : ctx.Guarded} {hflat : ctx.Flat}
  {asked : List Triple} {t t' : Tables}

theorem settles {S : List GeneratorId} (h : Bounded hctx hguard hflat asked t)
    (hclosed : Closed t S) (hs : Settles S t t') : Bounded hctx hguard hflat asked t' :=
  ⟨h.1.settles hclosed hs, h.2.settles hs⟩

theorem move (h : Bounded hctx hguard hflat asked t) {turn turn' : Option Turn}
    (hm : Move ctx t turn t' turn') : Bounded hctx hguard hflat asked t' :=
  ⟨h.1.move hm, h.2.move h.1.linked hm⟩

theorem mono {asked' : List Triple} (h : Bounded hctx hguard hflat asked t)
    (hsub : asked ⊆ asked') : Bounded hctx hguard hflat asked' t := by
  refine ⟨h.1, h.2.mono ?_ ?_ ?_⟩
  · exact fun g hg => Context.goalsWith_mono hsub hg
  · intro g r rest env hkeeps
    exact ⟨hkeeps.1, fun i x hx => Context.termsWith_mono hsub (hkeeps.2 i x hx)⟩
  · exact fun g x hx => hx

theorem generatorFor (h : Bounded hctx hguard hflat asked t) {goal : Triple}
    (hgoal : goal.normalize ∈ ctx.goalsWith asked) :
    Bounded hctx hguard hflat asked (t.generatorFor ctx goal).2 :=
  ⟨h.1.generatorFor goal, h.2.generatorFor h.1.linked hgoal⟩

/-- Whatever has been asked and pumped, some finite list of goals bounds the tables. -/
theorem invariant (hctx : ctx.Built) (hguard : ctx.Guarded) (hflat : ctx.Flat) :
    Invariant ctx fun t _ => ∃ asked, Bounded hctx hguard hflat asked t where
  ask t goal h := by
    obtain ⟨asked, h⟩ := h
    refine ⟨goal.normalize :: asked, ?_⟩
    apply (h.mono (List.subset_cons_self _ _)).generatorFor
    exact List.mem_append_left _ List.mem_cons_self
  enqueue t id h _ := by
    obtain ⟨asked, h⟩ := h
    exact ⟨asked, h.settles (closed_nil t) (t.settles_enqueue id)⟩
  move t t' turn turn' h hm := by
    obtain ⟨asked, h⟩ := h
    exact ⟨asked, h.move hm⟩
  safe t t' turn r rest env premises fresh f h ht := by
    obtain ⟨asked, h⟩ := h
    exact h.1.safe ht premises fresh f

theorem reached (hctx : ctx.Built) (hguard : ctx.Guarded) (hflat : ctx.Flat)
    (ht : Reached ctx t) : ∃ asked, Bounded hctx hguard hflat asked t :=
  (invariant hctx hguard hflat).reached (fun _ hblank => ⟨[], .blank hblank, .blank hblank⟩) ht

theorem size_le (h : Bounded hctx hguard hflat asked t) :
    t.size ≤ (ctx.goalsWith asked).length := by
  have hnodup : ((List.range t.size).map fun id => (t.generator id).goal).Nodup := by
    apply List.Nodup.map_on _ List.nodup_range
    intro i hi j hj hgoal
    have hi := (h.1.linked.cache _ i).mpr ⟨List.mem_range.mp hi, rfl⟩
    have hj := (h.1.linked.cache _ j).mpr ⟨List.mem_range.mp hj, rfl⟩
    rw [hgoal, hj, Option.some.injEq] at hi
    exact hi.symm
  have hsub : ((List.range t.size).map fun id => (t.generator id).goal) ⊆ ctx.goalsWith asked := by
    intro g hg
    obtain ⟨id, hid, rfl⟩ := List.mem_map.mp hg
    exact h.2.goal id (List.mem_range.mp hid)
  have hlength := hnodup.length_le_of_subset hsub
  rw [List.length_map, List.length_range] at hlength
  exact hlength

end Bounded

/-- A goal has no more answers than there are triples over the terms at hand. -/
theorem Faithful.size_results_le {ctx : Context} {hctx : ctx.Built} {hguard : ctx.Guarded}
    {t : Tables} (h : Faithful hctx hguard t) (hflat : ctx.Flat) (id : GeneratorId) :
    (t.generator id).results.size ≤ ctx.width := by
  have hsub : (t.generator id).results.toList ⊆ Triple.allOver ctx.terms := by
    intro x hx
    have hentails := (h.obeyed.answer id x (Array.mem_toList_iff.mp hx)).2
    exact Triple.mem_allOver (hentails.over hctx hguard hflat)
  have hlength := (h.recorded.nodup id).length_le_of_subset hsub
  rw [Array.length_toList] at hlength
  exact hlength.trans (Nat.le_add_right _ _)

theorem Context.Built.length_find_le {ctx : Context} (h : ctx.Built) (p : Triple) :
    (ctx.sources.find p).length ≤ ctx.width :=
  (h.sources.length_find_le p).trans (Nat.le_add_left _ _)

end Tabling

end TripleRules
