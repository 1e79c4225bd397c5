import TripleRules.Proofs.Tabling.Coverage
import TripleRules.Proofs.Tabling.Order

/-!
# What holds of all tables

No way to an answer is lost, and a frame is given up only when the goal it reads is complete and has
been read to the end.  This holds of all tables that can be reached if the rules in progress obey a
discipline under which no call comes to a fault or depends on nodes that have been minted.
-/

namespace TripleRules.Tabling

def Quiet (t : Tables) : Prop :=
  ∀ f < t.frames.size, (t.frame f).finished ∨ (t.generator (t.frame f).owner).isComplete →
    (t.generator (t.frame f).target).isComplete ∧
      (t.generator (t.frame f).target).results.size ≤ (t.frame f).nextResult

namespace Quiet

variable {t t' : Tables}

theorem blank (h : t.Blank) : Quiet t := by
  intro f hf
  rw [h.frames, Array.size_empty] at hf
  exact absurd hf (Nat.not_lt_zero f)

theorem settles {S : List GeneratorId} (h : Quiet t) (hclosed : Closed t S)
    (hs : Settles S t t') : Quiet t' := by
  intro f hf hover
  rw [hs.frames] at hf
  rw [hs.owner] at hover
  rw [hs.target, hs.results, hs.nextResult]
  have hover : (t.frame f).finished ∨ (t'.generator (t.frame f).owner).isComplete :=
    hover.elim (hs.finished f) .inr
  by_cases hold : (t.frame f).finished ∨ (t.generator (t.frame f).owner).isComplete
  · exact ⟨hs.isComplete_mono (h f hf hold).1, (h f hf hold).2⟩
  · rw [not_or, Bool.not_eq_true] at hold
    have howner : (t.frame f).owner ∈ S := by
      rcases hover with hfin | hc
      · rw [hold.1] at hfin
        cases hfin
      · exact ((hs.isComplete _).mp hc).resolve_left hold.2
    obtain ⟨hread, htarget⟩ := hclosed.read f hf howner hold.1
    exact ⟨(hs.isComplete _).mpr htarget, hread⟩

theorem congr (h : Quiet t) (hframes : t'.frames.size = t.frames.size)
    (htarget : ∀ f, (t'.frame f).target = (t.frame f).target)
    (howner : ∀ f, (t'.frame f).owner = (t.frame f).owner)
    (hfinished : ∀ f, (t'.frame f).finished = (t.frame f).finished)
    (hnext : ∀ f, (t.frame f).nextResult ≤ (t'.frame f).nextResult)
    (hcomplete : ∀ id, (t'.generator id).isComplete = (t.generator id).isComplete)
    (hresults : ∀ id, (t.generator id).isComplete →
      (t'.generator id).results = (t.generator id).results) : Quiet t' := by
  intro f hf hover
  rw [hframes] at hf
  rw [hfinished, howner, hcomplete] at hover
  obtain ⟨hc, hread⟩ := h f hf hover
  rw [htarget, hcomplete, hresults _ hc]
  exact ⟨hc, hread.trans (hnext f)⟩

theorem modifySearch (h : Quiet t) (id : GeneratorId) (g : Search → Search) :
    Quiet (t.modifySearch id g) :=
  h.congr rfl (fun _ => rfl) (fun _ => rfl) (fun _ => rfl) (fun _ => Nat.le_refl _)
    (t.isComplete_modifySearch id g) fun j _ => t.results_modifySearch id g j

theorem takes (h : Quiet t) {id : GeneratorId} {w : Option Way} (ht : Takes t id w t') :
    Quiet t' := by
  cases ht with
  | fact | start | data => exact h.modifySearch id _
  | @read f =>
      apply h.congr (t.size_frames_modifyFrame f _)
      case htarget => exact t.modifyFrame_keeps (·.target) f fun _ => rfl
      case howner => exact t.modifyFrame_keeps (·.owner) f fun _ => rfl
      case hfinished => exact t.modifyFrame_keeps (·.finished) f fun _ => rfl
      case hnext =>
        intro j
        rw [t.frame_modifyFrame]
        split
        · exact Nat.le_succ _
        · exact Nat.le_refl _
      case hcomplete => exact fun _ => rfl
      case hresults => exact fun _ _ => rfl

theorem generatorFor (h : Quiet t) (hlinked : Linked t) (ctx : Context) (goal : Triple) :
    Quiet (t.generatorFor ctx goal).2 := by
  rcases t.settles_generatorFor ctx goal with hs | ⟨-, hs⟩
  · exact h.settles (closed_nil t) hs
  · refine settles (fun f hf hover => ?_) (closed_nil _) hs
    rw [t.frame_addGenerator] at hover ⊢
    rw [t.generator_addGenerator_of_lt ctx _ (hlinked.owner_lt f hf)] at hover
    rw [t.generator_addGenerator_of_lt ctx _ (hlinked.target_lt f hf)]
    exact h f hf hover

theorem suspend (h : Quiet t) (target : GeneratorId) {owner : GeneratorId} (s : Suspension)
    (hc : (t.generator owner).isComplete = false) : Quiet (t.suspend target owner s) := by
  have hcomplete := t.isComplete_link target owner s
  have hlink : Quiet (t.link target owner s) := by
    intro f hf hover
    rw [t.results_link, hcomplete]
    rw [hcomplete] at hover
    rcases (t.lt_frames_link_iff target owner s).mp hf with hlt | rfl
    · rw [t.frame_link_of_lt target owner s hlt] at hover ⊢
      exact h f hlt hover
    · rw [t.frame_link_new] at hover
      rcases hover with hfin | hover
      · cases hfin
      · rw [hc] at hover
        cases hover
  obtain ⟨f, heq⟩ := t.suspend_eq target owner s
  have hcount := hlink.settles (closed_nil _) (Tables.settles_count _ f)
  rw [heq]
  split
  · exact hcount.modifySearch owner _
  · exact hcount

theorem pushAnswer (h : Quiet t) {id : GeneratorId}
    (hc : (t.generator id).isComplete = false) (x : Triple) : Quiet (t.pushAnswer id x) := by
  have hid := Tables.lt_size_of_isComplete_eq_false hc
  apply h.congr
  case hframes | htarget | howner | hfinished => intros; rfl
  case hnext => exact fun _ => Nat.le_refl _
  case hcomplete => exact t.isComplete_pushAnswer id x
  case hresults =>
    intro j hj
    rw [t.results_pushAnswer hid, if_neg]
    rintro rfl
    rw [hc] at hj
    cases hj

theorem lands (h : Quiet t) (hlinked : Linked t) {ctx : Context} {id : GeneratorId} {w : Way}
    (hc : (t.generator id).isComplete = false) (hl : Lands ctx id w t t') : Quiet t' := by
  induction hl with
  | known | barren => exact h
  | new hnew => exact (h.pushAnswer hc _).settles (closed_nil _) (Tables.settles_addResult hnew _)
  | answer _ _ _ _ ih => exact ih h hlinked hc
  | holds _ _ ih => exact ih h hlinked hc
  | refused => exact h.settles (closed_nil _) (.of_eq rfl rfl rfl)
  | suspended =>
      have hid := Tables.lt_size_of_isComplete_eq_false hc
      exact (h.generatorFor hlinked ctx _).suspend _ _
        ((isComplete_generatorFor _ ctx _ hid).trans hc)
  | opened => exact h.modifySearch id _

theorem retire (h : Quiet t) {f : FrameId}
    (hread : (t.generator (t.frame f).target).results.size ≤ (t.frame f).nextResult) :
    Quiet (t.retire f) := by
  intro j hj hover
  have hgenerator : (t.retire f).generator = t.generator := rfl
  have hframe := t.frame_modifyFrame f (fun x =>
    { x with pending := false,
             finished := x.finished || (t.generator (t.frame f).target).isComplete }) j
  rw [Tables.retire, t.size_frames_modifyFrame] at hj
  rw [hgenerator, Tables.retire] at hover ⊢
  rw [hframe] at hover ⊢
  split at hover
  · rename_i heq
    rw [if_pos heq]
    rw [heq.1] at hover hj ⊢
    rcases hover with hover | hover
    · rcases (Bool.or_eq_true _ _).mp hover with hover | hover
      · exact h f hj (.inl hover)
      · exact ⟨hover, hread⟩
    · exact h f hj (.inr hover)
  · rename_i hne
    rw [if_neg hne]
    exact h j hj hover

theorem work (h : Quiet t) (hlinked : Linked t) {ctx : Context} {id : GeneratorId}
    (hw : Work ctx t id t') : Quiet t' := by
  cases hw with
  | take | drop => exact h.modifySearch id _
  | retire _ hread => exact (h.retire hread).modifySearch id _
  | pass ht => exact h.takes ht
  | land ht hl =>
      exact (h.takes ht).lands (hlinked.takes ht) ((ht.isComplete_eq id).trans ht.isComplete) hl

end Quiet

/-! ## What holds of all tables -/

/-- What every reachable state of the tables satisfies whose rules obey a discipline. -/
structure Upheld {ctx : Context} (D : Discipline ctx) (t : Tables) : Prop where
  linked : Linked t
  recorded : Recorded t
  obeyed : D.Obeyed t
  covered : Covered ctx t
  quiet : Quiet t

namespace Upheld

variable {ctx : Context} {D : Discipline ctx} {t t' : Tables}

theorem blank (h : t.Blank) : Upheld D t := by
  have hsize : t.size = 0 := by rw [Tables.size, h.generators, Array.size_empty]
  have hframes : t.frames.size = 0 := by rw [h.frames, Array.size_empty]
  refine ⟨.blank h, .blank h, .blank h, ⟨fun id hid => ?_, fun id hid => ?_, fun f hf => ?_⟩,
    .blank h⟩
  · rw [hsize] at hid
    exact absurd hid (Nat.not_lt_zero id)
  · rw [hsize] at hid
    exact absurd hid (Nat.not_lt_zero id)
  · rw [hframes] at hf
    exact absurd hf (Nat.not_lt_zero f)

theorem mono {D' : Discipline ctx} (h : Upheld D t) (hgoal : ∀ g, D.goal g → D'.goal g)
    (hcursor : ∀ g r rest env, D.cursor g r rest env → D'.cursor g r rest env)
    (hanswer : ∀ g x, D.answer g x → D'.answer g x) : Upheld D' t :=
  ⟨h.linked, h.recorded, h.obeyed.mono hgoal hcursor hanswer, h.covered, h.quiet⟩

theorem settles {S : List GeneratorId} (h : Upheld D t) (hclosed : Closed t S)
    (hs : Settles S t t') : Upheld D t' :=
  ⟨h.linked.settles hs, h.recorded.settles hs, h.obeyed.settles hs,
    (Advances.settles hclosed hs).covered h.linked (fun _ _ => False.elim) h.covered,
    h.quiet.settles hclosed hs⟩

theorem generatorFor (h : Upheld D t) (goal : Triple) (hgoal : D.goal goal.normalize) :
    Upheld D (t.generatorFor ctx goal).2 :=
  ⟨h.linked.generatorFor ctx goal, h.recorded.generatorFor ctx goal,
    h.obeyed.generatorFor h.linked hgoal,
    (Advances.generatorFor ctx t h.linked goal).covered h.linked (fun _ _ => False.elim) h.covered,
    h.quiet.generatorFor h.linked ctx goal⟩

theorem advances (hD : D.Repeats) (h : Upheld D t) {id : GeneratorId} (hw : Work ctx t id t') :
    ∃ W, Advances ctx W t t' ∧ ∀ j w, W j w → Done ctx t' j w := by
  cases hw with
  | take hstack hready => exact ⟨_, .takeReady hstack hready, fun _ _ => False.elim⟩
  | drop hstack hempty =>
      refine ⟨_, .popChoice hstack fun w => ?_, fun _ _ => False.elim⟩
      rcases hempty with rfl | ⟨s, rfl⟩
      · cases w with
        | fact x => exact List.not_mem_nil
        | cursor r rest env => exact fun h => absurd h.1 List.not_mem_nil
      · cases w with
        | fact x => exact not_false
        | cursor r rest env =>
            rintro ⟨-, -, x, hx, -⟩
            exact absurd hx List.not_mem_nil
  | @retire f below hstack hread =>
      have hpop : Advances ctx (fun _ _ => False) (t.retire f) ((t.retire f).popChoice id) :=
        .popChoice hstack fun w => by cases w <;> exact not_false
      exact ⟨_, (Advances.retire t f).trans hpop (fun _ _ => rfl) h.linked, fun _ _ => False.elim⟩
  | pass ht =>
      refine ⟨_, Advances.takes h.linked ht, ?_⟩
      rintro j w ⟨-, hw⟩
      cases hw
  | land ht hl =>
      obtain ⟨hobeyed, hw⟩ := h.obeyed.takes h.linked ht
      obtain ⟨hadv, hnext, hdone⟩ := hl.covers hD (h.linked.takes ht)
        (h.recorded.takes ht) ((ht.isComplete_eq id).trans ht.isComplete) (ht.goal id ▸ hw _ rfl)
      refine ⟨_, (Advances.takes h.linked ht).trans hadv hnext h.linked, ?_⟩
      rintro j w ⟨rfl, hw'⟩
      cases hw'
      exact hdone

theorem move (hD : D.Repeats) (h : Upheld D t) {turn turn' : Option Turn}
    (hm : Move ctx t turn t' turn') : Upheld D t' := by
  rcases hm.settles_or_work h.linked with ⟨S, hclosed, hs⟩ | ⟨id, hw⟩
  · exact h.settles hclosed hs
  · obtain ⟨W, hadv, hW⟩ := h.advances hD hw
    exact ⟨h.linked.work hw, h.recorded.work hw, h.obeyed.work h.linked hw,
      hadv.covered h.linked hW h.covered, h.quiet.work h.linked hw⟩

theorem safe (hD : D.Steady) (h : Upheld D t) {id : GeneratorId} {r : CheckedRule}
    {rest : List Premise} {env : Bindings} (ht : Takes t id (some (.cursor r rest env)) t')
    (premises : List Triple) (fresh : Nat) (f : Fault) :
    (proceed ctx id (t.generator id).goal r rest env premises t' fresh).1 ≠ .fault f :=
  D.proceed_ne_fault hD ((h.obeyed.takes h.linked ht).2 _ rfl) premises t' fresh f

/-- A pump keeps all this until it comes to a fault, which is then one that a rule in progress was
heading for. -/
theorem sustained (hD : D.Repeats) {B : Prop}
    (hB : ∀ {g r b args rest env fresh f}, D.cursor g r (.call b args :: rest) env →
      (r.call b args env fresh).1 = .fault f → B) :
    Sustained ctx (fun t _ => Upheld D t) fun _ => B where
  enqueue t id h _ := h.settles (closed_nil t) (t.settles_enqueue id)
  move _ _ _ _ h hm := h.move hD hm
  fault _ _ _ _ _ _ _ _ _ h ht hfault := by
    obtain ⟨b, args, rest, env, fresh, hcursor, hcall⟩ :=
      D.exists_call_of_fault ((h.obeyed.takes h.linked ht).2 _ rfl) hfault
    exact hB hcursor hcall

theorem invariant (hD : D.Steady) (hgoal : ∀ g : Triple, D.goal g.normalize) :
    Invariant ctx fun t _ => Upheld D t where
  ask _ goal h := h.generatorFor goal (hgoal goal)
  enqueue t id h _ := h.settles (closed_nil t) (t.settles_enqueue id)
  move _ _ _ _ h hm := h.move hD.repeats hm
  safe _ _ _ _ _ _ premises fresh f h ht := h.safe hD ht premises fresh f

theorem reached (hD : D.Steady) (hgoal : ∀ g : Triple, D.goal g.normalize) (ht : Reached ctx t) :
    Upheld D t :=
  (invariant hD hgoal).reached (fun _ hblank => .blank hblank) ht

theorem not_offered {id : GeneratorId} (hc : (t.generator id).isComplete) (w : Way) :
    ¬ Offered t id w := by
  rintro ⟨c, hmem, -⟩
  rw [Generator.stack_of_isComplete hc] at hmem
  exact absurd hmem List.not_mem_nil

/-- A rule of a complete goal that has come to a tabled pattern has read all answers of the goal of
that pattern. -/
theorem reads_all (h : Upheld D t) {id : GeneratorId} (hc : (t.generator id).isComplete)
    {r : CheckedRule} {p : Triple} {rest : List Premise} {env : Bindings}
    (htabled : ctx.rules.isTabled (env.instantiate p))
    (hhandled : Handled ctx t id r (.pattern p :: rest) env) :
    ∃ target < t.size, (t.generator target).isComplete ∧
      (t.generator target).goal = (env.instantiate p).normalize ∧
        ∀ x ∈ (t.generator target).results, ∀ env', env.match? p x = some env' →
          Handled ctx t id r rest env' := by
  obtain ⟨f, hf, howner, premises, hcont⟩ := hhandled.1 htabled
  obtain ⟨htarget, hread⟩ := h.quiet f hf (.inr (by rw [howner]; exact hc))
  have hsub := h.linked.goal f hf
  rw [hcont] at hsub
  refine ⟨_, h.linked.target_lt f hf, htarget, hsub, fun x hx env' hmatch => ?_⟩
  obtain ⟨i, hi⟩ := Array.mem_iff_getElem?.mp hx
  have hlt : i < (t.frame f).nextResult := by
    obtain ⟨hsize, -⟩ := Array.getElem?_eq_some_iff.mp hi
    exact Nat.lt_of_lt_of_le hsize hread
  obtain ⟨y, hget, hdone⟩ := h.covered.read f hf i hlt
  rw [hi, Option.some.injEq] at hget
  subst hget
  rw [hcont, howner] at hdone
  exact hdone env' hmatch

theorem later_invariant (hD : D.Steady) (hgoal : ∀ g : Triple, D.goal g.normalize) (t₀ : Tables)
    (id : GeneratorId) : Invariant ctx fun t _ => Upheld D t ∧ Later t₀ id t :=
  (invariant hD hgoal).withLater (fun _ _ h => h.linked) t₀ id

end Upheld

end TripleRules.Tabling
