import TripleRules.Proofs.Forward.Deeds

/-!
# What the limit lets through

A limit on firings lets through as many completed bodies as it leaves room for, the first ones.
What firing comes to, its work, depends on nothing but earlier work, so that bodies which are handed
on at several times are fired as if they had been handed on all at once.
-/

namespace TripleRules.Forward.Engine

open Tabling (Cursor)

variable {d : Data} {e e' : Engine}

/-! ## Work -/

/-- What an engine has come to by firing.  What it has planned, the failures that it has noted and
whether it has met its limit are left out. -/
def work (e : Engine) : Engine :=
  { e with
    agenda := []
    failures := []
    stats := { e.stats with thresholdExceeded := false } }

theorem stats_of_exceeded (h : e.stats.thresholdExceeded = true) :
    e.stats = { e.work.stats with thresholdExceeded := true } := by
  have hstats : e.stats =
      { e.work.stats with thresholdExceeded := e.stats.thresholdExceeded } := rfl
  rwa [h] at hstats

def fireEach (d : Data) (fs : List Firing) (e : Engine) : Engine :=
  fs.foldl (fun e f => e.fire d f) e

theorem work_deduce (d : Data) (e : Engine) (f : Firing) (t : Triple) :
    (e.deduce d f t).work = (e.work.deduce d f t).work := by
  have hsources : e.work.sources d = e.sources d := rfl
  unfold deduce
  rw [hsources]
  split <;> rfl

theorem work_install (e : Engine) (r : Rule) (env : Bindings) :
    (e.install r env).work = (e.work.install r env).work := by
  have hbase : e.work.base = e.base := rfl
  have hinstalled : e.work.installed = e.installed := rfl
  unfold install
  rw [hbase, hinstalled]
  split
  · rfl
  · split <;> rfl

theorem work_conclude (h : e.work = e'.work) (f : Firing) (c : Conclusion) :
    (conclude d f e c).work = (conclude d f e' c).work := by
  cases c with
  | pattern p => rw [conclude, conclude, work_deduce d e, h, ← work_deduce d e']
  | rule r => rw [conclude, conclude, work_install e, h, ← work_install e']

theorem work_conclusions (h : e.work = e'.work) (f : Firing) (cs : List Conclusion) :
    (cs.foldl (conclude d f) e).work = (cs.foldl (conclude d f) e').work := by
  induction cs generalizing e e' with
  | nil => exact h
  | cons c cs ih => exact ih (work_conclude h f c)

def counted (e : Engine) : Engine :=
  { e with stats := { e.stats with firings := e.stats.firings + 1 } }

theorem work_counted (h : e.work = e'.work) : e.counted.work = e'.counted.work := by
  have hcounted : ∀ e : Engine, e.counted.work = e.work.counted := fun _ => rfl
  rw [hcounted, hcounted, h]

theorem work_fire (h : e.work = e'.work) (f : Firing) :
    (e.fire d f).work = (e'.fire d f).work :=
  work_conclusions (work_counted h) f f.rule.rule.head

theorem work_fireEach (h : e.work = e'.work) (fs : List Firing) :
    (e.fireEach d fs).work = (e'.fireEach d fs).work := by
  induction fs generalizing e e' with
  | nil => exact h
  | cons f fs ih => exact ih (work_fire h f)

theorem deduces_fireEach (d : Data) (fs : List Firing) (e : Engine) :
    ∃ ts, Deduces d e ts (e.fireEach d fs) ∧ (e.fireEach d fs).agenda = e.agenda ++ ts := by
  induction fs generalizing e with
  | nil => exact ⟨[], .refl e, (List.append_nil _).symm⟩
  | cons f fs ih =>
      obtain ⟨ts, h, hagenda⟩ := deduces_fire d e f
      obtain ⟨ts', h', hagenda'⟩ := ih (e.fire d f)
      refine ⟨ts ++ ts', h.trans h', ?_⟩
      rw [← List.append_assoc, ← hagenda]
      exact hagenda'

theorem deduces_of_pushed {ts : List Triple} {fs : List Firing}
    (h : (e.fireEach d fs).agenda = e.agenda ++ ts) : Deduces d e ts (e.fireEach d fs) := by
  obtain ⟨ts', hdeduces, hagenda⟩ := deduces_fireEach d fs e
  rwa [List.append_cancel_left (h.symm.trans hagenda)]

/-! ## Room -/

structure Fires (e : Engine) (n : Nat) (e' : Engine) : Prop where
  threshold : e'.threshold = e.threshold
  exceeded : e'.stats.thresholdExceeded = e.stats.thresholdExceeded
  firings : e'.stats.firings = e.stats.firings + n

theorem fires_conclude (e : Engine) (d : Data) (f : Firing) (c : Conclusion) :
    e.Fires 0 (conclude d f e c) := by
  have hrefl : e.Fires 0 e := ⟨rfl, rfl, rfl⟩
  cases c with
  | pattern p =>
      rw [conclude, deduce]
      split
      · exact hrefl
      · exact ⟨rfl, rfl, rfl⟩
  | rule r =>
      rw [conclude, install]
      split
      · exact ⟨rfl, rfl, rfl⟩
      · split
        · exact hrefl
        · exact ⟨rfl, rfl, rfl⟩

theorem fires_fire (e : Engine) (d : Data) (f : Firing) : e.Fires 1 (e.fire d f) := by
  refine List.foldlRecOn _ _ (motive := e.Fires 1) ⟨rfl, rfl, rfl⟩ fun e' h c _ => ?_
  have hc := fires_conclude e' d f c
  exact ⟨hc.threshold.trans h.threshold, hc.exceeded.trans h.exceeded, hc.firings.trans h.firings⟩

theorem fires_fireEach (e : Engine) (d : Data) (fs : List Firing) :
    e.Fires fs.length (e.fireEach d fs) := by
  induction fs generalizing e with
  | nil => exact ⟨rfl, rfl, rfl⟩
  | cons f fs ih =>
      have hf := fires_fire e d f
      have hfs := ih (e.fire d f)
      refine ⟨hfs.threshold.trans hf.threshold, hfs.exceeded.trans hf.exceeded, ?_⟩
      rw [fireEach, List.foldl_cons, ← fireEach, hfs.firings, hf.firings, List.length_cons]
      omega

/-- As many completed bodies as the limit leaves room for, the first ones. -/
def allowed (e : Engine) (fs : List Firing) : List Firing :=
  if e.threshold = 0 then fs else fs.take (e.threshold - e.stats.firings)

theorem atThreshold_iff (e : Engine) :
    e.atThreshold ↔ 0 < e.threshold ∧ e.threshold ≤ e.stats.firings := by
  rw [atThreshold, Bool.and_eq_true, decide_eq_true_eq, decide_eq_true_eq]

@[simp] theorem allowed_nil (e : Engine) : e.allowed [] = [] := by
  unfold allowed
  split
  · rfl
  · exact List.take_nil

theorem allowed_of_atThreshold (h : e.atThreshold) (fs : List Firing) : e.allowed fs = [] := by
  obtain ⟨hlimit, hfull⟩ := e.atThreshold_iff.mp h
  rw [allowed, if_neg (Nat.ne_of_gt hlimit), Nat.sub_eq_zero_of_le hfull, List.take_zero]

theorem allowed_append {fs gs : List Firing} (hthreshold : e'.threshold = e.threshold)
    (hfirings : e'.stats.firings = e.stats.firings + (e.allowed fs).length) :
    e.allowed (fs ++ gs) = e.allowed fs ++ e'.allowed gs := by
  unfold allowed at hfirings ⊢
  rw [hthreshold]
  split
  · rfl
  · rename_i hlimit
    rw [if_neg hlimit, List.length_take] at hfirings
    rw [List.take_append, hfirings]
    congr 2
    omega

theorem allowed_cons {f : Firing} {fs : List Firing} (h : ¬ e.atThreshold)
    (hf : e.Fires 1 e') : e.allowed (f :: fs) = f :: e'.allowed fs := by
  have hone : e.allowed [f] = [f] := by
    rw [atThreshold_iff, not_and, Nat.not_le] at h
    unfold allowed
    split
    · rfl
    · exact List.take_of_length_le (by simp only [List.length_singleton]; omega)
  have hroom : e'.stats.firings = e.stats.firings + (e.allowed [f]).length := by
    rw [hone]
    exact hf.firings
  have happend : e.allowed ([f] ++ fs) = e.allowed [f] ++ e'.allowed fs :=
    allowed_append hf.threshold hroom
  rwa [hone] at happend

theorem allowed_prefix (e : Engine) (fs : List Firing) : e.allowed fs <+: fs := by
  unfold allowed
  split
  · exact List.prefix_refl fs
  · exact List.take_prefix _ fs

theorem append_allowed_eq_iff {fs gs : List Firing} :
    e.allowed fs ++ e'.allowed gs = fs ++ gs ↔ e.allowed fs = fs ∧ e'.allowed gs = gs := by
  refine ⟨fun h => ?_, fun h => by rw [h.1, h.2]⟩
  have hlength := congrArg List.length h
  rw [List.length_append, List.length_append] at hlength
  have hfs := (e.allowed_prefix fs).length_le
  have hgs := (e'.allowed_prefix gs).length_le
  exact ⟨(e.allowed_prefix fs).eq_of_length (by omega),
    (e'.allowed_prefix gs).eq_of_length (by omega)⟩

theorem allowed_cons_eq_iff {f : Firing} {fs : List Firing} (h : ¬ e.atThreshold) :
    e.allowed (f :: fs) = f :: fs ↔ (e.fire d f).allowed fs = fs := by
  rw [allowed_cons h (fires_fire e d f), List.cons_inj_right]

def stopped (e : Engine) : Engine :=
  { e with stats := { e.stats with thresholdExceeded := true }, agenda := [] }

theorem fireAll_of_allowed_eq {fs : List Firing} (h : e.allowed fs = fs) :
    fireAll d fs e = (e.fireEach d fs, true) := by
  induction fs generalizing e with
  | nil => rfl
  | cons f fs ih =>
      have hroom : ¬ e.atThreshold := fun hlimit => by
        rw [allowed_of_atThreshold hlimit] at h
        cases h
      rw [fireAll, if_neg hroom]
      exact ih ((allowed_cons_eq_iff hroom).mp h)

theorem fireAll_of_allowed_ne {fs : List Firing} (h : e.allowed fs ≠ fs) :
    fireAll d fs e = ((e.fireEach d (e.allowed fs)).stopped, false) := by
  induction fs generalizing e with
  | nil => exact absurd e.allowed_nil h
  | cons f fs ih =>
      rw [fireAll]
      split
      · rename_i hlimit
        rw [allowed_of_atThreshold hlimit]
        rfl
      · rename_i hroom
        rw [ih ((allowed_cons_eq_iff hroom).not.mp h), allowed_cons hroom (fires_fire e d f)]
        rfl

/-- What is let through is fired, and the limit is met when something is not let through. -/
structure Admits (d : Data) (e : Engine) (fs : List Firing) (e' : Engine) : Prop where
  work : e'.work = (e.fireEach d (e.allowed fs)).work
  exceeded : e'.stats.thresholdExceeded ↔ e.stats.thresholdExceeded ∨ e.allowed fs ≠ fs

theorem admits_fireAll (d : Data) (fs : List Firing) (e : Engine) :
    Admits d e fs (fireAll d fs e).1 := by
  by_cases hall : e.allowed fs = fs
  · rw [fireAll_of_allowed_eq hall]
    refine ⟨?_, ?_⟩
    · rw [hall]
    · rw [(fires_fireEach e d fs).exceeded, hall]
      simp
  · rw [fireAll_of_allowed_ne hall]
    refine ⟨?_, ?_⟩
    · rfl
    · simp [stopped, hall]

theorem Admits.counts {fs : List Firing} (h : Admits d e fs e') :
    e'.threshold = e.threshold ∧
      e'.stats.firings = e.stats.firings + (e.allowed fs).length := by
  have hfires := fires_fireEach e d (e.allowed fs)
  have hthreshold := congrArg threshold h.work
  have hfirings := congrArg (·.stats.firings) h.work
  exact ⟨hthreshold.trans hfires.threshold, hfirings.trans hfires.firings⟩

theorem Admits.trans {e'' : Engine} {fs gs : List Firing} (h : Admits d e fs e')
    (h' : Admits d e' gs e'') : Admits d e (fs ++ gs) e'' := by
  have happend : e.allowed (fs ++ gs) = e.allowed fs ++ e'.allowed gs :=
    allowed_append h.counts.1 h.counts.2
  refine ⟨?_, ?_⟩
  · have hsplit : e.fireEach d (e.allowed fs ++ e'.allowed gs) =
        (e.fireEach d (e.allowed fs)).fireEach d (e'.allowed gs) := List.foldl_append
    rw [happend, hsplit, h'.work]
    exact work_fireEach h.work _
  · simp only [h'.exceeded, h.exceeded, happend, ne_eq, append_allowed_eq_iff, not_and_or,
      or_assoc]

theorem Admits.of_work (hwork : e'.work = e.work)
    (hexceeded : e'.stats.thresholdExceeded = e.stats.thresholdExceeded) :
    Admits d e [] e' := by
  refine ⟨?_, ?_⟩
  · rw [allowed_nil]
    exact hwork
  · rw [hexceeded, allowed_nil]
    simp

theorem entered_of_allowed_eq {c : Cursor} {fresh : Nat}
    (hfault : (e.matching d c fresh).fault = none)
    (hall : e.allowed (e.matching d c fresh).firings = (e.matching d c fresh).firings) :
    e.entered d c fresh =
      ⟨(e.noting (e.matching d c fresh).failures).fireEach d (e.matching d c fresh).firings,
        (e.matching d c fresh).fresh, none⟩ := by
  rw [entered_of_none hfault]
  rw [fireAll_of_allowed_eq (e := e.noting _) hall]

theorem entered_of_allowed_ne {c : Cursor} {fresh : Nat}
    (hfault : (e.matching d c fresh).fault = none)
    (hcut : e.allowed (e.matching d c fresh).firings ≠ (e.matching d c fresh).firings) :
    e.entered d c fresh =
      ⟨((e.noting (e.matching d c fresh).failures).fireEach d
          (e.allowed (e.matching d c fresh).firings)).stopped,
        (e.matching d c fresh).fresh, none⟩ := by
  rw [entered_of_none hfault]
  rw [fireAll_of_allowed_ne (e := e.noting _) hcut]
  rfl

theorem admits_entered {c : Cursor} {fresh : Nat} (h : (e.matching d c fresh).fault = none) :
    Admits d e (e.matching d c fresh).firings (e.entered d c fresh).engine := by
  rw [entered_of_none h]
  have hnoted : Admits d e [] (e.noting (e.matching d c fresh).failures) := .of_work rfl rfl
  exact hnoted.trans (admits_fireAll d _ _)

/-- Of the bodies that are completed, as many are fired as the limit leaves room for. -/
theorem Proceeds.admits {start : Nat} {w : Deeds} {o : Outcome} (h : Proceeds d e start w o) :
    Admits d e w.completed o.engine := by
  induction h with
  | start => exact .of_work rfl rfl
  | assert _ ts ih => exact ⟨ih.work, ih.exceeded⟩
  | pop _ _ ih => exact ⟨ih.work, ih.exceeded⟩
  | drop _ _ ih => exact ⟨ih.work, ih.exceeded⟩
  | enter _ _ hfault _ ih => exact ih.trans (admits_entered hfault)
  | broken _ _ hfault ih =>
      obtain ⟨f, hf⟩ := Option.ne_none_iff_exists'.mp hfault
      rw [entered_of_some hf]
      exact ⟨ih.work, ih.exceeded⟩

end TripleRules.Forward.Engine
