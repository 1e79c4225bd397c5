import TripleRules.Proofs.Forward.Trace

/-!
# The limit on firings

A limit on firings lets through as many completed bodies as it leaves room for, and no other.  The
first body that it does not let through ends chaining, and an engine that has met its limit never
fires again, however often it is called and however those calls end.  Main statement:
`limit_exact`.
-/

namespace TripleRules.Forward.Engine

variable {d : Data} {e e' : Engine}

/-- An engine that was called any number of times, whether or not the calls failed.  The data may be
others in every call. -/
inductive Used (b : RuleBase) (settings : ReasoningSettings) (installed : RuleSet) :
    Engine → Prop where
  | new : Used b settings installed (.new b settings installed)
  | call {e : Engine} (h : Used b settings installed e) {c : Call} {fuel : Nat} {d : Data}
      {fresh : Nat} {o : Outcome} (ho : e.call c fuel d fresh = some o) :
      Used b settings installed o.engine

/-- An engine has counted what it deduced and keeps to its limit on firings. -/
structure Limited (e : Engine) (limit : Nat) : Prop where
  threshold : e.threshold = limit
  deductions : e.stats.deductions = e.deductions.size
  firings : 0 < limit → e.stats.firings ≤ limit
  exceeded : e.stats.thresholdExceeded → 0 < limit ∧ e.stats.firings = limit

variable {limit : Nat}

theorem Limited.length_allowed (h : e.Limited limit) (hlimit : 0 < limit) (fs : List Firing) :
    e.stats.firings + (e.allowed fs).length ≤ limit ∧
      (e.allowed fs ≠ fs → e.stats.firings + (e.allowed fs).length = limit) := by
  have hfirings := h.firings hlimit
  have hne : e.threshold ≠ 0 := by rw [h.threshold]; exact Nat.ne_of_gt hlimit
  rw [allowed, if_neg hne, h.threshold, List.length_take]
  refine ⟨by omega, fun hcut => ?_⟩
  have hlength : limit - e.stats.firings < fs.length := by
    by_contra hge
    exact hcut (List.take_of_length_le (by omega))
  omega

theorem Limited.pos_of_allowed_ne (h : e.Limited limit) {fs : List Firing}
    (hfs : e.allowed fs ≠ fs) : 0 < limit := by
  by_contra hzero
  exact hfs (by rw [allowed, h.threshold, if_pos (by omega)])

theorem Limited.proceeds {start : Nat} {w : Deeds} {o : Outcome} (h : e.Limited limit)
    (hw : Proceeds d e start w o) : o.engine.Limited limit := by
  obtain ⟨ts, hdeduces, -⟩ := hw.deduces
  have hadmits := hw.admits
  obtain ⟨hthreshold, hfirings⟩ := hadmits.counts
  refine ⟨hthreshold.trans h.threshold, ?_, fun hlimit => ?_, fun hexceeded => ?_⟩
  · rw [hdeduces.count, h.deductions, Store.size, Store.size, hdeduces.deductions,
      List.length_append]
  · rw [hfirings]
    exact (h.length_allowed hlimit w.completed).1
  · rw [hfirings]
    rcases hadmits.exceeded.mp hexceeded with hold | hcut
    · obtain ⟨hlimit, hfull⟩ := h.exceeded hold
      have hroom := (h.length_allowed hlimit w.completed).1
      exact ⟨hlimit, by omega⟩
    · have hlimit := h.pos_of_allowed_ne hcut
      exact ⟨hlimit, (h.length_allowed hlimit w.completed).2 hcut⟩

/-- An engine that has met its limit lets nothing through. -/
theorem Limited.allowed_of_exceeded (h : e.Limited limit) (hexceeded : e.stats.thresholdExceeded)
    (fs : List Firing) : e.allowed fs = [] := by
  obtain ⟨hlimit, hfull⟩ := h.exceeded hexceeded
  refine allowed_of_atThreshold (e.atThreshold_iff.mpr ?_) fs
  rw [h.threshold, hfull]
  exact ⟨hlimit, Nat.le_refl _⟩

section Used

variable {b : RuleBase} {settings : ReasoningSettings} {installed : RuleSet}

theorem Used.limited (h : Used b settings installed e) :
    e.Limited settings.ruleThreshold := by
  induction h with
  | new => exact ⟨rfl, rfl, fun _ => Nat.zero_le _, fun h => by cases h⟩
  | call _ ho ih =>
      obtain ⟨w, hw⟩ := exists_performs ho
      exact ih.proceeds hw.proceeds

/-- An engine counts what it deduces, and fires as many completed bodies as its limit leaves room
for, in the order in which they are completed.  A call has one trace; it says that the limit is met
just when a body which is completed in it is left out.  By then as many have been fired as the limit
says, and no later call does any work. -/
theorem limit_exact (h : Used b settings installed e) :
    e.stats.deductions = e.deductions.size ∧
      (0 < settings.ruleThreshold → e.stats.firings ≤ settings.ruleThreshold) ∧
      (e.stats.thresholdExceeded →
        0 < settings.ruleThreshold ∧ e.stats.firings = settings.ruleThreshold) ∧
      ∀ (c : Call) (fuel : Nat) (d : Data) (fresh : Nat) (o : Outcome),
        e.call c fuel d fresh = some o →
          ∃ w, Performs d e fresh c w o ∧
            (∀ w' o', Performs d e fresh c w' o' → w' = w ∧ o' = o) ∧
            o.engine.work = (e.fireEach d (e.allowed w.completed)).work ∧
            (o.engine.stats.thresholdExceeded ↔
              e.stats.thresholdExceeded ∨ e.allowed w.completed ≠ w.completed) ∧
            (o.engine.stats.thresholdExceeded = false →
              o.engine.work = (e.fireEach d w.completed).work) ∧
            (e.stats.thresholdExceeded →
              o.engine.stats = e.stats ∧ o.engine.deductions = e.deductions ∧
                o.engine.installed = e.installed ∧ o.engine.log = e.log) := by
  have hlimited := h.limited
  refine ⟨hlimited.deductions, hlimited.firings, hlimited.exceeded, fun c fuel d fresh o ho => ?_⟩
  obtain ⟨w, hw⟩ := exists_performs ho
  have hadmits := hw.proceeds.admits
  refine ⟨w, hw, fun _ _ hw' => hw'.unique hw, hadmits.work, hadmits.exceeded, fun hgoes => ?_,
    fun hexceeded => ?_⟩
  · have hall : e.allowed w.completed = w.completed := by
      by_contra hcut
      have hmet := hadmits.exceeded.mpr (.inr hcut)
      rw [hgoes] at hmet
      cases hmet
    rw [hadmits.work, hall]
  · have hwork : o.engine.work = e.work := by
      rw [hadmits.work, hlimited.allowed_of_exceeded hexceeded]
      rfl
    -- The work leaves out whether the limit is met, but it was before and is now.
    have hstats : o.engine.stats = e.stats := by
      rw [stats_of_exceeded (hadmits.exceeded.mpr (.inl hexceeded)), hwork,
        ← stats_of_exceeded hexceeded]
    exact ⟨hstats, congrArg (·.deductions) hwork, congrArg (·.installed) hwork,
      congrArg (·.log) hwork⟩

end Used

/-! ## An instance -/

def successorRule : Rule :=
  .make [.pattern ⟨.named "x", .iri "next", .named "y"⟩]
    [.pattern ⟨.named "y", .iri "next", .compound "successor" [.named "y"]⟩] .forward

def successor : CheckedRule :=
  ⟨successorRule, [.pattern ⟨.var ⟨"x", 0⟩, .iri "next", .var ⟨"y", 1⟩⟩]⟩

theorem check_successorRule : successorRule.check .standard = .ok successor := by rfl

def countingBase : RuleBase := (RuleBase.empty .standard).add successor

def countingData : Data where
  raw := .ofList [⟨.iri "zero", .iri "next", .iri "one"⟩]
  schema := .empty

def counting : Engine := .new countingBase { ruleThreshold := 3 } .empty

/-- The rule counts to the limit.  One more body is completed and left out, and then nothing happens
any more. -/
theorem counting_limited : successorRule.check .standard = .ok successor ∧
    ∃ o w, counting.call .run 10 countingData 0 = some o ∧
      Performs countingData counting 0 .run w o ∧ 3 < w.completed.length ∧
      o.engine.stats = ⟨3, 3, 0, true⟩ ∧
      Used countingBase { ruleThreshold := 3 } .empty o.engine ∧
      ∀ (c : Call) (fuel : Nat) (d : Data) (fresh : Nat) (o' : Outcome),
        o.engine.call c fuel d fresh = some o' →
          o'.engine.stats = ⟨3, 3, 0, true⟩ ∧ o'.engine.deductions = o.engine.deductions := by
  have hrun : (counting.call .run 10 countingData 0).any
      fun o => o.engine.stats = ⟨3, 3, 0, true⟩ := by
    decide +kernel
  rw [Option.any_eq_true] at hrun
  obtain ⟨o, ho, hstats⟩ := hrun
  rw [decide_eq_true_eq] at hstats
  obtain ⟨-, -, -, hfirst⟩ := limit_exact (.new (b := countingBase))
  obtain ⟨w, hw, -, -, hmet, -⟩ := hfirst .run 10 countingData 0 o ho
  have hused : Used countingBase { ruleThreshold := 3 } .empty o.engine := .call .new ho
  obtain ⟨-, -, -, hlater⟩ := limit_exact hused
  refine ⟨check_successorRule, o, w, ho, hw, ?_, hstats, hused, fun c fuel d fresh o' ho' => ?_⟩
  · rw [hstats] at hmet
    have hcut : w.completed.take 3 ≠ w.completed := (hmet.mp rfl).resolve_left Bool.false_ne_true
    by_contra hshort
    exact hcut (List.take_of_length_le (Nat.not_lt.mp hshort))
  · obtain ⟨-, -, -, -, -, -, hdone⟩ := hlater c fuel d fresh o' ho'
    obtain ⟨hsame, hdeductions, -⟩ := hdone (by rw [hstats])
    exact ⟨hsame.trans hstats, hdeductions⟩

end TripleRules.Forward.Engine
