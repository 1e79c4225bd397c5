import TripleRules.Forward.Matching
import TripleRules.Proofs.Builtin.Ground
import TripleRules.Tabling.Engine

/-!
# Outcomes of calls

A builtin that holds gives values for argument positions.  The call holds just when some bindings
take all of them, and then it goes on with bindings that do; it never goes on with a part of them.
A call that fails leaves no trace, one that breaks off leaves one note, and a fatal error leaves
none and ends the reasoning.
-/

namespace TripleRules

variable {args : List Term} {values : List (Nat × Term)}

namespace Bindings

variable {env b b' next : Bindings} {i : Nat} {value : Term}

/-- Bindings that keep others and take values for argument positions: the argument at each position
has the value, and no slot is bound besides but those of variables that stand at a position. -/
structure Takes (env : Bindings) (args : List Term) (values : List (Nat × Term))
    (next : Bindings) : Prop where
  keeps : env.Keeps next
  adds : ∀ i t, next.Has i t →
    env.Has i t ∨ ∃ v, v.slot = i ∧ ∃ x ∈ values, args[x.1]? = some (.var v)
  takes : ∀ x ∈ values, ∃ a, args[x.1]? = some a ∧ next.resolve a = x.2

/-- No position holds a compound term that still has a variable in it. -/
def Closed (resolved : List Term) (values : List (Nat × Term)) : Prop :=
  ∀ x ∈ values, ∀ f ts, resolved[x.1]? = some (.compound f ts) → (Term.compound f ts).isGround

/-! ## Taking values -/

theorem takes_nil (env : Bindings) (args : List Term) : env.Takes args [] env where
  keeps _ _ ht := ht
  adds _ _ ht := .inl ht
  takes _ hx := absurd hx List.not_mem_nil

theorem Takes.cons_bind {v : Variable} (h : b'.Takes args values next)
    (hi : args[i]? = some (.var v)) (hvalue : value.isGround) (hbind : b.bind v value = .ok b') :
    b.Takes args ((i, value) :: values) next := by
  obtain ⟨hext, hhas⟩ := bind_ok hvalue hbind
  refine ⟨fun j t ht => h.keeps j t (hext.keeps j t ht), fun j t ht => ?_, fun x hx => ?_⟩
  · rcases h.adds j t ht with ht | ⟨w, hw, x, hx, harg⟩
    · rcases hext.adds j t ht with ht | ⟨-, w, hw, hj⟩
      · exact .inl ht
      · obtain rfl := List.mem_singleton.mp hw
        exact .inr ⟨w, hj, (i, value), List.mem_cons_self, hi⟩
    · exact .inr ⟨w, hw, x, List.mem_cons_of_mem _ hx, harg⟩
  · rcases List.mem_cons.mp hx with rfl | hx
    · exact ⟨.var v, hi, (h.keeps _ _ hhas).resolve_eq⟩
    · exact h.takes x hx

theorem Takes.cons_same {a : Term} (h : b.Takes args values next) (hi : args[i]? = some a)
    (ha : b.resolve a = value) (hvalue : value.isGround) :
    b.Takes args ((i, value) :: values) next := by
  refine ⟨h.keeps, fun j t ht => ?_, fun x hx => ?_⟩
  · refine (h.adds j t ht).imp_right ?_
    rintro ⟨w, hw, x, hx, harg⟩
    exact ⟨w, hw, x, List.mem_cons_of_mem _ hx, harg⟩
  · rcases List.mem_cons.mp hx with rfl | hx
    · exact ⟨a, hi, (h.keeps.resolve_eq (ha ▸ hvalue)).trans ha⟩
    · exact h.takes x hx

theorem takes_of_accept (henv : env.Values (·.isGround)) (hkeeps : env.Keeps b)
    (hvalues : ∀ x ∈ values, x.2.isGround)
    (h : b.accept (args.map env.resolve) values = some next) :
    b.Takes args values next := by
  induction values generalizing b with
  | nil =>
      cases h
      exact takes_nil _ args
  | cons x values ih =>
      obtain ⟨i, value⟩ := x
      have hvalue : value.isGround := hvalues _ List.mem_cons_self
      have hrest : ∀ y ∈ values, y.2.isGround := fun y hy => hvalues y (List.mem_cons_of_mem _ hy)
      rcases accept_cons_iff.mp h with ⟨v, b', hi, hbind, h⟩ | ⟨hi, -, h⟩
      · rw [List.getElem?_map, Option.map_eq_some_iff] at hi
        obtain ⟨a, hi, hv⟩ := hi
        obtain rfl := (eq_var_of_resolve_eq henv hv).1
        have hext := (bind_ok hvalue hbind).1
        exact (ih (fun j t ht => hext.keeps j t (hkeeps j t ht)) hrest h).cons_bind hi hvalue hbind
      · rw [List.getElem?_map, Option.map_eq_some_iff] at hi
        obtain ⟨a, hi, ha⟩ := hi
        have hb : b.resolve a = value := (hkeeps.resolve_eq (ha ▸ hvalue)).trans ha
        exact (ih hkeeps hrest h).cons_same hi hb hvalue

/-- Values that some bindings have for the arguments are accepted.  Whatever is bound on the way
agrees with those bindings, so no variable is bound to anything else before. -/
theorem exists_accept (henv : env.Values (·.isGround)) (hkeeps : env.Keeps b)
    (hslots : ∀ a ∈ args, ∀ v ∈ a.occurrences, v.slot < b.size)
    (hvalues : ∀ x ∈ values, x.2.isGround) (hclosed : Closed (args.map env.resolve) values)
    (hnext : env.Keeps next)
    (htakes : ∀ x ∈ values, ∃ a, args[x.1]? = some a ∧ next.resolve a = x.2)
    (hagr : b.Agrees next.filled) : ∃ c, b.accept (args.map env.resolve) values = some c := by
  induction values generalizing b with
  | nil => exact ⟨b, rfl⟩
  | cons x values ih =>
      obtain ⟨i, value⟩ := x
      have hvalue : value.isGround := hvalues _ List.mem_cons_self
      have ih := fun c hc hs => ih (b := c) hc hs
        (fun y hy => hvalues y (List.mem_cons_of_mem _ hy))
        (fun y hy => hclosed y (List.mem_cons_of_mem _ hy))
        (fun y hy => htakes y (List.mem_cons_of_mem _ hy))
      obtain ⟨a, hi, ha⟩ := htakes _ List.mem_cons_self
      have hresolved : (args.map env.resolve)[i]? = some (env.resolve a) := by
        rw [List.getElem?_map, hi, Option.map_some]
      by_cases hground : (env.resolve a).isGround
      · have hsame : env.resolve a = value := (hnext.resolve_eq hground).symm.trans ha
        obtain ⟨c, h⟩ := ih b hkeeps hslots hagr
        exact ⟨c, accept_cons_iff.mpr (.inr ⟨hsame ▸ hresolved, Term.isVar_of_isGround hvalue, h⟩)⟩
      · obtain ⟨v, hv⟩ : ∃ v, env.resolve a = .var v := by
          cases hr : env.resolve a with
          | var v => exact ⟨v, rfl⟩
          | compound f ts =>
              rw [hr] at hground hresolved
              exact absurd (hclosed _ List.mem_cons_self f ts hresolved) hground
          | _ => rw [hr] at hground; exact absurd rfl hground
        obtain rfl := (eq_var_of_resolve_eq henv hv).1
        have hslot : v.slot < b.size :=
          hslots _ (List.mem_of_getElem? hi) v (List.mem_singleton_self v)
        have hfilled : value = next.filled v.slot :=
          next.agrees_filled _ _ (has_of_resolve_eq ha hvalue)
        obtain ⟨c, hbind, hc⟩ := bind_agrees hagr hslot
        rw [← hfilled] at hbind
        have hext := (bind_ok hvalue hbind).1
        obtain ⟨c', h⟩ := ih c (fun j t ht => hext.keeps j t (hkeeps j t ht))
          (hext.size_eq ▸ hslots) hc
        exact ⟨c', accept_cons_iff.mpr (.inl ⟨v, c, hv ▸ hresolved, hbind, h⟩)⟩

/-- Ground values are accepted just when some bindings take them. -/
theorem exists_accept_iff (henv : env.Values (·.isGround))
    (hslots : ∀ a ∈ args, ∀ v ∈ a.occurrences, v.slot < env.size)
    (hvalues : ∀ x ∈ values, x.2.isGround) (hclosed : Closed (args.map env.resolve) values) :
    (∃ next, env.accept (args.map env.resolve) values = some next) ↔
      ∃ next, env.Takes args values next := by
  constructor
  · rintro ⟨next, h⟩
    exact ⟨next, takes_of_accept henv (fun _ _ ht => ht) hvalues h⟩
  · rintro ⟨next, h⟩
    exact exists_accept henv (fun _ _ ht => ht) hslots hvalues hclosed h.keeps h.takes
      fun i t ht => next.agrees_filled i t (h.keeps i t ht)

end Bindings

/-! ## Calls -/

/-- What a call leads to, given what the builtin answers to its arguments. -/
structure CheckedRule.Settles (r : CheckedRule) (b : Builtin) (args : List Term) (env : Bindings)
    (given : Except BuiltinError Answer) (result : CallResult) : Prop where
  /-- The reasoning goes on only with bindings that take all the values, in the same slots. -/
  holds : ∀ next, result = .holds next → next.size = env.size ∧
    ∃ values, given = .ok (.holds values) ∧ env.Takes args values next
  /-- A call fails, with nothing noted, just if the builtin fails or no bindings take its values. -/
  fails : result = .fails ↔ given = .ok .fails ∨
    ∃ values, given = .ok (.holds values) ∧ ¬ ∃ next, env.Takes args values next
  /-- An error that is not fatal is noted. -/
  noted : ∀ f, result = .noted f ↔ ∃ e, given = .error e ∧ e.isFatal = false ∧
    f = ⟨r.rule.label, b.name, e.message⟩
  /-- A fatal error is a fault. -/
  fault : ∀ f, result = .fault f ↔ ∃ e, given = .error e ∧ e.isFatal = true ∧
    f = .builtinFailed r.rule.label b.name e

/-- Ground values settle the call: it holds if they are accepted, and then some bindings take all of
them. -/
theorem CheckedRule.settles_outcome {b : Builtin} {env : Bindings}
    {given : Except BuiltinError Answer} (r : CheckedRule) (henv : env.Values (·.isGround))
    (hslots : ∀ a ∈ args, ∀ v ∈ a.occurrences, v.slot < env.size)
    (hgiven : ∀ values, given = .ok (.holds values) → (∀ x ∈ values, x.2.isGround) ∧
      Bindings.Closed (args.map env.resolve) values) :
    r.Settles b args env given (r.outcome b args env given) where
  holds next h := by
    obtain ⟨values, hvalues, haccept⟩ := outcome_holds_iff.mp h
    have hground := (hgiven values hvalues).1
    exact ⟨(Bindings.accept_extends hground haccept).size_eq, values, hvalues,
      Bindings.takes_of_accept henv (fun _ _ ht => ht) hground haccept⟩
  fails := by
    rw [outcome_fails_iff]
    refine or_congr_right (exists_congr fun values => and_congr_right fun hvalues => ?_)
    obtain ⟨hground, hclosed⟩ := hgiven values hvalues
    rw [← Bindings.exists_accept_iff henv hslots hground hclosed, ← Option.isSome_iff_exists,
      Option.not_isSome_iff_eq_none]
  noted _ := outcome_noted_iff
  fault _ := outcome_fault_iff

/-! ## What the engines note -/

def CallResult.failures : CallResult → List BuiltinFailure
  | .noted f => [f]
  | _ => []

def CallResult.fault? : CallResult → Option Fault
  | .fault f => some f
  | _ => none

/-- A call that does not hold ends the matching of a body.  All it leaves are its failures, its
fault and the nodes that were minted. -/
theorem Forward.complete_of_not_holds {sources : Sources} {r : CheckedRule} {b : Builtin}
    {env : Bindings} {m : Matching} (h : ∀ next, (r.call b args env m.fresh).1 ≠ .holds next)
    (record : Bool) (rest : List Premise) (premises : List Triple) :
    complete sources r record (.call b args :: rest) env premises m =
      { m with
        fresh := (r.call b args env m.fresh).2
        failures := m.failures ++ (r.call b args env m.fresh).1.failures
        fault := (r.call b args env m.fresh).1.fault?.or m.fault } := by
  rcases hcall : r.call b args env m.fresh with ⟨result, n⟩
  rw [hcall] at h
  simp only [complete, hcall]
  cases result with
  | holds next => exact absurd rfl (h next)
  | fails => simp [CallResult.failures, CallResult.fault?]
  | noted f => simp [CallResult.failures, CallResult.fault?]
  | fault f => simp [CallResult.failures, CallResult.fault?]

/-- A call that does not hold ends a rule that proves a goal.  All it leaves in the tables are its
failures. -/
theorem Tabling.proceed_of_not_holds {ctx : Context} {r : CheckedRule} {b : Builtin}
    {env : Bindings} {fresh : Nat} (h : ∀ next, (r.call b args env fresh).1 ≠ .holds next)
    (id : GeneratorId) (goal : Triple) (rest : List Premise) (premises : List Triple) (t : Tables) :
    proceed ctx id goal r (.call b args :: rest) env premises t fresh =
      (((r.call b args env fresh).1.fault?.map .fault).getD .nothing,
        { t with failures := t.failures ++ (r.call b args env fresh).1.failures },
        (r.call b args env fresh).2) := by
  rcases hcall : r.call b args env fresh with ⟨result, n⟩
  rw [hcall] at h
  simp only [proceed, hcall]
  cases result with
  | holds next => exact absurd rfl (h next)
  | fails => simp [CallResult.failures, CallResult.fault?]
  | noted f => simp [CallResult.failures, CallResult.fault?]
  | fault f => simp [CallResult.failures, CallResult.fault?]

/-- Whatever ground values a builtin gives, a call goes on with bindings that take all of them, and
fails only if there are none such.  Errors that are not fatal are noted once by either engine, and a
fatal one is a fault. -/
theorem CheckedRule.call_settles {r : CheckedRule} {b : Builtin} {env : Bindings} {fresh : Nat}
    (henv : env.Values (·.isGround))
    (hslots : ∀ a ∈ args, ∀ v ∈ a.occurrences, v.slot < env.size)
    (hgiven : ∀ values, (b.run (args.map env.resolve) fresh).1 = .ok (.holds values) →
      (∀ x ∈ values, x.2.isGround) ∧ Bindings.Closed (args.map env.resolve) values) :
    r.Settles b args env (b.run (args.map env.resolve) fresh).1 (r.call b args env fresh).1 ∧
    (∀ f, (r.call b args env fresh).1 = .fault f → f.code = .builtinFailed) ∧
    ((∀ next, (r.call b args env fresh).1 ≠ .holds next) →
      (∀ (sources : Sources) record rest premises (m : Forward.Matching), m.fresh = fresh →
        (Forward.complete sources r record (.call b args :: rest) env premises m).failures =
          m.failures ++ (r.call b args env fresh).1.failures) ∧
      ∀ (ctx : Tabling.Context) id goal rest premises t,
        (Tabling.proceed ctx id goal r (.call b args :: rest) env premises t fresh).2.1.failures =
          t.failures ++ (r.call b args env fresh).1.failures) := by
  have hsettles : r.Settles b args env (b.run (args.map env.resolve) fresh).1
      (r.call b args env fresh).1 := by
    rw [call_eq]
    exact settles_outcome r henv hslots hgiven
  refine ⟨hsettles, fun f hf => ?_, fun hends => ⟨?_, ?_⟩⟩
  · obtain ⟨e, -, -, rfl⟩ := (hsettles.fault f).mp hf
    rfl
  · rintro sources record rest premises m rfl
    rw [Forward.complete_of_not_holds hends]
  · intro ctx id goal rest premises t
    rw [Tabling.proceed_of_not_holds hends]

/-! ## An instance -/

def nameBoth : Builtin :=
  .ofFun "nameBoth" (.exactly 2) fun _ =>
    .ok (.holds [(0, .plain "one"), (1, .plain "two"), (0, .plain "one")])

def namedRule : CheckedRule :=
  ⟨.make
      [.pattern ⟨.named "x", .iri "pairs", .named "y"⟩, .call "nameBoth" [.named "m", .named "n"]]
      [.pattern ⟨.named "m", .iri "pairs", .named "n"⟩] .forward,
    [.pattern ⟨.var ⟨"x", 0⟩, .iri "pairs", .var ⟨"y", 1⟩⟩,
      .call nameBoth [.var ⟨"m", 2⟩, .var ⟨"n", 3⟩]]⟩

/-- Two variables take the names, and one variable cannot take both. -/
theorem namedRule_call_settles :
    (∃ next, (namedRule.call nameBoth [.var ⟨"m", 2⟩, .var ⟨"n", 3⟩] (.empty 4) 0).1 =
        .holds next ∧ next.resolve (.var ⟨"m", 2⟩) = .plain "one" ∧
          next.resolve (.var ⟨"n", 3⟩) = .plain "two") ∧
      (namedRule.call nameBoth [.var ⟨"m", 2⟩, .var ⟨"m", 2⟩] (.empty 4) 0).1 = .fails := by
  have hground : (Bindings.empty 4).Values (·.isGround) := Bindings.values_empty 4 _
  have hgiven : ∀ v w : Variable, ∀ values,
      (nameBoth.run ([.var v, .var w].map (Bindings.empty 4).resolve) 0).1 =
        .ok (.holds values) → (∀ x ∈ values, x.2.isGround) ∧
          Bindings.Closed ([.var v, .var w].map (Bindings.empty 4).resolve) values := by
    rintro v w _ ⟨⟩
    refine ⟨by decide, fun x hx f ts hi => ?_⟩
    simp only [List.map_cons, List.map_nil, Bindings.resolve_var_empty] at hi
    simp only [List.mem_cons, List.not_mem_nil, or_false] at hx
    rcases hx with rfl | rfl | rfl <;> cases hi
  obtain ⟨hboth, -⟩ := CheckedRule.call_settles (r := namedRule) hground (by decide)
    (hgiven ⟨"m", 2⟩ ⟨"n", 3⟩)
  obtain ⟨hsame, -⟩ := CheckedRule.call_settles (r := namedRule) hground (by decide)
    (hgiven ⟨"m", 2⟩ ⟨"m", 2⟩)
  refine ⟨⟨_, rfl, ?_⟩, hsame.fails.mpr (.inr ⟨_, rfl, ?_⟩)⟩
  · obtain ⟨-, _, ⟨⟩, htakes⟩ := hboth.holds _ rfl
    obtain ⟨_, ⟨⟩, hone⟩ := htakes.takes (0, .plain "one") (by decide)
    obtain ⟨_, ⟨⟩, htwo⟩ := htakes.takes (1, .plain "two") (by decide)
    exact ⟨hone, htwo⟩
  · rintro ⟨next, htakes⟩
    obtain ⟨_, ⟨⟩, hone⟩ := htakes.takes (0, .plain "one") (by decide)
    obtain ⟨_, ⟨⟩, htwo⟩ := htakes.takes (1, .plain "two") (by decide)
    exact absurd (hone.symm.trans htwo) (by decide)

end TripleRules
