import TripleRules.Proofs.Builtin.Tests

/-!
# Values and positions

Whatever the arguments of a standard builtin, bound or not, it gives ground values and nothing else,
and it gives them to arguments that are there.  On a number of arguments that it accepts, an error
is about an argument that is there, too.
-/

namespace TripleRules

def BuiltinError.index? : BuiltinError → Option Nat
  | unbound i | type i .. => some i
  | arithmetic _ | fatal _ => none

namespace Builtin

/-- Whatever the arguments, the values that a call gives to them are ground. -/
def Grounds (b : Builtin) : Prop :=
  ∀ args fresh bindings, (b.run args fresh).1 = .ok (.holds bindings) →
    ∀ x ∈ bindings, x.2.isGround

/-- On a number of arguments that it accepts, a builtin gives values to arguments that are there,
and its errors are about such arguments.  If it takes just so many, it does not look for more. -/
structure StaysWithin (b : Builtin) : Prop where
  values : ∀ args fresh bindings, b.arity.accepts args.length →
    (b.run args fresh).1 = .ok (.holds bindings) → ∀ x ∈ bindings, x.1 < args.length
  errors : ∀ args fresh e, b.arity.accepts args.length →
    (b.run args fresh).1 = .error e → ∀ i ∈ e.index?, i < args.length
  looks : ∀ n args fresh more, b.arity = .exactly n → args.length = n →
    b.run (args ++ more) fresh = b.run args fresh

/-! ## Answers -/

def Fits (args : List Term) : Answer → Prop
  | .fails => True
  | .holds bindings => ∀ x ∈ bindings, x.1 < args.length ∧ x.2.isGround

def Answered (args : List Term) (x : Except BuiltinError Answer) : Prop :=
  ∀ a, x = .ok a → Fits args a

variable {args : List Term} {α β : Type}

theorem answered_ok {a : Answer} (h : Fits args a) : Answered args (.ok a) := by
  rintro _ ⟨⟩
  exact h

theorem fits_ofBool (b : Bool) : Fits args (.ofBool b) := by
  cases b
  · trivial
  · exact fun _ hx => absurd hx List.not_mem_nil

theorem fits_bindOrCheck (i : Nat) {value : Term} (hvalue : value.isGround) :
    Fits args (bindOrCheck args i value) := by
  unfold bindOrCheck
  split
  · trivial
  · rename_i v hv
    intro x hx
    rw [List.mem_singleton.mp hx]
    exact ⟨(List.getElem?_eq_some_iff.mp hv).1, hvalue⟩
  · exact fits_ofBool _

theorem fits_bindGroups (g : Nat → Option String) (is : List Nat) :
    Fits args (bindGroups args g is) := by
  induction is with
  | nil => exact fun _ hx => absurd hx List.not_mem_nil
  | cons i is ih =>
      have hfirst : Fits args (bindOrCheck args i (.plain ((g (i - 1)).getD ""))) :=
        fits_bindOrCheck i rfl
      rw [bindGroups]
      split
      · trivial
      · rename_i bs heq
        rw [heq] at hfirst
        split
        · trivial
        · rename_i more heq'
          rw [heq'] at ih
          intro x hx
          exact (List.mem_append.mp hx).elim (hfirst x) (ih x)

theorem Usual.answered {x : Except BuiltinError Answer} (h : Usual args x) : Answered args x := by
  cases h with
  | error he =>
      rintro a ⟨⟩
  | test b => exact answered_ok (fits_ofBool b)
  | value i hv => exact answered_ok (fits_bindOrCheck i hv)
  | groups g is => exact answered_ok (fits_bindGroups g is)

/-! ## Errors -/

def Located (args : List Term) (x : Except BuiltinError α) : Prop :=
  ∀ e, x = .error e → ∀ i ∈ e.index?, i < args.length

theorem located_ok (a : α) : Located args (.ok a) := by
  rintro _ ⟨⟩

theorem located_error {e : BuiltinError} (h : ∀ i ∈ e.index?, i < args.length) :
    Located args (.error e : Except BuiltinError α) := by
  rintro _ ⟨⟩
  exact h

theorem located_bind {x : Except BuiltinError α} {f : α → Except BuiltinError β}
    (hx : Located args x) (hf : ∀ a, Located args (f a)) : Located args (x >>= f) := by
  cases x with
  | error e => exact located_error (hx e rfl)
  | ok a => exact hf a

theorem located_at {i : Nat} (hi : i < args.length) {e : BuiltinError} (he : e.index? = some i) :
    Located args (.error e : Except BuiltinError α) := by
  refine located_error fun j hj => ?_
  rw [he, Option.mem_some_iff] at hj
  exact hj ▸ hi

theorem located_nowhere {e : BuiltinError} (he : e.index? = none) :
    Located args (.error e : Except BuiltinError α) := by
  refine located_error fun i hi => ?_
  rw [he] at hi
  cases hi

theorem located_boundArg {i : Nat} (hi : i < args.length) : Located args (boundArg args i) := by
  unfold boundArg
  split
  · exact located_at hi rfl
  · exact located_at hi rfl
  · exact located_ok _

theorem located_numberArg {i : Nat} (hi : i < args.length) : Located args (numberArg args i) := by
  refine located_bind (located_boundArg hi) fun t => ?_
  split
  · exact located_ok _
  · exact located_at hi rfl

theorem located_lexicalArg {i : Nat} (hi : i < args.length) : Located args (lexicalArg args i) := by
  refine located_bind (located_boundArg hi) fun t => ?_
  split
  · exact located_ok _
  · exact located_ok _
  · exact located_ok _
  · exact located_at hi rfl

theorem located_mapM_lexicalArg {is : List Nat} (his : ∀ i ∈ is, i < args.length) :
    Located args (is.mapM (lexicalArg args)) := by
  induction is with
  | nil => exact located_ok _
  | cons i is ih =>
      rw [List.mapM_cons]
      refine located_bind (located_lexicalArg (his i List.mem_cons_self)) fun _ => ?_
      exact located_bind (ih fun j hj => his j (List.mem_cons_of_mem i hj)) fun _ => located_ok _

theorem located_apply (op : Operation) (a b : Number) : Located args (op.apply a b) := by
  unfold Operation.apply
  split
  · dsimp only
    split
    · exact located_ok _
    · exact located_nowhere rfl
  · exact located_ok _

theorem located_divide (a b : Number) : Located args (divide a b) := by
  unfold divide
  split
  · split
    · exact located_nowhere rfl
    · split <;> exact located_ok _
  · split
    · exact located_nowhere rfl
    · exact located_ok _

theorem located_solve (hargs : args.length = 3) (op : Operation) {first second : Option Inverse}
    (hfirst : ∀ f ∈ first, ∀ x y, Located args (f x y))
    (hsecond : ∀ f ∈ second, ∀ x y, Located args (f x y)) :
    Located args (solve op first second args) := by
  have hnumber : ∀ i < 3, Located args (numberArg args i) := fun i hi =>
    located_numberArg (hargs ▸ hi)
  unfold solve
  split
  · exact located_bind (located_apply op _ _) fun _ => located_ok _
  · rename_i e b he _
    split
    · exact located_bind (hnumber 2 (by decide)) fun c =>
        located_bind (hfirst _ rfl _ _) fun _ => located_ok _
    · exact located_error (hnumber 0 (by decide) _ he)
  · rename_i a e _ he
    split
    · exact located_bind (hnumber 2 (by decide)) fun c =>
        located_bind (hsecond _ rfl _ _) fun _ => located_ok _
    · exact located_error (hnumber 1 (by decide) _ he)
  · rename_i e e' he _
    exact located_error (hnumber 0 (by decide) _ he)

theorem located_quotient (hargs : args.length = 3) : Located args (quotient args) :=
  located_bind (located_numberArg (by omega)) fun _ =>
    located_bind (located_numberArg (by omega)) fun _ =>
      located_bind (located_divide _ _) fun _ => located_ok _

theorem located_choose (hargs : args.length = 3) (keepFirst : Ordering → Bool) :
    Located args (choose keepFirst args) := by
  refine located_bind (located_numberArg (by omega)) fun a =>
    located_bind (located_numberArg (by omega)) fun b => ?_
  split
  · exact located_nowhere rfl
  · refine located_bind (located_boundArg ?_) fun _ => located_ok _
    split <;> omega

theorem located_equality (hargs : args.length = 2) (expected : Bool) :
    Located args (equality expected args) :=
  located_bind (located_boundArg (by omega)) fun _ =>
    located_bind (located_boundArg (by omega)) fun _ => located_ok _

theorem located_ordered (hargs : args.length = 2) (test : Ordering → Bool) :
    Located args (ordered test args) :=
  located_bind (located_numberArg (by omega)) fun _ =>
    located_bind (located_numberArg (by omega)) fun _ => located_ok _

theorem located_regexWith (search : PatternSearch) (hargs : 2 ≤ args.length) :
    Located args (regexWith search args) := by
  refine located_bind (located_lexicalArg (by omega)) fun _ =>
    located_bind (located_lexicalArg (by omega)) fun _ => ?_
  split
  · exact located_at (show 1 < args.length by omega) rfl
  · split <;> exact located_ok _

theorem located_strConcat : Located args (strConcat args) := by
  refine located_bind (located_mapM_lexicalArg fun i hi => ?_) fun _ => located_ok _
  rw [List.mem_range] at hi
  omega

/-! ## The standard builtins -/

structure Proper (b : Builtin) : Prop where
  answered : ∀ args fresh, Answered args (b.run args fresh).1
  located : ∀ args fresh, b.arity.accepts args.length → Located args (b.run args fresh).1
  looks : ∀ n args fresh more, b.arity = .exactly n → args.length = n →
    b.run (args ++ more) fresh = b.run args fresh

theorem length_of_exactly {n : Nat} (h : (Arity.exactly n).accepts args.length) :
    args.length = n := by
  simpa [Arity.accepts] using h

theorem le_length_of_atLeast {n : Nat} (h : (Arity.atLeast n).accepts args.length) :
    n ≤ args.length := by
  simpa [Arity.accepts] using h

theorem proper_exactly {f : List Term → Except BuiltinError Answer} (name : String) (n : Nat)
    (hanswered : ∀ args, Answered args (f args))
    (hlocated : ∀ args, args.length = n → Located args (f args))
    (hlooks : ∀ args more, args.length = n → f (args ++ more) = f args) :
    (ofFun name (.exactly n) f).Proper := by
  refine ⟨fun args _ => hanswered args, fun args _ h => hlocated args (length_of_exactly h), ?_⟩
  rintro n args fresh more ⟨⟩ hargs
  exact congrArg (·, fresh) (hlooks args more hargs)

theorem proper_atLeast {f : List Term → Except BuiltinError Answer} (name : String) (n : Nat)
    (hanswered : ∀ args, Answered args (f args))
    (hlocated : ∀ args, n ≤ args.length → Located args (f args)) :
    (ofFun name (.atLeast n) f).Proper := by
  refine ⟨fun args _ => hanswered args, fun args _ h => hlocated args (le_length_of_atLeast h), ?_⟩
  rintro n args fresh more ⟨⟩

theorem looks_two {f : List Term → Except BuiltinError Answer}
    (hf : ∀ a b more, f (a :: b :: more) = f [a, b]) (args more : List Term)
    (hargs : args.length = 2) : f (args ++ more) = f args := by
  obtain ⟨a, b, rfl⟩ := List.length_eq_two.mp hargs
  exact hf a b more

theorem looks_three {f : List Term → Except BuiltinError Answer}
    (hf : ∀ a b c more, f (a :: b :: c :: more) = f [a, b, c]) (args more : List Term)
    (hargs : args.length = 3) : f (args ++ more) = f args := by
  obtain ⟨a, b, c, rfl⟩ := List.length_eq_three.mp hargs
  exact hf a b c more

theorem choose_looks (keepFirst : Ordering → Bool) (a b c : Term) (more : List Term) :
    choose keepFirst (a :: b :: c :: more) = choose keepFirst [a, b, c] := by
  have hwinner : ∀ keep : Bool, boundArg (a :: b :: c :: more) (if keep then 0 else 1) =
      boundArg [a, b, c] (if keep then 0 else 1) := by
    intro keep
    cases keep <;> rfl
  unfold choose
  simp only [hwinner]
  rfl

theorem proper_comparison : ∀ b ∈ comparison, b.Proper := by
  have hequal := fun expected name => proper_exactly name 2
    (fun _ => (usual_equality expected).answered) (fun _ h => located_equality h expected)
    (looks_two fun _ _ _ => rfl)
  have hordered := fun order name => proper_exactly name 2
    (fun _ => (usual_ordered order).answered) (fun _ h => located_ordered h order)
    (looks_two fun _ _ _ => rfl)
  simp only [comparison, List.mem_cons, List.not_mem_nil, or_false, forall_eq_or_imp, forall_eq]
  exact ⟨hequal _ _, hequal _ _, hordered _ _, hordered _ _, hordered _ _, hordered _ _⟩

theorem proper_arithmetic : ∀ b ∈ arithmetic, b.Proper := by
  have hinverse : ∀ (args : List Term) (op : Operation) (swap : Number → Number → Number × Number),
      ∀ f ∈ some (fun b c : Number => op.apply (swap b c).1 (swap b c).2), ∀ x y,
        Located args (f x y) := by
    rintro args op swap f ⟨⟩ x y
    exact located_apply op _ _
  have hnone : ∀ (args : List Term), ∀ f ∈ (none : Option Inverse), ∀ x y,
      Located args (f x y) := by
    rintro args f ⟨⟩
  have hchoose := fun keepFirst name => proper_exactly name 3
    (fun _ => (usual_choose keepFirst).answered) (fun _ h => located_choose h keepFirst)
    (looks_three (choose_looks keepFirst))
  simp only [arithmetic, List.mem_cons, List.not_mem_nil, or_false, forall_eq_or_imp, forall_eq]
  refine ⟨?_, ?_, ?_, ?_, hchoose _ _, hchoose _ _⟩
  · exact proper_exactly _ _ (fun _ => usual_sum.answered) (fun args h =>
      located_solve h _ (hinverse args .sub fun b c => (c, b))
        (hinverse args .sub fun a c => (c, a)))
      (looks_three fun _ _ _ _ => rfl)
  · exact proper_exactly _ _ (fun _ => usual_difference.answered) (fun args h =>
      located_solve h _ (hinverse args .add fun b c => (c, b))
        (hinverse args .sub fun a c => (a, c)))
      (looks_three fun _ _ _ _ => rfl)
  · exact proper_exactly _ _ (fun _ => usual_product.answered) (fun args h =>
      located_solve h _ (hnone args) (hnone args)) (looks_three fun _ _ _ _ => rfl)
  · exact proper_exactly _ _ (fun _ => usual_quotient.answered) (fun _ h => located_quotient h)
      (looks_three fun _ _ _ _ => rfl)

theorem proper_test (name : String) (p : Term → Bool) : (test name p).Proper := by
  refine proper_exactly name 1 (fun _ => answered_ok (fits_ofBool _)) (fun _ _ => located_ok _) ?_
  intro args more hargs
  obtain ⟨a, rfl⟩ := List.length_eq_one_iff.mp hargs
  rfl

theorem proper_makeTemp : makeTemp.Proper := by
  refine ⟨fun args fresh => ?_, fun args fresh _ => ?_, ?_⟩
  · unfold makeTemp
    dsimp only
    split
    · rename_i v hv
      refine answered_ok fun x hx => ?_
      rw [List.mem_singleton.mp hx]
      exact ⟨List.length_pos_of_mem (List.mem_of_mem_head? hv), rfl⟩
    · exact answered_ok trivial
  · unfold makeTemp
    dsimp only
    split <;> exact located_ok _
  · rintro n args fresh more ⟨⟩ hargs
    obtain ⟨a, rfl⟩ := List.length_eq_one_iff.mp hargs
    rfl

theorem proper_node : ∀ b ∈ node, b.Proper := by
  have hall : ∀ (name : String) (p : List Term → Bool),
      (ofFun name (.atLeast 1) fun args => .ok (.ofBool (p args))).Proper := fun name p =>
    proper_atLeast name 1 (fun _ => answered_ok (fits_ofBool _)) fun _ _ => located_ok _
  simp only [node, List.mem_cons, List.not_mem_nil, or_false, forall_eq_or_imp, forall_eq]
  exact ⟨proper_test _ _, proper_test _ _, proper_test _ _, proper_test _ _, proper_test _ _,
    hall _ _, hall _ _, proper_makeTemp⟩

theorem proper_onText (search : PatternSearch) : ∀ b ∈ onText search, b.Proper := by
  simp only [onText, List.mem_cons, List.not_mem_nil, or_false, forall_eq_or_imp, forall_eq]
  exact ⟨proper_atLeast _ _ (fun _ => (usual_regexWith search).answered) fun _ h =>
      located_regexWith search h,
    proper_atLeast _ _ (fun _ => usual_strConcat.answered) fun _ _ => located_strConcat⟩

section Standard

variable {search : PatternSearch} {b : Builtin}

theorem proper_standard (h : b ∈ (Registry.standardWith search).builtins) : b.Proper := by
  rcases mem_foldl_register h with h | h
  · simp only [List.mem_append, or_assoc] at h
    rcases h with h | h | h | h
    · exact proper_comparison b h
    · exact proper_arithmetic b h
    · exact proper_node b h
    · exact proper_onText search b h
  · exact absurd h List.not_mem_nil

theorem grounds_standard (h : b ∈ (Registry.standardWith search).builtins) : b.Grounds :=
  fun args fresh _ hrun x hx => ((proper_standard h).answered args fresh _ hrun x hx).2

theorem IsTest.grounds (h : b.IsTest) : b.Grounds := by
  obtain ⟨_, hmem, -⟩ := h
  exact grounds_standard hmem

theorem staysWithin_standard (h : b ∈ (Registry.standardWith search).builtins) :
    b.StaysWithin where
  values args fresh _ _ hrun x hx := ((proper_standard h).answered args fresh _ hrun x hx).1
  errors args fresh _ harity := (proper_standard h).located args fresh harity _
  looks := (proper_standard h).looks

end Standard

end Builtin

/-! ## Calls -/

def GroundCalls (rest : List Premise) : Prop := ∀ b args, .call b args ∈ rest → b.Grounds

theorem GroundCalls.tail {q : Premise} {rest : List Premise} (h : GroundCalls (q :: rest)) :
    GroundCalls rest := fun b args hcall => h b args (List.mem_cons_of_mem q hcall)

namespace Bindings

variable {resolved : List Term} {values rest : List (Nat × Term)} {b b' next : Bindings} {i : Nat}
  {value : Term}

theorem accept_cons_iff : b.accept resolved ((i, value) :: rest) = some next ↔
    (∃ v b', resolved[i]? = some (.var v) ∧ b.bind v value = .ok b' ∧
      b'.accept resolved rest = some next) ∨
    resolved[i]? = some value ∧ value.isVar = false ∧ b.accept resolved rest = some next := by
  rw [accept]
  constructor
  · intro h
    split at h
    · cases h
    · rename_i v hv
      split at h
      · rename_i b' hbind
        exact .inl ⟨v, b', hv, hbind, h⟩
      · cases h
    · rename_i given hopen hgiven
      split at h
      · rename_i heq
        subst heq
        refine .inr ⟨hgiven, ?_, h⟩
        cases given with
        | var v => exact absurd rfl (hopen v)
        | iri | literal | blank | compound => rfl
      · cases h
  · rintro (⟨v, b', hv, hbind, h⟩ | ⟨hi, hvalue, h⟩)
    · simp only [hv, hbind, h]
    · cases value with
      | var v => cases hvalue
      | iri | literal | blank | compound => simp only [hi, if_true, h]

theorem accept_extends (hvalues : ∀ x ∈ values, x.2.isGround)
    (h : b.accept resolved values = some b') :
    b.Extends b' (resolved.flatMap Term.occurrences) := by
  induction values generalizing b with
  | nil =>
      rw [accept, Option.some.injEq] at h
      exact h ▸ .refl b _
  | cons x values ih =>
      have hrest : ∀ y ∈ values, y.2.isGround := fun y hy => hvalues y (List.mem_cons_of_mem _ hy)
      rcases accept_cons_iff.mp h with ⟨v, c, hv, hbind, h⟩ | ⟨-, -, h⟩
      · refine ((bind_ok (hvalues x List.mem_cons_self) hbind).1.mono ?_).trans (ih hrest h)
        intro w hw
        rw [List.mem_singleton.mp hw]
        refine List.mem_flatMap.mpr ⟨.var v, List.mem_of_getElem? hv, ?_⟩
        exact List.mem_singleton_self v
      · exact ih hrest h

end Bindings

/-- A call of a builtin that gives ground values extends the bindings by ground values. -/
theorem CheckedRule.call_extends {r : CheckedRule} {b : Builtin} (hb : b.Grounds)
    {args : List Term} {env env' : Bindings} {fresh : Nat}
    (h : (r.call b args env fresh).1 = .holds env') :
    env.Extends env' ((args.map env.resolve).flatMap Term.occurrences) := by
  obtain ⟨values, hrun, haccept⟩ := call_holds_iff.mp h
  exact Bindings.accept_extends (hb _ _ values hrun) haccept

end TripleRules
