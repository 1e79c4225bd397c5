import TripleRules.Builtin.Standard
import TripleRules.Proofs.Rule.Call
import TripleRules.Proofs.Term.Bindings

/-!
# Tests

What a standard builtin comes to depends on its arguments only, unless it is the one that mints
nodes, and it never ends the reasoning.  On ground arguments it is a test: it holds without binding
anything, it fails, or it breaks off with an error.
-/

namespace TripleRules

namespace Builtin

/-- A standard builtin that mints no node, however patterns are searched for. -/
def IsTest (b : Builtin) : Prop :=
  ∃ search, b ∈ (Registry.standardWith search).builtins ∧ b.name ≠ "makeTemp"

theorem isTest_of_find? {search : PatternSearch} {name : String} {b : Builtin}
    (h : (Registry.standardWith search).find? name = some b) (hname : name ≠ "makeTemp") :
    b.IsTest := by
  have hfound := List.find?_some h
  rw [beq_iff_eq] at hfound
  exact ⟨search, List.mem_of_find?_eq_some h, hfound ▸ hname⟩

/-- The call holds of the arguments. -/
def Accepts (b : Builtin) (args : List Term) : Prop :=
  ∃ bindings, (b.run args 0).1 = .ok (.holds bindings)

def Soft {α : Type} (x : Except BuiltinError α) : Prop := ∀ e, x = .error e → e.isFatal = false

def Plain (x : Except BuiltinError Answer) : Prop :=
  x = .ok (.holds []) ∨ x = .ok .fails ∨ ∃ e, e.isFatal = false ∧ x = .error e

theorem soft_ok {α : Type} (a : α) : Soft (.ok a) := by
  intro e h
  cases h

theorem soft_error {α : Type} {e : BuiltinError} (he : e.isFatal = false) :
    Soft (.error e : Except BuiltinError α) := by
  intro e' h
  cases h
  exact he

theorem Soft.bind {α β : Type} {x : Except BuiltinError α} {f : α → Except BuiltinError β}
    (hx : Soft x) (hf : ∀ a, Soft (f a)) : Soft (x >>= f) := by
  cases x with
  | error e => exact soft_error (hx e rfl)
  | ok a => exact hf a

theorem plain_error {e : BuiltinError} (he : e.isFatal = false) : Plain (.error e) :=
  .inr (.inr ⟨e, he, rfl⟩)

theorem plain_ofBool (b : Bool) : Plain (.ok (.ofBool b)) := by
  cases b
  · exact .inr (.inl rfl)
  · exact .inl rfl

/-! ## Reading arguments -/

theorem soft_boundArg (args : List Term) (i : Nat) : Soft (boundArg args i) := by
  unfold boundArg
  split
  · exact soft_error rfl
  · exact soft_error rfl
  · exact soft_ok _

theorem soft_numberArg (args : List Term) (i : Nat) : Soft (numberArg args i) := by
  refine (soft_boundArg args i).bind fun t => ?_
  split
  · exact soft_ok _
  · exact soft_error rfl

theorem soft_lexicalArg (args : List Term) (i : Nat) : Soft (lexicalArg args i) := by
  refine (soft_boundArg args i).bind fun t => ?_
  split
  · exact soft_ok _
  · exact soft_ok _
  · exact soft_ok _
  · exact soft_error rfl

theorem soft_mapM_lexicalArg (args : List Term) (is : List Nat) :
    Soft (is.mapM (lexicalArg args)) := by
  induction is with
  | nil => exact soft_ok _
  | cons i is ih =>
      rw [List.mapM_cons]
      exact (soft_lexicalArg args i).bind fun _ => ih.bind fun _ => soft_ok _

/-! ## Outcomes -/

/-- What a standard builtin that mints no node may come to: an error that is not fatal, the answer
of a test, or that of giving ground values to arguments. -/
inductive Usual (args : List Term) : Except BuiltinError Answer → Prop where
  | error {e : BuiltinError} (he : e.isFatal = false) : Usual args (.error e)
  | test (b : Bool) : Usual args (.ok (.ofBool b))
  | value (i : Nat) {v : Term} (hv : v.isGround) : Usual args (.ok (bindOrCheck args i v))
  | groups (g : Nat → Option String) (is : List Nat) : Usual args (.ok (bindGroups args g is))

theorem Soft.usual_bind {args : List Term} {α : Type} {x : Except BuiltinError α}
    {f : α → Except BuiltinError Answer} (hx : Soft x)
    (hf : ∀ a, x = .ok a → Usual args (f a)) : Usual args (x >>= f) := by
  cases x with
  | error e => exact .error (hx e rfl)
  | ok a => exact hf a rfl

theorem Usual.soft {args : List Term} {x : Except BuiltinError Answer} (h : Usual args x) :
    Soft x := by
  cases h with
  | error he => exact soft_error he
  | test | value | groups => exact soft_ok _

theorem bindOrCheck_eq {args : List Term} (hargs : ∀ a ∈ args, a.isGround) (i : Nat)
    (value : Term) : bindOrCheck args i value = .holds [] ∨ bindOrCheck args i value = .fails := by
  unfold bindOrCheck
  split
  · exact .inr rfl
  · rename_i v hv
    have := hargs _ (List.mem_of_getElem? hv)
    simp [Term.isGround] at this
  · rename_i t _ _
    cases t.sameValue value
    · exact .inr rfl
    · exact .inl rfl

theorem bindGroups_eq {args : List Term} (hargs : ∀ a ∈ args, a.isGround)
    (g : Nat → Option String) (is : List Nat) :
    bindGroups args g is = .holds [] ∨ bindGroups args g is = .fails := by
  induction is with
  | nil => exact .inl rfl
  | cons i is ih =>
      rw [bindGroups]
      rcases bindOrCheck_eq hargs i (.plain ((g (i - 1)).getD "")) with h | h
      · rw [h]
        rcases ih with ih | ih
        · exact .inl (by rw [ih]; rfl)
        · exact .inr (by rw [ih])
      · exact .inr (by rw [h])

theorem Usual.plain {args : List Term} {x : Except BuiltinError Answer} (h : Usual args x)
    (hargs : ∀ a ∈ args, a.isGround) : Plain x := by
  cases h with
  | error he => exact plain_error he
  | test b => exact plain_ofBool b
  | value i =>
      rcases bindOrCheck_eq hargs i _ with h | h <;> rw [h]
      · exact .inl rfl
      · exact .inr (.inl rfl)
  | groups m is =>
      rcases bindGroups_eq hargs m is with h | h <;> rw [h]
      · exact .inl rfl
      · exact .inr (.inl rfl)

/-! ## The standard builtins -/

theorem isGround_ofNumber (n : Number) : (Term.ofNumber n).isGround := by
  cases n <;> rfl

section Standard

variable {args : List Term}

theorem usual_number (i : Nat) (n : Number) : Usual args (.ok (bindOrCheck args i (.ofNumber n))) :=
  .value i (isGround_ofNumber n)

theorem isGround_of_numberArg {i : Nat} {n : Number} {t : Term} (hn : numberArg args i = .ok n)
    (ht : boundArg args i = .ok t) : t.isGround := by
  unfold numberArg at hn
  rw [ht] at hn
  cases t with
  | literal l => rfl
  | iri | blank | var | compound => cases hn

theorem soft_apply (op : Operation) (a b : Number) : Soft (op.apply a b) := by
  unfold Operation.apply
  split
  · dsimp only
    split
    · exact soft_ok _
    · exact soft_error rfl
  · exact soft_ok _

theorem soft_divide (a b : Number) : Soft (divide a b) := by
  unfold divide
  split
  · split
    · exact soft_error rfl
    · split <;> exact soft_ok _
  · split
    · exact soft_error rfl
    · exact soft_ok _

theorem usual_solve (op : Operation) {first second : Option Inverse}
    (hfirst : ∀ f ∈ first, ∀ x y, Soft (f x y)) (hsecond : ∀ f ∈ second, ∀ x y, Soft (f x y)) :
    Usual args (solve op first second args) := by
  unfold solve
  split
  · exact (soft_apply op _ _).usual_bind fun _ _ => usual_number _ _
  · rename_i e b he _
    split
    · exact (soft_numberArg args 2).usual_bind fun c _ =>
        (hfirst _ rfl _ _).usual_bind fun _ _ => usual_number _ _
    · exact .error (soft_numberArg args 0 _ he)
  · rename_i a e _ he
    split
    · exact (soft_numberArg args 2).usual_bind fun c _ =>
        (hsecond _ rfl _ _).usual_bind fun _ _ => usual_number _ _
    · exact .error (soft_numberArg args 1 _ he)
  · rename_i e e' he _
    exact .error (soft_numberArg args 0 _ he)

theorem usual_sum : Usual args (sum args) := by
  refine usual_solve .add ?_ ?_
  · rintro f ⟨⟩ b c
    exact soft_apply .sub c b
  · rintro f ⟨⟩ a c
    exact soft_apply .sub c a

theorem usual_difference : Usual args (difference args) := by
  refine usual_solve .sub ?_ ?_
  · rintro f ⟨⟩ b c
    exact soft_apply .add c b
  · rintro f ⟨⟩ a c
    exact soft_apply .sub a c

theorem usual_product : Usual args (product args) := by
  refine usual_solve .mul ?_ ?_ <;> rintro f ⟨⟩

theorem usual_quotient : Usual args (quotient args) :=
  (soft_numberArg args 0).usual_bind fun a _ => (soft_numberArg args 1).usual_bind fun b _ =>
    (soft_divide a b).usual_bind fun _ _ => usual_number _ _

theorem usual_choose (keepFirst : Ordering → Bool) : Usual args (choose keepFirst args) := by
  refine (soft_numberArg args 0).usual_bind fun a ha =>
    (soft_numberArg args 1).usual_bind fun b hb => ?_
  split
  · exact .error rfl
  · refine (soft_boundArg args _).usual_bind fun winner hwinner => .value 2 ?_
    split at hwinner
    · exact isGround_of_numberArg ha hwinner
    · exact isGround_of_numberArg hb hwinner

theorem usual_equality (expected : Bool) : Usual args (equality expected args) :=
  (soft_boundArg args 0).usual_bind fun _ _ => (soft_boundArg args 1).usual_bind fun _ _ => .test _

theorem usual_ordered (test : Ordering → Bool) : Usual args (ordered test args) :=
  (soft_numberArg args 0).usual_bind fun _ _ => (soft_numberArg args 1).usual_bind fun _ _ =>
    .test _

theorem usual_regexWith (search : PatternSearch) : Usual args (regexWith search args) := by
  refine (soft_lexicalArg args 0).usual_bind fun text _ =>
    (soft_lexicalArg args 1).usual_bind fun pattern _ => ?_
  split
  · exact .error rfl
  · split
    · exact .test false
    · exact .groups _ _

theorem usual_strConcat : Usual args (strConcat args) :=
  (soft_mapM_lexicalArg args _).usual_bind fun _ _ => .value _ rfl

end Standard

theorem mem_put {b c : Builtin} {bs : List Builtin} (h : c ∈ Registry.put b bs) :
    c = b ∨ c ∈ bs := by
  induction bs with
  | nil => simpa [Registry.put] using h
  | cons d ds ih =>
      rw [Registry.put] at h
      split at h
      · rcases List.mem_cons.mp h with rfl | h
        · exact .inl rfl
        · exact .inr (List.mem_cons_of_mem d h)
      · rcases List.mem_cons.mp h with rfl | h
        · exact .inr List.mem_cons_self
        · exact (ih h).imp_right (List.mem_cons_of_mem d)

theorem mem_foldl_register {bs : List Builtin} {r : Registry} {c : Builtin}
    (h : c ∈ (bs.foldl Registry.register r).builtins) : c ∈ bs ∨ c ∈ r.builtins := by
  induction bs generalizing r with
  | nil => exact .inr h
  | cons b bs ih =>
      rw [List.foldl_cons] at h
      rcases ih h with h | h
      · exact .inl (List.mem_cons_of_mem b h)
      · rcases mem_put h with rfl | h
        · exact .inl List.mem_cons_self
        · exact .inr h

def IsUsual (b : Builtin) : Prop :=
  ∃ f : List Term → Except BuiltinError Answer,
    (∀ args fresh, b.run args fresh = (f args, fresh)) ∧ ∀ args, Usual args (f args)

theorem isUsual_ofFun {f : List Term → Except BuiltinError Answer} (name : String) (arity : Arity)
    (hf : ∀ args, Usual args (f args)) : (ofFun name arity f).IsUsual :=
  ⟨f, fun _ _ => rfl, hf⟩

theorem isUsual_comparison : ∀ b ∈ comparison, b.IsUsual := by
  simp only [comparison, List.mem_cons, List.not_mem_nil, or_false, forall_eq_or_imp, forall_eq]
  exact ⟨isUsual_ofFun _ _ fun _ => usual_equality _, isUsual_ofFun _ _ fun _ => usual_equality _,
    isUsual_ofFun _ _ fun _ => usual_ordered _, isUsual_ofFun _ _ fun _ => usual_ordered _,
    isUsual_ofFun _ _ fun _ => usual_ordered _, isUsual_ofFun _ _ fun _ => usual_ordered _⟩

theorem isUsual_arithmetic : ∀ b ∈ arithmetic, b.IsUsual := by
  simp only [arithmetic, List.mem_cons, List.not_mem_nil, or_false, forall_eq_or_imp, forall_eq]
  exact ⟨isUsual_ofFun _ _ fun _ => usual_sum, isUsual_ofFun _ _ fun _ => usual_difference,
    isUsual_ofFun _ _ fun _ => usual_product, isUsual_ofFun _ _ fun _ => usual_quotient,
    isUsual_ofFun _ _ fun _ => usual_choose _, isUsual_ofFun _ _ fun _ => usual_choose _⟩

theorem isUsual_node : ∀ b ∈ node, b.name ≠ "makeTemp" → b.IsUsual := by
  simp only [node, List.mem_cons, List.not_mem_nil, or_false, forall_eq_or_imp, forall_eq]
  exact ⟨fun _ => isUsual_ofFun _ _ fun _ => .test _, fun _ => isUsual_ofFun _ _ fun _ => .test _,
    fun _ => isUsual_ofFun _ _ fun _ => .test _, fun _ => isUsual_ofFun _ _ fun _ => .test _,
    fun _ => isUsual_ofFun _ _ fun _ => .test _, fun _ => isUsual_ofFun _ _ fun _ => .test _,
    fun _ => isUsual_ofFun _ _ fun _ => .test _, fun h => absurd rfl h⟩

theorem isUsual_onText (search : PatternSearch) : ∀ b ∈ onText search, b.IsUsual := by
  simp only [onText, List.mem_cons, List.not_mem_nil, or_false, forall_eq_or_imp, forall_eq]
  exact ⟨isUsual_ofFun _ _ fun _ => usual_regexWith search,
    isUsual_ofFun _ _ fun _ => usual_strConcat⟩

theorem IsTest.isUsual {b : Builtin} (h : b.IsTest) : b.IsUsual := by
  obtain ⟨search, hmem, hname⟩ := h
  rcases mem_foldl_register hmem with hmem | hmem
  · simp only [List.mem_append, or_assoc] at hmem
    rcases hmem with hmem | hmem | hmem | hmem
    · exact isUsual_comparison b hmem
    · exact isUsual_arithmetic b hmem
    · exact isUsual_node b hmem hname
    · exact isUsual_onText search b hmem
  · simp [Registry.empty] at hmem

end Builtin

/-! ## Calls -/

/-- How a call clause that tests turns out in a rule. -/
theorem CheckedRule.call_eq_of_isTest (r : CheckedRule) {b : Builtin} (h : b.IsTest)
    {args : List Term} {env : Bindings} (hargs : ∀ a ∈ args, (env.resolve a).isGround)
    (fresh : Nat) :
    (b.Accepts (args.map env.resolve) ∧ r.call b args env fresh = (.holds env, fresh)) ∨
      (¬ b.Accepts (args.map env.resolve) ∧ (r.call b args env fresh = (.fails, fresh) ∨
        ∃ f, r.call b args env fresh = (.noted f, fresh))) := by
  obtain ⟨f, hrun, husual⟩ := h.isUsual
  have hground : ∀ a ∈ args.map env.resolve, a.isGround := List.forall_mem_map.mpr hargs
  unfold Builtin.Accepts
  simp only [r.call_eq, hrun]
  rcases (husual _).plain hground with hf | hf | ⟨e, he, hf⟩ <;> rw [hf]
  · exact .inl ⟨⟨[], rfl⟩, rfl⟩
  · exact .inr ⟨by simp, .inl rfl⟩
  · refine .inr ⟨by simp, .inr ⟨⟨r.rule.label, b.name, e.message⟩, ?_⟩⟩
    rw [outcome_noted_iff.mpr ⟨e, rfl, he, rfl⟩]

end TripleRules
