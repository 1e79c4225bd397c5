import TripleRules.Forward.Engine
import TripleRules.Proofs.Rule.Call
import TripleRules.Proofs.Rule.Filing

/-!
# Growth

Chaining adds to what an engine holds and takes nothing away, whatever the rules call and however it
ends.  Deductions and installed rules come behind those that were there before, and are filed as
they come.  Only a builtin that gives up breaks chaining off.
-/

namespace TripleRules

def Fault.IsFatal (f : Fault) : Prop :=
  ∃ rule builtin message, f = .builtinFailed rule builtin (.fatal message)

theorem CheckedRule.isFatal_of_call {r : CheckedRule} {b : Builtin} {args : List Term}
    {env : Bindings} {fresh : Nat} {f : Fault} (h : (r.call b args env fresh).1 = .fault f) :
    f.IsFatal := by
  obtain ⟨e, -, hfatal, rfl⟩ := call_fault_iff.mp h
  cases e with
  | fatal message => exact ⟨_, _, message, rfl⟩
  | unbound | type | arithmetic => cases hfatal

namespace Forward

/-- Matching is broken off by a call of the body, and by nothing else. -/
theorem exists_call_of_fault {sources : Sources} {rule : CheckedRule} {record : Bool}
    {rest : List Premise} {env : Bindings} {premises : List Triple} {m : Matching} {f : Fault}
    (hf : f ∈ (complete sources rule record rest env premises m).fault) :
    f ∈ m.fault ∨ ∃ b args env' fresh, .call b args ∈ rest ∧
      (rule.call b args env' fresh).1 = .fault f := by
  induction rest generalizing env premises m with
  | nil => exact .inl hf
  | cons q rest ih =>
      have hrest : (∃ b args env' fresh, .call b args ∈ rest ∧
          (rule.call b args env' fresh).1 = .fault f) →
          ∃ b args env' fresh, .call b args ∈ q :: rest ∧
            (rule.call b args env' fresh).1 = .fault f :=
        fun ⟨b, args, env', fresh, hmem, hcall⟩ =>
          ⟨b, args, env', fresh, List.mem_cons_of_mem _ hmem, hcall⟩
      cases q with
      | pattern p =>
          rw [complete] at hf
          revert hf
          refine List.foldlRecOn _ _ (motive := fun m' : Matching => f ∈ m'.fault →
            f ∈ m.fault ∨ ∃ b args env' fresh, .call b args ∈ .pattern p :: rest ∧
              (rule.call b args env' fresh).1 = .fault f) .inl ?_
          intro m' hm' t _
          split
          · exact hm'
          · split
            · exact hm'
            · exact fun hf => (ih hf).elim hm' fun h => .inr (hrest h)
      | call b args =>
          rw [complete] at hf
          split at hf
          · exact (ih hf).imp_right hrest
          · exact .inl hf
          · exact .inl hf
          · rename_i hcall
            cases hf
            exact .inr ⟨b, args, env, m.fresh, List.mem_cons_self, congrArg Prod.fst hcall⟩

namespace Engine

/-- An engine has what another one had, with more behind it.  What has been deduced since is ground
and lies in neither of the stores that the engine reads. -/
structure Extends (d : Data) (e e' : Engine) : Prop where
  base : e'.base = e.base
  deductions : e.deductions.triples <+: e'.deductions.triples
  installed : e.installed.rules <+: e'.installed.rules
  apart : ∀ t ∈ e'.deductions.triples, t ∈ e.deductions.triples ∨
    t.isGround ∧ t ∉ d.raw.triples ∧ t ∉ d.schema.triples

variable {d : Data} {e e' e'' : Engine}

theorem Extends.refl (e : Engine) : Extends d e e :=
  ⟨rfl, List.prefix_refl _, List.prefix_refl _, fun _ => .inl⟩

theorem Extends.trans (h : Extends d e e') (h' : Extends d e' e'') : Extends d e e'' where
  base := h'.base.trans h.base
  deductions := h.deductions.trans h'.deductions
  installed := h.installed.trans h'.installed
  apart t ht := (h'.apart t ht).elim (h.apart t) .inr

theorem Extends.of_eq (hbase : e'.base = e.base) (hdeductions : e'.deductions = e.deductions)
    (hinstalled : e'.installed = e.installed) : Extends d e e' := by
  refine ⟨hbase, ?_, ?_, ?_⟩
  · exact hdeductions ▸ List.prefix_refl _
  · exact hinstalled ▸ List.prefix_refl _
  · exact hdeductions ▸ fun _ => .inl

/-! ## Conclusions -/

theorem prefix_triples_insert (s : Store) (t : Triple) : s.triples <+: (s.insert t).triples := by
  unfold Store.insert
  split
  · exact List.prefix_refl _
  · exact List.prefix_append _ _

theorem extends_deduce (d : Data) (e : Engine) (f : Firing) (t : Triple) :
    Extends d e (e.deduce d f t) := by
  unfold deduce
  split
  · exact .refl e
  · rename_i hnew
    rw [Bool.or_eq_true, not_or, Bool.not_eq_true', Bool.not_eq_false, Sources.contains_iff,
      not_or, not_or] at hnew
    obtain ⟨hground, hraw, hschema, -⟩ := hnew
    refine ⟨rfl, ?_, List.prefix_refl _, fun u hu => ?_⟩
    · exact prefix_triples_insert e.deductions t
    · rcases (Store.mem_insert _ t u).mp hu with hu | rfl
      · exact .inl hu
      · exact .inr ⟨hground, hraw, hschema⟩

theorem prefix_insert (s : RuleSet) (r : CheckedRule) : s.rules <+: (s.insert r).rules := by
  unfold RuleSet.insert
  split
  · exact List.prefix_refl _
  · split <;> exact List.prefix_append _ _

theorem extends_install (d : Data) (e : Engine) (r : Rule) (env : Bindings) :
    Extends d e (e.install r env) := by
  unfold install
  split
  · exact .of_eq rfl rfl rfl
  · split
    · exact .refl e
    · exact ⟨rfl, List.prefix_refl _, prefix_insert _ _, fun _ => .inl⟩

/-- What chaining does to an engine: it draws conclusions one after the other, and keeps its own
notes. -/
inductive Chained (d : Data) : Engine → Engine → Prop where
  | noted {e e' : Engine} (hbase : e'.base = e.base) (hdeductions : e'.deductions = e.deductions)
      (hinstalled : e'.installed = e.installed) : Chained d e e'
  | deduce (e : Engine) (f : Firing) (t : Triple) : Chained d e (e.deduce d f t)
  | install (e : Engine) (r : Rule) (env : Bindings) : Chained d e (e.install r env)
  | trans {e e' e'' : Engine} (h : Chained d e e') (h' : Chained d e' e'') : Chained d e e''

theorem Chained.refl (e : Engine) : Chained d e e := .noted rfl rfl rfl

theorem Chained.withAgenda (e : Engine) (ts : List Triple) :
    Chained d e { e with agenda := ts } := .noted rfl rfl rfl

theorem Chained.extends (h : Chained d e e') : Extends d e e' := by
  induction h with
  | noted hbase hdeductions hinstalled => exact .of_eq hbase hdeductions hinstalled
  | deduce e f t => exact extends_deduce d e f t
  | install e r env => exact extends_install d e r env
  | trans _ _ ih ih' => exact ih.trans ih'

theorem Chained.deductions_built (h : Chained d e e') (hdeductions : e.deductions.Built) :
    e'.deductions.Built := by
  induction h with
  | noted _ hd => exact hd ▸ hdeductions
  | deduce e f t =>
      unfold Engine.deduce
      split
      · exact hdeductions
      · rename_i hnew
        rw [Bool.or_eq_true, not_or, Bool.not_eq_true', Bool.not_eq_false] at hnew
        exact hdeductions.insert hnew.1
  | install e r env =>
      unfold Engine.install
      split
      · exact hdeductions
      · split <;> exact hdeductions
  | trans _ _ ih ih' => exact ih' (ih hdeductions)

theorem Chained.installed_built (h : Chained d e e') (hinstalled : e.installed.Built) :
    e'.installed.Built := by
  induction h with
  | noted _ _ hi => exact hi ▸ hinstalled
  | deduce e f t =>
      unfold Engine.deduce
      split <;> exact hinstalled
  | install e r env =>
      unfold Engine.install
      split
      · exact hinstalled
      · rename_i c hcheck
        obtain ⟨hchecked, hback⟩ := CheckedRule.isChecked_specialize hcheck
        split
        · exact hinstalled
        · exact hinstalled.insert hchecked hback
  | trans _ _ ih ih' => exact ih' (ih hinstalled)

theorem Chained.built (h : Chained d e e') (hdeductions : e.deductions.Built)
    (hinstalled : e.installed.Built) : e'.deductions.Built ∧ e'.installed.Built :=
  ⟨h.deductions_built hdeductions, h.installed_built hinstalled⟩

theorem chained_conclude (d : Data) (f : Firing) (e : Engine) (c : Conclusion) :
    Chained d e (conclude d f e c) := by
  cases c with
  | pattern p => exact .deduce e f _
  | rule r => exact .install e r f.env

theorem chained_fire (d : Data) (e : Engine) (f : Firing) : Chained d e (e.fire d f) :=
  List.foldlRecOn _ _ (motive := Chained d e) (.noted rfl rfl rfl) fun _ h c _ =>
    h.trans (chained_conclude d f _ c)

theorem chained_fireAll (d : Data) (fs : List Firing) (e : Engine) :
    Chained d e (fireAll d fs e).1 := by
  induction fs generalizing e with
  | nil => exact .refl e
  | cons f fs ih =>
      unfold fireAll
      split
      · exact .noted rfl rfl rfl
      · exact (chained_fire d e f).trans (ih _)

/-! ## Chaining -/

/-- Chaining has come from an engine to an outcome, and if it was broken off, a
builtin has given up. -/
structure LeadsTo (d : Data) (e : Engine) (o : Outcome) : Prop where
  grown : Chained d e o.engine
  fault : ∀ f ∈ o.fault, f.IsFatal

theorem isFatal_of_mem_none : ∀ f ∈ (none : Option Fault), f.IsFatal :=
  fun _ h => absurd h (Option.not_mem_none _)

theorem LeadsTo.refl (e : Engine) (fresh : Nat) : LeadsTo d e ⟨e, fresh, none⟩ :=
  ⟨.refl e, isFatal_of_mem_none⟩

theorem LeadsTo.after {o : Outcome} (h : Chained d e e') (ho : LeadsTo d e' o) : LeadsTo d e o :=
  ⟨h.trans ho.grown, ho.fault⟩

theorem leadsTo_matchAndFire (d : Data) (e : Engine) (rule : CheckedRule) (rest : List Premise)
    (env : Bindings) (premises : List Triple) (fresh : Nat) :
    LeadsTo d e (e.matchAndFire d rule rest env premises fresh).1 := by
  let m := complete (e.sources d) rule e.record rest env premises (.start fresh)
  let noted : Engine := { e with failures := e.failures ++ m.failures }
  have hfault : ∀ f ∈ m.fault, f.IsFatal := by
    intro f hf
    obtain ⟨b, args, env', fresh', -, hcall⟩ :=
      (exists_call_of_fault hf).resolve_left (Option.not_mem_none f)
    exact CheckedRule.isFatal_of_call hcall
  have hnoted : Chained d e noted := .noted rfl rfl rfl
  unfold matchAndFire
  dsimp only
  split
  · rename_i f heq
    refine ⟨hnoted, ?_⟩
    rintro f' ⟨⟩
    exact hfault f heq
  · exact ⟨hnoted.trans (chained_fireAll d m.firings noted), isFatal_of_mem_none⟩

end Engine

end Forward

end TripleRules
