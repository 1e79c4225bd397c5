import TripleRules.Proofs.Forward.Matching
import TripleRules.Proofs.Rule.Explanation

/-!
# Assignments

A body that has been completed assigns a triple to each of its patterns.  Whatever the calls of the
body do, values that are bound are kept, so the triples are those that have been read; and no
assignment comes up twice when a body is completed from given bindings.
-/

namespace TripleRules

/-! ## Values that are kept -/

namespace Bindings

variable {b b' c : Bindings}

theorem Keeps.refl (b : Bindings) : b.Keeps b := fun _ _ h => h

theorem Keeps.trans (h : b.Keeps b') (h' : b'.Keeps c) : b.Keeps c := fun i t ht =>
  h' i t (h i t ht)

theorem bind_keeps {v : Variable} {x : Term} (h : b.bind v x = .ok b') : b.Keeps b' := by
  unfold bind at h
  split at h
  · cases h
  · rename_i hv
    cases h
    intro i t ht
    rw [Has, List.getElem?_set_ne (by rintro rfl; rw [Has, hv] at ht; cases ht)]
    exact ht
  · split at h
    · cases h
      exact .refl b
    · cases h

theorem accept_keeps {resolved : List Term} {values : List (Nat × Term)}
    (h : b.accept resolved values = some b') : b.Keeps b' := by
  induction values generalizing b with
  | nil => cases h; exact .refl _
  | cons x values ih =>
      rcases accept_cons_iff.mp h with ⟨v, c, -, hbind, h⟩ | ⟨-, -, h⟩
      · exact (bind_keeps hbind).trans (ih h)
      · exact ih h

end Bindings

namespace CheckedRule

theorem call_keeps {r : CheckedRule} {b : Builtin} {args : List Term} {env env' : Bindings}
    {fresh : Nat} (h : (r.call b args env fresh).1 = .holds env') : env.Keeps env' :=
  have ⟨_, _, haccept⟩ := call_holds_iff.mp h
  Bindings.accept_keeps haccept

/-! ## Assignments -/

def placedPatterns (r : CheckedRule) : List (Nat × Triple) :=
  r.body.zipIdx.filterMap fun
    | (.pattern p, i) => some (i, p)
    | (.call .., _) => none

/-- The triples that bindings assign to the patterns of the body. -/
def assignment (r : CheckedRule) (env : Bindings) : List (Nat × Triple) :=
  r.placedPatterns.map fun (i, p) => (i, env.instantiate p)

theorem mem_placedPatterns {r : CheckedRule} {i : Nat} {p : Triple} :
    (i, p) ∈ r.placedPatterns ↔ r.body[i]? = some (.pattern p) := by
  rw [placedPatterns, List.mem_filterMap]
  constructor
  · rintro ⟨⟨c, j⟩, hmem, heq⟩
    cases c with
    | pattern q =>
        cases heq
        exact List.mem_zipIdx_iff_getElem?.mp hmem
    | call b args => cases heq
  · exact fun h => ⟨(.pattern p, i), List.mem_zipIdx_iff_getElem?.mpr h, rfl⟩

theorem mem_assignment {r : CheckedRule} {env : Bindings} {i : Nat} {t : Triple} :
    (i, t) ∈ r.assignment env ↔ ∃ p, r.body[i]? = some (.pattern p) ∧ env.instantiate p = t := by
  simp only [assignment, List.mem_map, Prod.exists, Prod.mk.injEq, mem_placedPatterns]
  constructor
  · rintro ⟨j, p, hp, rfl, ht⟩
    exact ⟨p, hp, ht⟩
  · rintro ⟨p, hp, ht⟩
    exact ⟨i, p, hp, rfl, ht⟩

/-- Bindings with the same assignment make the same of every pattern. -/
theorem instantiate_eq_of_assignment_eq {r : CheckedRule} {env env' : Bindings}
    (h : r.assignment env = r.assignment env') {p : Triple} (hp : .pattern p ∈ r.body) :
    env.instantiate p = env'.instantiate p := by
  obtain ⟨i, hi⟩ := List.mem_iff_getElem?.mp hp
  exact (Prod.mk.inj (List.map_inj_left.mp h (i, p) (mem_placedPatterns.mpr hi))).2

end CheckedRule

namespace Forward

/-! ## What is completed -/

structure Firing.Fits (f : Firing) (sources : Sources) (r : CheckedRule) (rest : List Premise)
    (env : Bindings) : Prop where
  rule : f.rule = r
  keeps : env.Keeps f.env
  known : ∀ p, .pattern p ∈ rest → sources.contains (f.env.instantiate p)

/-- From one matching to a later one: in addition bodies of a kind, told apart by a key. -/
def Matching.Finds {α : Type} (P : Firing → Prop) (key : Firing → α) (m m' : Matching) : Prop :=
  ∃ fs, m'.firings = m.firings ++ fs ∧ (∀ f ∈ fs, P f) ∧ (fs.map key).Nodup

namespace Matching

variable {α β : Type} {P Q : Firing → Prop} {key : Firing → α} {m m' : Matching}

theorem Finds.none (P : Firing → Prop) (key : Firing → α) (hfirings : m'.firings = m.firings) :
    Finds P key m m' :=
  ⟨[], by rw [hfirings, List.append_nil], by simp, .nil⟩

theorem Finds.imp (h : Finds P key m m') (hPQ : ∀ f, P f → Q f) : Finds Q key m m' :=
  have ⟨fs, hfirings, hall, hnodup⟩ := h
  ⟨fs, hfirings, fun f hf => hPQ f (hall f hf), hnodup⟩

theorem Finds.refine {key' : Firing → β} (h : Finds P key m m')
    (hkey : ∀ f g, P f → P g → key' f = key' g → key f = key g) : Finds P key' m m' := by
  obtain ⟨fs, hfirings, hall, hnodup⟩ := h
  refine ⟨fs, hfirings, hall, List.pairwise_map.mpr ?_⟩
  exact (List.pairwise_map.mp hnodup).imp_of_mem fun hf hg hne heq =>
    hne (hkey _ _ (hall _ hf) (hall _ hg) heq)

theorem Finds.foldl {step : Matching → Triple → Matching} {P : Triple → Firing → Prop}
    {ts : List Triple} (hts : ts.Nodup) (hstep : ∀ m, ∀ t ∈ ts, Finds (P t) key m (step m t))
    (hapart : ∀ t u f g, P t f → P u g → key f = key g → t = u) (m : Matching) :
    Finds (fun f => ∃ t ∈ ts, P t f) key m (ts.foldl step m) := by
  induction ts generalizing m with
  | nil => exact .none _ _ rfl
  | cons t ts ih =>
      obtain ⟨hnew, hts⟩ := List.nodup_cons.mp hts
      obtain ⟨fs, hfs, hP, hnodup⟩ := hstep m t List.mem_cons_self
      obtain ⟨gs, hgs, hQ, hnodup'⟩ :=
        ih hts (fun m u hu => hstep m u (List.mem_cons_of_mem _ hu)) (step m t)
      refine ⟨fs ++ gs, ?_, fun f hf => ?_, ?_⟩
      · rw [List.foldl_cons, hgs, hfs, List.append_assoc]
      · rcases List.mem_append.mp hf with hf | hf
        · exact ⟨t, List.mem_cons_self, hP f hf⟩
        · obtain ⟨u, hu, hf⟩ := hQ f hf
          exact ⟨u, List.mem_cons_of_mem _ hu, hf⟩
      · rw [List.map_append]
        refine hnodup.append hnodup' fun k hk hk' => ?_
        obtain ⟨f, hf, rfl⟩ := List.mem_map.mp hk
        obtain ⟨g, hg, heq⟩ := List.mem_map.mp hk'
        obtain ⟨u, hu, hg⟩ := hQ g hg
        exact hnew (hapart t u f g (hP f hf) hg heq.symm ▸ hu)

end Matching

section Complete

variable {sources : Sources} {r : CheckedRule} {record : Bool} {rest : List Premise}
  {env env' : Bindings} {f : Firing} {p t : Triple}

theorem Firing.Fits.of_match? (h : f.Fits sources r rest env') (ht : sources.contains t)
    (hmatch : env.match? p t = some env') :
    f.env.instantiate p = t ∧ f.Fits sources r (.pattern p :: rest) env := by
  obtain ⟨hext, hinst, hground⟩ := Bindings.match?_some hmatch
  have hkept : f.env.instantiate p = t := by
    rw [h.keeps.instantiate_eq (hinst ▸ hground), hinst]
  refine ⟨hkept, h.rule, Bindings.Keeps.trans hext.keeps h.keeps, fun q hq => ?_⟩
  rcases List.mem_cons.mp hq with heq | hq
  · cases heq
    rwa [hkept]
  · exact h.known q hq

theorem Firing.Fits.of_call {b : Builtin} {args : List Term} {fresh : Nat}
    (h : f.Fits sources r rest env') (hcall : (r.call b args env fresh).1 = .holds env') :
    f.Fits sources r (.call b args :: rest) env := by
  refine ⟨h.rule, (CheckedRule.call_keeps hcall).trans h.keeps, fun q hq => h.known q ?_⟩
  exact (List.mem_cons.mp hq).resolve_left Premise.noConfusion

/-- The bodies that are completed from given bindings differ in what has become of the patterns. -/
theorem complete_finds (hs : sources.Built) (premises : List Triple) (m : Matching) :
    m.Finds (·.Fits sources r rest env) (fun f => (patternsOf rest).map f.env.instantiate)
      (complete sources r record rest env premises m) := by
  induction rest generalizing env premises m with
  | nil =>
      refine ⟨[⟨r, env, premises⟩], rfl, fun f hf => ?_, List.nodup_singleton _⟩
      rw [List.mem_singleton.mp hf]
      exact ⟨rfl, .refl env, fun p hp => absurd hp List.not_mem_nil⟩
  | cons c rest ih =>
      cases c with
      | pattern p =>
          rw [complete_pattern]
          refine (Matching.Finds.foldl
            (P := fun t f => f.env.instantiate p = t ∧ f.Fits sources r (.pattern p :: rest) env)
            (hs.nodup_find (env.instantiate p)) ?_ ?_ m).imp fun f ⟨_, _, _, hf⟩ => hf
          · intro m t ht
            have hin : sources.contains t := ((hs.mem_find _ t).mp ht).1
            unfold visit
            split
            · exact .none _ _ rfl
            · split
              · exact .none _ _ rfl
              · rename_i env' hmatch
                exact ((ih _ m).imp fun f hf => hf.of_match? hin hmatch).refine
                  fun f g _ _ hkey => (List.cons.inj hkey).2
          · rintro t u f g ⟨rfl, -⟩ ⟨rfl, -⟩ hkey
            exact (List.cons.inj hkey).1
      | call b args =>
          rw [complete]
          split
          · rename_i env' fresh hcall
            exact (ih premises { m with fresh := fresh }).imp fun f hf =>
              hf.of_call (congrArg Prod.fst hcall)
          · exact .none _ _ rfl
          · exact .none _ _ rfl
          · exact .none _ _ rfl

end Complete

end Forward

end TripleRules
