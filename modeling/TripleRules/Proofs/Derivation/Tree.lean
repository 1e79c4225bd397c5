import Mathlib.Data.List.Dedup
import Mathlib.Data.List.Perm.Subperm
import Mathlib.Data.List.Zip
import TripleRules.Derivation.Tree
import TripleRules.Proofs.Derivation.Log

/-!
# Trees of derivations

A tree unfolds the first derivations of a log from a triple down to its premises, theirs, and so on.
No triple is expanded twice on the way down, and only what has been concluded is expanded at all, so
the way is no longer than there are conclusions, however deep it may go.  A node is left as it is
only if it has no derivation, if it has been expanded above, or at the greatest depth.
-/

namespace TripleRules

namespace DerivationTree

variable {derivations : Triple → List Derivation} {maxDepth : Nat} {path : List Triple}
  {t u : Triple} {tree node : DerivationTree}

def conclusion : DerivationTree → Triple
  | leaf t => t
  | step t _ _ => t

def expanded : DerivationTree → List Triple
  | leaf _ => []
  | step t _ _ => [t]

/-- A node of a tree, with the conclusions expanded above it from the root on. -/
inductive NodeAt (tree : DerivationTree) : List Triple → DerivationTree → Prop where
  | root : NodeAt tree [] tree
  | premise {path : List Triple} {t : Triple} {label : String} {premises : List DerivationTree}
      {p : DerivationTree} (h : NodeAt tree path (step t label premises)) (hp : p ∈ premises) :
      NodeAt tree (path ++ [t]) p

/-! ## Unfolding -/

/-- How a triple unfolds below the triples of a path.  Nothing here counts down: the rules end only
at a triple without a derivation, at one of the path, and where the path is long enough. -/
inductive Unfolds (derivations : Triple → List Derivation) (maxDepth : Nat) :
    List Triple → Triple → DerivationTree → Prop where
  | leaf {path : List Triple} {t : Triple}
      (h : derivations t = [] ∨ t ∈ path ∨ maxDepth ≤ path.length) :
      Unfolds derivations maxDepth path t (leaf t)
  | step {path : List Triple} {t : Triple} {d : Derivation} {ds : List Derivation}
      {premises : List DerivationTree} (hd : derivations t = d :: ds) (hpath : t ∉ path)
      (hdepth : path.length < maxDepth) (hlength : premises.length = d.premises.length)
      (h : ∀ x ∈ d.premises.zip premises, Unfolds derivations maxDepth (path ++ [t]) x.1 x.2) :
      Unfolds derivations maxDepth path t (step t d.rule.label premises)

namespace Unfolds

theorem conclusion_eq (h : Unfolds derivations maxDepth path t tree) : tree.conclusion = t := by
  cases h <;> rfl

theorem grow (derivations : Triple → List Derivation) (depth : Nat) (path : List Triple)
    (t : Triple) :
    Unfolds derivations (path.length + depth) path t (grow derivations depth path t) := by
  induction depth generalizing path t with
  | zero => exact .leaf (.inr (.inr le_rfl))
  | succ depth ih =>
      rw [DerivationTree.grow]
      split
      · rename_i hnone
        exact .leaf (.inl hnone)
      · rename_i d ds hd
        split
        · rename_i hmem
          exact .leaf (.inr (.inl hmem))
        · rename_i hmem
          refine .step hd hmem (by omega) (List.length_map _) fun x hx => ?_
          rw [← List.map_prod_left_eq_zip, List.mem_map] at hx
          obtain ⟨p, -, rfl⟩ := hx
          have hp := ih (path ++ [t]) p
          rw [List.length_append, List.length_singleton, Nat.add_assoc, Nat.add_comm 1] at hp
          exact hp

/-- No other tree unfolds. -/
theorem eq_grow (h : Unfolds derivations maxDepth path t tree) :
    tree = DerivationTree.grow derivations (maxDepth - path.length) path t := by
  induction h with
  | @leaf path t h =>
      cases hdepth : maxDepth - path.length with
      | zero => rfl
      | succ depth =>
          rw [DerivationTree.grow]
          split
          · rfl
          · rename_i d ds hd
            rw [hd] at h
            have hmem : t ∈ path := by
              refine (h.resolve_left (List.cons_ne_nil _ _)).resolve_right ?_
              omega
            rw [if_pos hmem]
  | @step path t d ds premises hd hpath hdepth hlength _ ih =>
      obtain ⟨depth, hdepth'⟩ : ∃ depth, maxDepth - path.length = depth + 1 :=
        Nat.exists_eq_add_one_of_ne_zero (by omega)
      have hrest : maxDepth - (path ++ [t]).length = depth := by
        rw [List.length_append, List.length_singleton]
        omega
      rw [hrest] at ih
      have hpremises :
          premises = d.premises.map (DerivationTree.grow derivations depth (path ++ [t])) :=
        calc premises
          _ = (d.premises.zip premises).map Prod.snd := (List.map_snd_zip hlength.le).symm
          _ = (d.premises.zip premises).map
                (DerivationTree.grow derivations depth (path ++ [t]) ∘ Prod.fst) :=
              List.map_congr_left ih
          _ = d.premises.map (DerivationTree.grow derivations depth (path ++ [t])) := by
              rw [← List.map_map, List.map_fst_zip hlength.ge]
      rw [hdepth', DerivationTree.grow]
      simp only [hd, if_neg hpath, hpremises]

theorem iff_eq_build :
    Unfolds derivations maxDepth [] t tree ↔ tree = build derivations maxDepth t := by
  constructor
  · exact eq_grow
  · rintro rfl
    have hgrow := grow derivations maxDepth [] t
    rw [List.length_nil, Nat.zero_add] at hgrow
    exact hgrow

theorem nodeAt (h : Unfolds derivations maxDepth [] t tree) (hnode : NodeAt tree path node) :
    Unfolds derivations maxDepth path node.conclusion node := by
  induction hnode with
  | root => exact h.conclusion_eq.symm ▸ h
  | @premise path u label premises p _ hp ih =>
      cases ih with
      | step hd hpath hdepth hlength h =>
          rw [← List.map_snd_zip hlength.le, List.mem_map] at hp
          obtain ⟨x, hx, rfl⟩ := hp
          exact (h x hx).conclusion_eq.symm ▸ h x hx

theorem exists_first {label : String} {premises : List DerivationTree}
    (h : Unfolds derivations maxDepth path t (.step u label premises)) :
    ∃ d, (derivations u).head? = some d ∧ label = d.rule.label ∧
      premises.map conclusion = d.premises := by
  cases h with
  | @step _ _ d _ _ hd _ _ hlength h =>
      refine ⟨d, by rw [hd, List.head?_cons], rfl, ?_⟩
      calc premises.map conclusion
        _ = ((d.premises.zip premises).map Prod.snd).map conclusion := by
            rw [List.map_snd_zip hlength.le]
        _ = (d.premises.zip premises).map Prod.fst := by
            rw [List.map_map]
            exact List.map_congr_left fun x hx => (h x hx).conclusion_eq
        _ = d.premises := List.map_fst_zip hlength.ge

theorem eq_leaf_iff (h : Unfolds derivations maxDepth path t node) :
    node = .leaf node.conclusion ↔ derivations node.conclusion = [] ∨ node.conclusion ∈ path ∨
      maxDepth ≤ path.length := by
  cases h with
  | leaf h => exact ⟨fun _ => h, fun _ => rfl⟩
  | step hd hpath hdepth =>
      refine ⟨nofun, fun h => ?_⟩
      rcases h with h | h | h
      · exact absurd (hd.symm.trans h) (List.cons_ne_nil _ _)
      · exact absurd h hpath
      · exact absurd h hdepth.not_ge

end Unfolds

/-! ## The way down -/

structure Way (derivations : Triple → List Derivation) (maxDepth : Nat) (path : List Triple) :
    Prop where
  nodup : path.Nodup
  derived : ∀ t ∈ path, derivations t ≠ []
  length_le : path.length ≤ maxDepth

namespace Way

theorem nil : Way derivations maxDepth [] :=
  ⟨List.nodup_nil, fun _ ht => absurd ht List.not_mem_nil, Nat.zero_le _⟩

theorem push (h : Way derivations maxDepth path) (ht : t ∉ path) (hderived : derivations t ≠ [])
    (hdepth : path.length < maxDepth) : Way derivations maxDepth (path ++ [t]) where
  nodup := List.nodup_append.mpr ⟨h.nodup, List.nodup_singleton t, fun u hu v hv heq =>
    ht (List.mem_singleton.mp hv ▸ heq ▸ hu)⟩
  derived := List.forall_mem_append.mpr ⟨h.derived, List.forall_mem_singleton.mpr hderived⟩
  length_le := by
    rw [List.length_append, List.length_singleton]
    exact hdepth

theorem expanded (h : Way derivations maxDepth path)
    (hnode : Unfolds derivations maxDepth path t node) :
    Way derivations maxDepth (path ++ node.expanded) := by
  cases hnode with
  | leaf => rwa [DerivationTree.expanded, List.append_nil]
  | step hd hpath hdepth => exact h.push hpath (hd ▸ List.cons_ne_nil _ _) hdepth

theorem nodeAt (h : Unfolds derivations maxDepth [] t tree) (hnode : NodeAt tree path node) :
    Way derivations maxDepth path := by
  induction hnode with
  | root => exact nil
  | premise hnode hp ih => exact ih.expanded (h.nodeAt hnode)

theorem length_le_of_subset {concluded : List Triple} (h : Way derivations maxDepth path)
    (hconcluded : ∀ t, derivations t ≠ [] → t ∈ concluded) :
    path.length ≤ concluded.dedup.length :=
  (List.subperm_of_subset h.nodup fun t ht =>
    List.mem_dedup.mpr (hconcluded t (h.derived t ht))).length_le

end Way

/-- A depth that no way reaches does not cut a tree. -/
theorem Unfolds.cap {bound : Nat}
    (hbound : ∀ path, Way derivations maxDepth path → path.length ≤ bound)
    (hway : Way derivations maxDepth path) (h : Unfolds derivations maxDepth path t tree) :
    Unfolds derivations (min maxDepth bound) path t tree := by
  induction h with
  | leaf h => exact .leaf (h.imp_right (Or.imp_right (min_le_left _ _).trans))
  | @step path t d ds premises hd hpath hdepth hlength h ih =>
      have hpush := hway.push hpath (hd ▸ List.cons_ne_nil _ _) hdepth
      have hlt : path.length < bound := by
        have hle := hbound _ hpush
        rw [List.length_append, List.length_singleton] at hle
        exact hle
      exact .step hd hpath (lt_min hdepth hlt) hlength fun x hx => ih x hx hpush

/-! ## Trees over a log -/

/-- The tree of a triple over what has been recorded.  It is what the triple unfolds to, however
deep it may go, and no deeper than there are conclusions.  On the way down to a node no triple is
expanded twice; a node that is expanded has the rule and the premises of the derivation recorded
first; and one that is not has no derivation, has been expanded above, or is at the greatest depth.
-/
theorem build_ofList (ds : List Derivation) (maxDepth : Nat) (t : Triple) :
    (∀ tree, Unfolds (DerivationLog.ofList ds).get maxDepth [] t tree ↔
      tree = build (DerivationLog.ofList ds).get maxDepth t) ∧
    build (DerivationLog.ofList ds).get maxDepth t =
      build (DerivationLog.ofList ds).get
        (min maxDepth (ds.map (·.conclusion)).dedup.length) t ∧
    (build (DerivationLog.ofList ds).get maxDepth t).conclusion = t ∧
    ∀ path node, NodeAt (build (DerivationLog.ofList ds).get maxDepth t) path node →
      (path ++ node.expanded).Nodup ∧
      (path ++ node.expanded).length ≤ min maxDepth (ds.map (·.conclusion)).dedup.length ∧
      (∀ u label premises, node = step u label premises →
        ∃ d, ds.find? (·.conclusion = u) = some d ∧ label = d.rule.label ∧
          premises.map conclusion = d.premises) ∧
      (node = leaf node.conclusion ↔ (∀ d ∈ ds, d.conclusion ≠ node.conclusion) ∨
        node.conclusion ∈ path ∨ path.length = maxDepth) := by
  have hunfolds := Unfolds.iff_eq_build.mpr
    (Eq.refl (build (DerivationLog.ofList ds).get maxDepth t))
  have hbound : ∀ path, Way (DerivationLog.ofList ds).get maxDepth path →
      path.length ≤ (ds.map (·.conclusion)).dedup.length := fun path hway =>
    hway.length_le_of_subset fun u hu => by
      rw [ne_eq, DerivationLog.get_ofList_eq_nil_iff] at hu
      push Not at hu
      exact List.mem_map.mpr hu
  refine ⟨fun tree => Unfolds.iff_eq_build, Unfolds.iff_eq_build.mp (hunfolds.cap hbound .nil),
    hunfolds.conclusion_eq, fun path node hnode => ?_⟩
  have hway := Way.nodeAt hunfolds hnode
  have hnext := hunfolds.nodeAt hnode
  refine ⟨(hway.expanded hnext).nodup,
    le_min (hway.expanded hnext).length_le (hbound _ (hway.expanded hnext)), ?_, ?_⟩
  · rintro u label premises rfl
    obtain ⟨d, hd, hlabel, hpremises⟩ := hnext.exists_first
    exact ⟨d, DerivationLog.head?_get_ofList ds u ▸ hd, hlabel, hpremises⟩
  · rw [hnext.eq_leaf_iff, DerivationLog.get_ofList_eq_nil_iff, hway.length_le.ge_iff_eq',
      eq_comm (a := maxDepth)]

/-! ## An instance -/

def symmetric : Rule :=
  .make [.pattern ⟨.named "x", .iri "near", .named "y"⟩]
    [.pattern ⟨.named "y", .iri "near", .named "x"⟩] .forward

def nearby : Triple := ⟨.iri "a", .iri "near", .iri "b"⟩

def nearbyBack : Triple := ⟨.iri "b", .iri "near", .iri "a"⟩

def cycle : List Derivation :=
  [⟨symmetric, nearby, [nearbyBack]⟩, ⟨symmetric, nearbyBack, [nearby]⟩]

/-- Without a limit that counts, the cycle is cut where it closes. -/
theorem build_cycle :
    build (DerivationLog.ofList cycle).get 18446744073709551615 nearby =
      step nearby symmetric.label [step nearbyBack symmetric.label [leaf nearby]] ∧
    NodeAt (build (DerivationLog.ofList cycle).get 18446744073709551615 nearby)
      [nearby, nearbyBack] (leaf nearby) ∧
    [nearby, nearbyBack].Nodup ∧
    [nearby, nearbyBack].length ≤
      min 18446744073709551615 (cycle.map (·.conclusion)).dedup.length := by
  obtain ⟨-, hdepth, -, hnodes⟩ := build_ofList cycle 18446744073709551615 nearby
  have hbuild : build (DerivationLog.ofList cycle).get 18446744073709551615 nearby =
      step nearby symmetric.label [step nearbyBack symmetric.label [leaf nearby]] := by
    rw [hdepth]
    rfl
  have hleaf : NodeAt (build (DerivationLog.ofList cycle).get 18446744073709551615 nearby)
      [nearby, nearbyBack] (leaf nearby) := by
    rw [hbuild]
    exact .premise (.premise .root List.mem_cons_self) List.mem_cons_self
  obtain ⟨hnodup, hlength, -⟩ := hnodes _ _ hleaf
  exact ⟨hbuild, hleaf, hnodup, hlength⟩

end DerivationTree

end TripleRules
