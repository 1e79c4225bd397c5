import TripleRules.Proofs.Builtin.Tests
import TripleRules.Rule.Checked

/-!
# Numbering variables

A rule that is built numbers its variables by their names in the order in which they first occur,
also inside the rules nested in its head.  Whatever replaces variables does so occurrence by
occurrence, at every depth.
-/

namespace TripleRules

theorem nodup_eraseDups {α : Type} [DecidableEq α] (l : List α) : l.eraseDups.Nodup := by
  induction l using eraseDups_induction with
  | nil => exact List.nodup_nil
  | cons a l ih =>
      rw [List.eraseDups_cons, List.nodup_cons, List.mem_eraseDups]
      refine ⟨fun ha => ?_, ih⟩
      simpa using (List.mem_filter.mp ha).2

/-! ## Clauses and conclusions -/

namespace Clause

theorem occurrences_mapVars (f : Variable → Term) (c : Clause) :
    (c.mapVars f).occurrences = c.occurrences.flatMap fun v => (f v).occurrences := by
  cases c with
  | pattern t => exact Triple.occurrences_mapVars f t
  | call builtin args =>
      simp [mapVars, occurrences, List.flatMap_map, List.flatMap_assoc, Term.occurrences_mapVars]

theorem mapVars_congr {f g : Variable → Term} (c : Clause)
    (h : ∀ v ∈ c.occurrences, f v = g v) : c.mapVars f = c.mapVars g := by
  cases c with
  | pattern t => exact congrArg pattern (t.mapVars_congr h)
  | call builtin args =>
      refine congrArg (call builtin)
        (List.map_congr_left fun a ha => a.mapVars_congr fun v hv => ?_)
      exact h v (List.mem_flatMap.mpr ⟨a, ha, hv⟩)

theorem mapVars_mapVars (f g : Variable → Term) (c : Clause) :
    (c.mapVars f).mapVars g = c.mapVars fun v => (f v).mapVars g := by
  cases c with
  | pattern t => exact congrArg pattern (Triple.mapVars_mapVars f g t)
  | call builtin args => simp [mapVars, Term.mapVars_mapVars]

theorem flatMap_occurrences_map (f : Variable → Term) (body : List Clause) :
    (body.map (mapVars f)).flatMap occurrences =
      (body.flatMap occurrences).flatMap fun v => (f v).occurrences := by
  simp only [List.flatMap_map, List.flatMap_assoc, occurrences_mapVars]

theorem map_mapVars_congr {f g : Variable → Term} {body : List Clause}
    (h : ∀ v ∈ body.flatMap occurrences, f v = g v) : body.map (mapVars f) = body.map (mapVars g) :=
  List.map_congr_left fun c hc => c.mapVars_congr fun v hv => h v (List.mem_flatMap.mpr ⟨c, hc, hv⟩)

theorem map_mapVars_map (f g : Variable → Term) (body : List Clause) :
    (body.map (mapVars f)).map (mapVars g) = body.map (mapVars fun v => (f v).mapVars g) := by
  rw [List.map_map]
  exact List.map_congr_left fun c _ => mapVars_mapVars f g c

end Clause

namespace Conclusion

mutual

theorem occurrences_mapVars (f : Variable → Term) : (c : Conclusion) →
    (c.mapVars f).occurrences = c.occurrences.flatMap fun v => (f v).occurrences
  | .pattern t => by
    rw [mapVars, occurrences, occurrences, Triple.occurrences_mapVars]
  | .rule (.mk name body head direction slots) => by
    rw [mapVars, occurrences, occurrences, Clause.flatMap_occurrences_map,
      occurrencesAll_mapVarsAll f head, List.flatMap_append]

theorem occurrencesAll_mapVarsAll (f : Variable → Term) : (cs : List Conclusion) →
    occurrencesAll (mapVarsAll f cs) = (occurrencesAll cs).flatMap fun v => (f v).occurrences
  | [] => rfl
  | c :: cs => by
    rw [mapVarsAll, occurrencesAll, occurrencesAll, occurrences_mapVars f c,
      occurrencesAll_mapVarsAll f cs, List.flatMap_append]

end

mutual

theorem mapVars_congr {f g : Variable → Term} : (c : Conclusion) →
    (∀ v ∈ c.occurrences, f v = g v) → c.mapVars f = c.mapVars g
  | .pattern t, h => by
    rw [occurrences] at h
    rw [mapVars, mapVars, t.mapVars_congr h]
  | .rule (.mk name body head direction slots), h => by
    rw [occurrences] at h
    rw [mapVars, mapVars, Clause.map_mapVars_congr fun v hv => h v (List.mem_append_left _ hv),
      mapVarsAll_congr head fun v hv => h v (List.mem_append_right _ hv)]

theorem mapVarsAll_congr {f g : Variable → Term} : (cs : List Conclusion) →
    (∀ v ∈ occurrencesAll cs, f v = g v) → mapVarsAll f cs = mapVarsAll g cs
  | [], _ => rfl
  | c :: cs, h => by
    rw [occurrencesAll] at h
    rw [mapVarsAll, mapVarsAll, mapVars_congr c fun v hv => h v (List.mem_append_left _ hv),
      mapVarsAll_congr cs fun v hv => h v (List.mem_append_right _ hv)]

end

mutual

theorem mapVars_mapVars (f g : Variable → Term) : (c : Conclusion) →
    (c.mapVars f).mapVars g = c.mapVars fun v => (f v).mapVars g
  | .pattern t => by
    rw [mapVars, mapVars, mapVars, Triple.mapVars_mapVars]
  | .rule (.mk name body head direction slots) => by
    rw [mapVars, mapVars, mapVars, Clause.map_mapVars_map, mapVarsAll_mapVarsAll f g head]

theorem mapVarsAll_mapVarsAll (f g : Variable → Term) : (cs : List Conclusion) →
    mapVarsAll g (mapVarsAll f cs) = mapVarsAll (fun v => (f v).mapVars g) cs
  | [] => rfl
  | c :: cs => by
    rw [mapVarsAll, mapVarsAll, mapVarsAll, mapVars_mapVars f g c, mapVarsAll_mapVarsAll f g cs]

end

theorem occurrences_subset {c : Conclusion} {cs : List Conclusion} (h : c ∈ cs) :
    c.occurrences ⊆ occurrencesAll cs := by
  induction cs with
  | nil => cases h
  | cons d cs ih =>
      rw [occurrencesAll]
      rcases List.mem_cons.mp h with rfl | h
      · exact List.subset_append_left _ _
      · exact List.subset_append_of_subset_right _ (ih h)

end Conclusion

/-! ## Rules -/

namespace Rule

/-- A rule as it is built: its variables are numbered, and it may be given a name. -/
def IsMade (r : Rule) : Prop :=
  ∃ body head direction name, r = (make body head direction).withName name

@[simp] theorem body_withName (r : Rule) (name : Option String) :
    (r.withName name).body = r.body := by
  cases r
  rfl

@[simp] theorem head_withName (r : Rule) (name : Option String) :
    (r.withName name).head = r.head := by
  cases r
  rfl

@[simp] theorem slots_withName (r : Rule) (name : Option String) :
    (r.withName name).slots = r.slots := by
  cases r
  rfl

@[simp] theorem direction_withName (r : Rule) (name : Option String) :
    (r.withName name).direction = r.direction := by
  cases r
  rfl

@[simp] theorem name_withName (r : Rule) (name : Option String) :
    (r.withName name).name = name := by
  cases r
  rfl

def occurrences (r : Rule) : List Variable :=
  r.body.flatMap Clause.occurrences ++ Conclusion.occurrencesAll r.head

@[simp] theorem occurrences_withName (r : Rule) (name : Option String) :
    (r.withName name).occurrences = r.occurrences := by
  rw [occurrences, body_withName, head_withName, occurrences]

theorem occurrences_subset_of_mem_head {n r : Rule} (h : .rule n ∈ r.head) :
    n.occurrences ⊆ r.occurrences := by
  have hsub : Conclusion.occurrences (.rule n) ⊆ Conclusion.occurrencesAll r.head :=
    Conclusion.occurrences_subset h
  refine List.Subset.trans ?_ (List.subset_append_of_subset_right _ hsub)
  cases n
  exact List.Subset.refl _

def Numbered (names : List String) (v : Variable) : Prop :=
  v.name ∈ names ∧ v.slot = names.idxOf v.name

theorem Numbered.slot_lt {names : List String} {v : Variable} (h : Numbered names v) :
    v.slot < names.length := by
  rw [h.2]
  exact List.idxOf_lt_length_of_mem h.1

theorem Numbered.eq_of_slot_eq {names : List String} {u v : Variable} (hu : Numbered names u)
    (hv : Numbered names v) (h : u.slot = v.slot) : u = v := by
  have hname : u.name = v.name := by
    rw [hu.2, hv.2] at h
    exact (List.idxOf_inj hu.1).mp h
  cases u
  cases v
  simp_all

theorem Numbered.slot_eq_iff {names : List String} {u v : Variable} (hu : Numbered names u)
    (hv : Numbered names v) : u.slot = v.slot ↔ u.name = v.name := by
  rw [hu.2, hv.2]
  exact List.idxOf_inj hu.1

theorem Numbered.getElem?_slot {names : List String} {v : Variable} (h : Numbered names v) :
    names[v.slot]? = some v.name := by
  rw [h.2]
  exact List.getElem?_idxOf h.1

def renumber (names : List String) (v : Variable) : Variable := ⟨v.name, names.idxOf v.name⟩

theorem numbered_renumber {names : List String} {v : Variable} (h : v.name ∈ names) :
    Numbered names (renumber names v) := ⟨h, rfl⟩

theorem mem_varNames_iff {body : List Clause} {head : List Conclusion} {name : String} :
    name ∈ varNames body head ↔
      ∃ v ∈ body.flatMap Clause.occurrences ++ Conclusion.occurrencesAll head, v.name = name := by
  rw [varNames, List.mem_eraseDups, List.mem_map]

/-- A rule that is built has the variables that it is built from, numbered by their names. -/
theorem occurrences_make (body : List Clause) (head : List Conclusion) (direction : Direction) :
    (make body head direction).occurrences =
      (body.flatMap Clause.occurrences ++ Conclusion.occurrencesAll head).map
        (renumber (varNames body head)) := by
  have hrenumber : ∀ vs : List Variable,
      (vs.flatMap fun v => (slotted (varNames body head) v).occurrences) =
        vs.map (renumber (varNames body head)) := fun vs => List.flatMap_pure_eq_map _ vs
  rw [occurrences, make, Rule.body, Rule.head, Clause.flatMap_occurrences_map,
    Conclusion.occurrencesAll_mapVarsAll, ← List.flatMap_append, hrenumber]

theorem make_numbered (body : List Clause) (head : List Conclusion) (direction : Direction) :
    ∀ v ∈ (make body head direction).occurrences, Numbered (varNames body head) v := by
  intro w hw
  rw [occurrences_make] at hw
  obtain ⟨v, hv, rfl⟩ := List.mem_map.mp hw
  exact numbered_renumber (mem_varNames_iff.mpr ⟨v, hv, rfl⟩)

theorem exists_slot_of_lt (body : List Clause) (head : List Conclusion) (direction : Direction)
    {i : Nat} (hi : i < (make body head direction).slots) :
    ∃ v ∈ (make body head direction).occurrences, v.slot = i := by
  have hlt : i < (varNames body head).length := hi
  obtain ⟨v, hv, hname⟩ := mem_varNames_iff.mp (List.getElem_mem hlt)
  refine ⟨renumber (varNames body head) v, ?_, ?_⟩
  · rw [occurrences_make]
    exact List.mem_map_of_mem hv
  · rw [renumber, hname]
    exact (nodup_eraseDups _).idxOf_getElem i hlt

theorem IsMade.numbered {r : Rule} (h : r.IsMade) :
    ∃ names : List String, r.slots = names.length ∧ ∀ v ∈ r.occurrences, Numbered names v := by
  obtain ⟨body, head, direction, name, rfl⟩ := h
  refine ⟨varNames body head, ?_, ?_⟩
  · rw [slots_withName]
    rfl
  · rw [occurrences_withName]
    exact make_numbered body head direction

end Rule

end TripleRules
