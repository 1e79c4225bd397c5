import TripleRules.Proofs.Rule.Numbering

/-!
# Slots of a rule

Where variables stand in a rule, and what building a rule makes of them.  The slots that variables
come with play no part: rules that differ in nothing else are built alike.  In a rule that is built
the slots of all variables, those in nested rules included, tell them apart by name and leave no
gap, and building it again changes nothing.
-/

namespace TripleRules

variable {v : Variable}

/-! ## Where a variable stands -/

inductive Term.Mentions (v : Variable) : Term → Prop where
  | var : Mentions v (.var v)
  | compound {f : String} {ts : List Term} {t : Term} (hmem : t ∈ ts) (h : Mentions v t) :
      Mentions v (.compound f ts)

inductive Clause.Mentions (v : Variable) : Clause → Prop where
  | pattern {p : Triple} {t : Term} (hmem : t ∈ p.terms) (h : t.Mentions v) :
      Mentions v (.pattern p)
  | call {builtin : String} {args : List Term} {t : Term} (hmem : t ∈ args) (h : t.Mentions v) :
      Mentions v (.call builtin args)

/-- The variable stands in the body of the rule, in a pattern that it concludes, or in a rule nested
in its head. -/
inductive Rule.Mentions (v : Variable) : Rule → Prop where
  | body {r : Rule} {c : Clause} (hmem : c ∈ r.body) (h : c.Mentions v) : Mentions v r
  | head {r : Rule} {p : Triple} {t : Term} (hp : .pattern p ∈ r.head) (hmem : t ∈ p.terms)
      (h : t.Mentions v) : Mentions v r
  | nested {r n : Rule} (hmem : .rule n ∈ r.head) (h : Mentions v n) : Mentions v r

theorem Term.mentions_iff (t : Term) : t.Mentions v ↔ v ∈ t.occurrences := by
  constructor
  · intro h
    induction h with
    | var => exact List.mem_singleton_self v
    | compound hmem _ ih =>
        rw [occurrences, occurrencesAll_eq_flatMap]
        exact List.mem_flatMap.mpr ⟨_, hmem, ih⟩
  · induction t using Term.induct with
    | iri | literal | blank => exact fun h => absurd h List.not_mem_nil
    | var w =>
        intro h
        cases List.mem_singleton.mp h
        exact .var
    | compound f ts ih =>
        intro h
        rw [occurrences, occurrencesAll_eq_flatMap] at h
        obtain ⟨t, ht, hv⟩ := List.mem_flatMap.mp h
        exact .compound ht (ih t ht hv)

theorem Clause.mentions_iff (c : Clause) : c.Mentions v ↔ v ∈ c.occurrences := by
  constructor
  · rintro (⟨hmem, h⟩ | ⟨hmem, h⟩)
    · exact List.mem_flatMap.mpr ⟨_, hmem, (Term.mentions_iff _).mp h⟩
    · exact List.mem_flatMap.mpr ⟨_, hmem, (Term.mentions_iff _).mp h⟩
  · intro h
    cases c with
    | pattern p =>
        obtain ⟨t, ht, hv⟩ := List.mem_flatMap.mp h
        exact .pattern ht ((Term.mentions_iff t).mpr hv)
    | call builtin args =>
        obtain ⟨t, ht, hv⟩ := List.mem_flatMap.mp h
        exact .call ht ((Term.mentions_iff t).mpr hv)

namespace Rule

theorem occurrences_rule (n : Rule) : (Conclusion.rule n).occurrences = n.occurrences := by
  cases n
  rfl

mutual

theorem mentions_of_mem : (r : Rule) → v ∈ r.occurrences → r.Mentions v
  | .mk name body head direction slots, h => by
    rcases List.mem_append.mp h with h | h
    · obtain ⟨c, hc, hv⟩ := List.mem_flatMap.mp h
      exact .body hc (c.mentions_iff.mpr hv)
    · rcases exists_of_mem_occurrencesAll head h with ⟨p, hp, t, ht, hv⟩ | ⟨n, hn, hv⟩
      · exact .head hp ht hv
      · exact .nested hn hv

theorem exists_of_mem_occurrencesAll : (cs : List Conclusion) →
    v ∈ Conclusion.occurrencesAll cs →
      (∃ p, .pattern p ∈ cs ∧ ∃ t ∈ p.terms, t.Mentions v) ∨ ∃ n, .rule n ∈ cs ∧ n.Mentions v
  | [], h => absurd h List.not_mem_nil
  | c :: cs, h => by
    rw [Conclusion.occurrencesAll] at h
    rcases List.mem_append.mp h with h | h
    · cases c with
      | pattern p =>
          rw [Conclusion.occurrences] at h
          obtain ⟨t, ht, hv⟩ := List.mem_flatMap.mp h
          exact .inl ⟨p, List.mem_cons_self, t, ht, t.mentions_iff.mpr hv⟩
      | rule n =>
          rw [occurrences_rule] at h
          exact .inr ⟨n, List.mem_cons_self, mentions_of_mem n h⟩
    · rcases exists_of_mem_occurrencesAll cs h with ⟨p, hp, hv⟩ | ⟨n, hn, hv⟩
      · exact .inl ⟨p, List.mem_cons_of_mem c hp, hv⟩
      · exact .inr ⟨n, List.mem_cons_of_mem c hn, hv⟩

end

theorem mentions_iff (r : Rule) : r.Mentions v ↔ v ∈ r.occurrences := by
  refine ⟨fun h => ?_, mentions_of_mem r⟩
  induction h with
  | body hmem h =>
      exact List.mem_append_left _ (List.mem_flatMap.mpr ⟨_, hmem, (Clause.mentions_iff _).mp h⟩)
  | head hp hmem h =>
      refine List.mem_append_right _ (Conclusion.occurrences_subset hp ?_)
      rw [Conclusion.occurrences]
      exact List.mem_flatMap.mpr ⟨_, hmem, (Term.mentions_iff _).mp h⟩
  | nested hmem _ ih => exact occurrences_subset_of_mem_head hmem ih

end Rule

/-! ## Without slots -/

def Variable.unslotted (v : Variable) : Term := .named v.name

def SameBody (body body' : List Clause) : Prop :=
  body.map (Clause.mapVars Variable.unslotted) = body'.map (Clause.mapVars Variable.unslotted)

def SameHead (head head' : List Conclusion) : Prop :=
  Conclusion.mapVarsAll Variable.unslotted head = Conclusion.mapVarsAll Variable.unslotted head'

namespace Rule

theorem map_name_unslotted (vs : List Variable) :
    (vs.flatMap fun v => v.unslotted.occurrences).map (·.name) = vs.map (·.name) := by
  induction vs with
  | nil => rfl
  | cons v vs ih =>
      rw [List.flatMap_cons, List.map_append, ih]
      rfl

theorem varNames_unslotted (body : List Clause) (head : List Conclusion) :
    varNames (body.map (Clause.mapVars Variable.unslotted))
      (Conclusion.mapVarsAll Variable.unslotted head) = varNames body head := by
  rw [varNames, Clause.flatMap_occurrences_map, Conclusion.occurrencesAll_mapVarsAll,
    ← List.flatMap_append, map_name_unslotted, varNames]

/-- A rule can be built without the slots of what it is built from. -/
theorem make_unslotted (body : List Clause) (head : List Conclusion) (direction : Direction) :
    make (body.map (Clause.mapVars Variable.unslotted))
      (Conclusion.mapVarsAll Variable.unslotted head) direction = make body head direction := by
  rw [make, varNames_unslotted, Clause.map_mapVars_map, Conclusion.mapVarsAll_mapVarsAll]
  rfl

theorem make_congr {body body' : List Clause} {head head' : List Conclusion}
    (hbody : SameBody body body') (hhead : SameHead head head') (direction : Direction) :
    make body head direction = make body' head' direction := by
  rw [← make_unslotted body, hbody, hhead, make_unslotted]

theorem sameBody_make (body : List Clause) (head : List Conclusion) (direction : Direction) :
    SameBody (make body head direction).body body := by
  rw [SameBody, make, Rule.body, Clause.map_mapVars_map]
  rfl

theorem sameHead_make (body : List Clause) (head : List Conclusion) (direction : Direction) :
    SameHead (make body head direction).head head := by
  rw [SameHead, make, Rule.head, Conclusion.mapVarsAll_mapVarsAll]
  rfl

/-- A rule is built from a body and a head by giving slots to their variables, whatever slots these
have: the same ones to those of the same name at every depth, and all of them from zero on.  A rule
that has been built is built from itself. -/
theorem make_slots (body : List Clause) (head : List Conclusion) (direction : Direction) :
    (∀ u v, (make body head direction).Mentions u → (make body head direction).Mentions v →
      (u.slot = v.slot ↔ u.name = v.name)) ∧
    (∀ i, i < (make body head direction).slots ↔
      ∃ v, (make body head direction).Mentions v ∧ v.slot = i) ∧
    (SameBody (make body head direction).body body ∧
      SameHead (make body head direction).head head) ∧
    (∀ body' head', SameBody body' body → SameHead head' head →
      make body' head' direction = make body head direction) ∧
    make (make body head direction).body (make body head direction).head
      (make body head direction).direction = make body head direction := by
  have hnumbered := make_numbered body head direction
  have hbody := sameBody_make body head direction
  have hhead := sameHead_make body head direction
  refine ⟨fun u v hu hv => ?_, fun i => ⟨fun hi => ?_, ?_⟩, ⟨hbody, hhead⟩,
    fun _ _ hbody' hhead' => make_congr hbody' hhead' direction, make_congr hbody hhead direction⟩
  · rw [mentions_iff] at hu hv
    exact (hnumbered u hu).slot_eq_iff (hnumbered v hv)
  · obtain ⟨v, hv, hslot⟩ := exists_slot_of_lt body head direction hi
    exact ⟨v, (mentions_iff _).mpr hv, hslot⟩
  · rintro ⟨v, hv, rfl⟩
    rw [mentions_iff] at hv
    exact (hnumbered v hv).slot_lt

/-! ## An instance -/

def likesBody (i j : Nat) : List Clause :=
  [.pattern ⟨.var ⟨"x", i⟩, .iri "likes", .compound "some" [.var ⟨"y", j⟩]⟩,
    .call "notEqual" [.var ⟨"y", i⟩, .var ⟨"x", j⟩]]

def likesHead : List Conclusion :=
  [.rule (make [.pattern ⟨.named "z", .named "way", .named "x"⟩]
    [.pattern ⟨.named "z", .iri "likes", .named "y"⟩] .backward)]

/-- The slots do not count, all four variables have one, and one of them has the first everywhere.
-/
theorem likes_slots :
    make (likesBody 7 2) likesHead .forward = make (likesBody 0 0) likesHead .forward ∧
    (∃ v, (make (likesBody 0 0) likesHead .forward).Mentions v ∧ v.slot = 3) ∧
    ∀ v, (make (likesBody 0 0) likesHead .forward).Mentions v → (v.slot = 0 ↔ v.name = "x") := by
  obtain ⟨hnames, hslots, -, hcongr, -⟩ := make_slots (likesBody 0 0) likesHead .forward
  have hx : (make (likesBody 0 0) likesHead .forward).Mentions ⟨"x", 0⟩ :=
    (mentions_iff _).mpr (by decide +kernel)
  exact ⟨hcongr _ _ rfl rfl, (hslots 3).mp (by decide +kernel),
    fun v hv => hnames v _ hv hx⟩

end Rule

end TripleRules
