import TripleRules.Proofs.Tabling.Bounds
import TripleRules.Proofs.Tabling.Measure

/-!
# Every move goes down

The measure is the room that is left, and after it the work that waits.  A way that is taken pays
for all that it can leave in the tables.  An engine that nobody has work for has goals to complete.
-/

namespace TripleRules.Tabling

variable {ctx : Context} {t t' : Tables} {width count : Nat}

/-! ## Taking a way -/

theorem cost_replaceTop {s : Search} {c : ChoicePoint} {below : List ChoicePoint}
    (hstack : s.stack = c :: below) (c' : ChoicePoint) :
    Search.cost width { s with stack := c' :: s.stack.tail } + c.cost width =
      s.cost width + c'.cost width := by
  simp only [Search.cost, hstack, List.tail_cons, List.map_cons, List.sum_cons]
  omega

theorem load_replaceTop {id : GeneratorId} {c c' : ChoicePoint} {below : List ChoicePoint}
    (hstack : (t.generator id).stack = c :: below) (hcount : t.size ≤ count) {k : Nat}
    (hk : c'.cost width + k ≤ c.cost width) :
    (t.replaceTop id c').load width count + k ≤ t.load width count := by
  obtain ⟨s, hs, hstack⟩ := Generator.exists_search_of_stack_eq_cons hstack
  have hload : (t.replaceTop id c').load width count + s.cost width = t.load width count +
      Search.cost width { s with stack := c' :: s.stack.tail } := load_modifySearch hs hcount _
  have hcost : Search.cost width { s with stack := c' :: s.stack.tail } + c.cost width =
      s.cost width + c'.cost width := cost_replaceTop hstack c'
  omega

theorem Takes.load {id : GeneratorId} {w : Option Way} (ht : Takes t id w t')
    (hlinked : Linked t) (hcount : t.size ≤ count)
    (hwidth : ∀ j, (t.generator j).results.size ≤ width) :
    t'.load width count + (1 + (w.map (Way.cost width)).getD 0) ≤ t.load width count := by
  cases ht with
  | fact hstack =>
      apply load_replaceTop hstack hcount
      simp only [ChoicePoint.cost, Way.cost, List.length_cons, Option.map_some, Option.getD_some]
      omega
  | @start r rules below hstack =>
      apply load_replaceTop hstack hcount
      have hway : ((((r.start? (t.generator id).goal).map (Way.cursor r r.body)).map
          (Way.cost width)).getD 0) ≤ bodyCost width r.body := by
        cases r.start? (t.generator id).goal with
        | none => exact Nat.zero_le _
        | some env => exact Nat.le_refl _
      simp only [ChoicePoint.cost, List.map_cons, List.sum_cons, List.length_nil]
      omega
  | @data s x left below hstack =>
      apply load_replaceTop hstack hcount
      have hway : ((((s.env.match? s.pattern x).map s.way).map (Way.cost width)).getD 0) ≤
          bodyCost width s.rest := by
        cases s.env.match? s.pattern x with
        | none => exact Nat.zero_le _
        | some env => exact Nat.le_refl _
      simp only [ChoicePoint.cost, List.length_cons, Nat.succ_mul]
      omega
  | @read f x below hstack hx =>
      have hf := (hlinked.stack id f (by rw [hstack]; exact List.mem_cons_self)).1
      have hnext : (t.frame f).nextResult < width := by
        obtain ⟨hlt, -⟩ := Array.getElem?_eq_some_iff.mp hx
        exact Nat.lt_of_lt_of_le hlt (hwidth _)
      have hload : (t.modifyFrame f fun f => { f with nextResult := f.nextResult + 1 }).load width
          count + (t.frame f).cost width = t.load width count +
            Frame.cost width { t.frame f with nextResult := (t.frame f).nextResult + 1 } :=
        load_modifyFrame hf _
      have hway : (((((t.frame f).continuation.env.match? (t.frame f).continuation.pattern x).map
          (t.frame f).continuation.way).map (Way.cost width)).getD 0) ≤
            bodyCost width (t.frame f).continuation.rest := by
        cases (t.frame f).continuation.env.match? (t.frame f).continuation.pattern x with
        | none => exact Nat.zero_le _
        | some env => exact Nat.le_refl _
      have hcost : (t.frame f).cost width =
          Frame.cost width { t.frame f with nextResult := (t.frame f).nextResult + 1 } +
            (1 + bodyCost width (t.frame f).continuation.rest) := by
        have hone : width - (t.frame f).nextResult =
            (width - ((t.frame f).nextResult + 1)) + 1 := by omega
        simp only [Frame.cost]
        rw [hone, Nat.succ_mul]
      omega

theorem Takes.agenda {id : GeneratorId} {w : Option Way} (ht : Takes t id w t') :
    t'.agenda = t.agenda := by
  cases ht with
  | fact | start | data | read => rfl

theorem Takes.prospect_eq {id : GeneratorId} {w : Option Way} (ht : Takes t id w t')
    (j : GeneratorId) : t'.prospect width j = t.prospect width j := by
  unfold Tables.prospect
  rw [ht.size, ht.results, ht.isComplete_eq]

/-! ## Landing -/

/-- A way that lands brings an answer or a goal, or it has paid for what it leaves. -/
structure Paid (id : GeneratorId) (width count cost : Nat) (t t' : Tables) :
    Prop where
  room : t'.room width count ≤ t.room width count
  results : (t'.generator id).results = (t.generator id).results
  load : t'.room width count < t.room width count ∨
    t'.load width count ≤ t.load width count + cost ∧ t'.agenda = t.agenda

theorem Paid.refl {id : GeneratorId} {cost : Nat} : Paid id width count cost t t :=
  ⟨Nat.le_refl _, rfl, .inr ⟨Nat.le_add_right _ _, rfl⟩⟩

theorem paid_suspended {id : GeneratorId} (hc : (t.generator id).isComplete = false)
    (r : CheckedRule) (p : Triple) (rest : List Premise) (env : Bindings) (premises : List Triple)
    (hcount : (t.generatorFor ctx (env.instantiate p)).2.size ≤ count) :
    Paid id width count (bodyCost width (.pattern p :: rest)) t
      ((t.generatorFor ctx (env.instantiate p)).2.suspend
        (t.generatorFor ctx (env.instantiate p)).1 id ⟨r, env, p, rest, premises⟩) := by
  have hid := Tables.lt_size_of_isComplete_eq_false hc
  have hresults := (results_suspend (t.generatorFor ctx (env.instantiate p)).2
    (t.generatorFor ctx (env.instantiate p)).1 id ⟨r, env, p, rest, premises⟩ id).trans
    (results_generatorFor t ctx (env.instantiate p) hid)
  have hsuspend : ∀ (t₁ : Tables) target j,
      (t₁.suspend target id ⟨r, env, p, rest, premises⟩).prospect width j =
        t₁.prospect width j := by
    intro t₁ target j
    unfold Tables.prospect
    rw [size_suspend, results_suspend, isComplete_suspend]
  rcases t.generatorFor_cases ctx (env.instantiate p) with ⟨target, f, -, heq⟩ | ⟨f, -, heq⟩
  · rw [heq] at hresults hcount ⊢
    have hload : ((t.count f).suspend target id ⟨r, env, p, rest, premises⟩).load width count ≤
        t.load width count + (2 + width * (1 + bodyCost width rest)) :=
      load_suspend (t.count f) target ⟨r, env, p, rest, premises⟩ hc hcount
    refine ⟨room_le fun j => Nat.le_of_eq (hsuspend _ _ j), hresults, .inr ⟨?_, ?_⟩⟩
    · rw [bodyCost]
      dsimp only
      omega
    · exact agenda_suspend _ _ _ _
  · have hsettles :=
      (Tables.settles_count (t.addGenerator ctx (env.instantiate p).normalize) f).trans
      (Tables.settles_enqueue _ t.size)
    rw [heq] at hresults hcount ⊢
    have hsize : t.size < count := by
      rw [hsettles.size, t.size_addGenerator] at hcount
      exact hcount
    have hadd : (t.addGenerator ctx (env.instantiate p).normalize).room width count + 1 ≤
        t.room width count := room_addGenerator t ctx _ hsize
    have hlt : ((((t.addGenerator ctx (env.instantiate p).normalize).count f).enqueue
        t.size).suspend t.size id ⟨r, env, p, rest, premises⟩).room width count <
          t.room width count :=
      calc _ ≤ (((t.addGenerator ctx (env.instantiate p).normalize).count f).enqueue
              t.size).room width count := room_le fun j => Nat.le_of_eq (hsuspend _ _ j)
        _ ≤ (t.addGenerator ctx (env.instantiate p).normalize).room width count :=
          hsettles.room_le
        _ < t.room width count := hadd
    exact ⟨Nat.le_of_lt hlt, hresults, .inl hlt⟩

theorem Lands.pays {id : GeneratorId} {w : Way} (hl : Lands ctx id w t t')
    (hc : (t.generator id).isComplete = false) (hcount : t'.size ≤ count)
    (hwidth : (t'.generator id).results.size ≤ width)
    (hfind : ∀ p, (ctx.sources.find p).length ≤ width) :
    t'.room width count + 2 ≤ t.room width count ∨
      Paid id width count (w.cost width) t t' := by
  induction hl with
  | known | barren => exact .inr .refl
  | @new x t d hnew =>
      left
      have hid := Tables.lt_size_of_isComplete_eq_false hc
      have hsettles := Tables.settles_addResult hnew d
      have hsize : (t.pushAnswer id x).size = t.size := t.size_modifyGenerator id _
      rw [hsettles.results] at hwidth
      rw [hsettles.size, hsize] at hcount
      have hpush : (t.pushAnswer id x).room width count + 2 ≤ t.room width count :=
        room_pushAnswer t hid hcount x hwidth
      have hrest : (t.addResult id x d).2.room width count ≤
          (t.pushAnswer id x).room width count := hsettles.room_le
      omega
  | answer _ _ _ _ ih => exact ih hc hcount hwidth
  | holds _ _ ih => exact ih hc hcount hwidth
  | refused => exact .inr ⟨Nat.le_refl _, rfl, .inr ⟨Nat.le_add_right _ _, rfl⟩⟩
  | @suspended r p rest env premises t _ =>
      right
      rw [size_suspend] at hcount
      exact paid_suspended hc r p rest env premises hcount
  | @opened r p rest env premises t _ =>
      right
      obtain ⟨s, hs⟩ := Generator.exists_search hc
      rw [Tables.pushChoice, Tables.size_modifySearch] at hcount
      have hload : (t.pushChoice id (.data ⟨r, env, p, rest, premises⟩
          (ctx.sources.find (env.instantiate p)))).load width count + s.cost width =
            t.load width count + Search.cost width { s with
              stack := .data ⟨r, env, p, rest, premises⟩ (ctx.sources.find (env.instantiate p)) ::
                s.stack } := load_modifySearch hs hcount _
      have hcost : Search.cost width { s with
          stack := .data ⟨r, env, p, rest, premises⟩ (ctx.sources.find (env.instantiate p)) ::
            s.stack } = s.cost width +
              (1 + (ctx.sources.find (env.instantiate p)).length * (1 + bodyCost width rest)) := by
        simp only [Search.cost, List.map_cons, List.sum_cons, ChoicePoint.cost]
        omega
      have hmul : (ctx.sources.find (env.instantiate p)).length * (1 + bodyCost width rest) ≤
          width * (1 + bodyCost width rest) := Nat.mul_le_mul_right _ (hfind _)
      refine ⟨room_le fun j => Nat.le_of_eq ?_, Tables.results_modifySearch _ _ _ _,
        .inr ⟨?_, rfl⟩⟩
      · unfold Tables.prospect Tables.pushChoice
        rw [Tables.size_modifySearch, Tables.results_modifySearch, Tables.isComplete_modifySearch]
      · rw [Way.cost, bodyCost]
        omega

/-! ## Moves -/

/-- The room that is left, and one more if the turn has brought answers of which their readers have
not been told. -/
def aim (width count : Nat) (t : Tables) (turn : Option Turn) : Nat :=
  t.room width count + (turn.map (Turn.gain t)).getD 0

def toil (width count : Nat) (t : Tables) (turn : Option Turn) : Nat :=
  t.load width count + 2 * t.agenda.length + turn.toList.length

structure Within (ctx : Context) (width count : Nat) (t : Tables) : Prop where
  size : t.size ≤ count
  results : ∀ id, (t.generator id).results.size ≤ width
  find : ∀ p, (ctx.sources.find p).length ≤ width

/-- Less room is left, or no more room and less work. -/
def Descends (width count : Nat) (t : Tables) (turn : Option Turn) (t' : Tables)
    (turn' : Option Turn) : Prop :=
  aim width count t' turn' < aim width count t turn ∨
    aim width count t' turn' ≤ aim width count t turn ∧
      toil width count t' turn' < toil width count t turn

theorem gain_le_one (u : Turn) : u.gain t ≤ 1 := by
  unfold Turn.gain
  split <;> omega

theorem gain_eq {u u' : Turn} (hid : u'.id = u.id) (hbefore : u'.before = u.before)
    (hresults : (t'.generator u.id).results = (t.generator u.id).results) :
    u'.gain t' = u.gain t := by
  rw [Turn.gain, Turn.gain, hid, hbefore, hresults]

theorem Attentive.gain {u : Turn} (h : Attentive t (some u)) (hproduced : 0 < u.produced) :
    u.gain t = 1 := by
  have hcounted := h.counted u rfl
  unfold Turn.gain
  rw [if_pos (by omega)]

theorem cost_blocked (g : Generator) :
    Generator.cost width { g with search := g.search.map ({ · with blocked := true }) } =
      g.cost width := by
  unfold Generator.cost
  cases g.search <;> rfl

theorem descends_of_load {u : Turn} (hprospect : ∀ j, t'.prospect width j = t.prospect width j)
    (hresults : (t'.generator u.id).results = (t.generator u.id).results)
    (hagenda : t'.agenda = t.agenda) (hload : t'.load width count < t.load width count) :
    Descends width count t (some u) t' (some u) := by
  have hroom : t'.room width count ≤ t.room width count :=
    room_le fun j => Nat.le_of_eq (hprospect j)
  have hgain := gain_eq (u := u) rfl rfl hresults
  right
  simp only [aim, toil, Option.map_some, Option.getD_some, hgain, hagenda]
  omega

theorem prospect_modifySearch (t : Tables) (id : GeneratorId) (g : Search → Search)
    (j : GeneratorId) : (t.modifySearch id g).prospect width j = t.prospect width j := by
  unfold Tables.prospect
  rw [Tables.size_modifySearch, Tables.results_modifySearch, Tables.isComplete_modifySearch]

theorem descends_start {id : GeneratorId} {agenda : List GeneratorId}
    (hagenda : t.agenda = id :: agenda) :
    Descends width count t none (t.beginTurn id agenda)
      (some ⟨id, (t.generator id).results.size, 0⟩) := by
  have hsettles := t.settles_beginTurn id agenda
  have hroom : (t.beginTurn id agenda).room width count ≤ t.room width count := hsettles.room_le
  have hload : (t.beginTurn id agenda).load width count = t.load width count := by
    refine load_congr (fun j => ?_) rfl
    apply Tables.modifyGenerator_keeps { t with agenda := agenda } (·.cost width) id
    exact fun _ => rfl
  have hgain : Turn.gain (t.beginTurn id agenda) ⟨id, (t.generator id).results.size, 0⟩ = 0 := by
    unfold Turn.gain
    rw [hsettles.results, if_neg (Nat.lt_irrefl _)]
  have hrest : (t.beginTurn id agenda).agenda = agenda := rfl
  right
  simp only [aim, toil, Option.map_some, Option.getD_some, Option.map_none, Option.getD_none,
    Option.toList_some, Option.toList_none, hgain, hload, hrest, hagenda, List.length_cons,
    List.length_nil]
  omega

theorem descends_of_gain {u : Turn} {S : List GeneratorId} (hs : Settles S t t')
    (hgain : u.gain t = 1) : Descends width count t (some u) t' none := by
  have hroom : t'.room width count ≤ t.room width count := hs.room_le
  left
  simp only [aim, Option.map_some, Option.getD_some, Option.map_none, Option.getD_none, hgain]
  omega

theorem descends_block (hlinked : Linked t) (u : Turn) :
    Descends width count t (some u) (t.blockTurn u) none := by
  have hsettles := Tables.settles_blockTurn hlinked u
  by_cases hgrown : u.before < (t.generator u.id).results.size
  · exact descends_of_gain hsettles (if_pos hgrown)
  · -- nobody is woken, so the load is as before and the turn is over
    have hroom : (t.blockTurn u).room width count ≤ t.room width count := hsettles.room_le
    have heq : t.blockTurn u = t.modifySearch u.id ({ · with blocked := true }) := by
      unfold Tables.blockTurn Tables.notifyReaders
      dsimp only
      rw [t.results_modifySearch, if_pos (Nat.le_of_not_lt hgrown)]
    have hload : (t.blockTurn u).load width count = t.load width count := by
      rw [heq]
      refine load_congr (fun j => ?_) rfl
      apply t.modifyGenerator_keeps (·.cost width) u.id
      exact cost_blocked
    have hagenda : (t.blockTurn u).agenda = t.agenda := by rw [heq, t.agenda_modifySearch]
    right
    simp only [aim, toil, Option.map_none, Option.getD_none, Option.map_some, Option.getD_some,
      Option.toList_some, Option.toList_none, hload, hagenda, List.length_cons, List.length_nil]
    omega

theorem descends_take {u : Turn} {f : FrameId} {ready : List FrameId} (hcount : t.size ≤ count)
    (hstack : (t.generator u.id).stack = []) (hready : (t.generator u.id).ready = f :: ready) :
    Descends width count t (some u) (t.takeReady u.id) (some u) := by
  obtain ⟨s, hs, hready⟩ := Generator.exists_search_of_ready_eq_cons hready
  rw [Generator.stack_of_some hs] at hstack
  have hload : (t.takeReady u.id).load width count + s.cost width = t.load width count +
      Search.cost width { s with
        stack := s.ready.head?.toList.map .consume, ready := s.ready.tail } :=
    load_modifySearch hs hcount _
  have hold : s.cost width = 2 * (ready.length + 1) := by
    simp only [Search.cost, hstack, hready, List.map_nil, List.sum_nil, List.length_cons]
    omega
  have hnew : Search.cost width { s with
      stack := s.ready.head?.toList.map .consume, ready := s.ready.tail } =
          1 + 2 * ready.length := by
    simp only [Search.cost, hready, List.head?_cons, Option.toList_some, List.map_cons,
      List.map_nil, List.sum_cons, List.sum_nil, List.tail_cons, ChoicePoint.cost, Nat.add_zero]
  have hless : (t.takeReady u.id).load width count < t.load width count := by omega
  exact descends_of_load (fun j => prospect_modifySearch t u.id _ j)
    (t.results_modifySearch _ _ _) rfl hless

theorem load_popChoice {id : GeneratorId} {c : ChoicePoint} {below : List ChoicePoint}
    (hstack : (t.generator id).stack = c :: below) (hcount : t.size ≤ count) :
    (t.popChoice id).load width count + c.cost width = t.load width count := by
  obtain ⟨s, hs, hstack⟩ := Generator.exists_search_of_stack_eq_cons hstack
  have hload : (t.popChoice id).load width count + s.cost width = t.load width count +
      Search.cost width { s with stack := s.stack.tail } := load_modifySearch hs hcount _
  have hcost :
      s.cost width = Search.cost width { s with stack := s.stack.tail } + c.cost width := by
    simp only [Search.cost, hstack, List.tail_cons, List.map_cons, List.sum_cons]
    omega
  omega

theorem load_retire {f : FrameId} (hf : f < t.frames.size) :
    (t.retire f).load width count = t.load width count := by
  have hload : (t.retire f).load width count + (t.frame f).cost width = t.load width count +
      Frame.cost width { t.frame f with
        pending := false
        finished := (t.frame f).finished || (t.generator (t.frame f).target).isComplete } :=
    load_modifyFrame hf _
  have hcost : Frame.cost width { t.frame f with
      pending := false
      finished := (t.frame f).finished || (t.generator (t.frame f).target).isComplete } =
        (t.frame f).cost width := rfl
  omega

theorem descends_land (hlinked : Linked t) (hwithin : Within ctx width count t)
    (hwithin' : Within ctx width count t') {u u' : Turn} {t₁ : Tables} {w : Way}
    (ht : Takes t u.id (some w) t₁) (hl : Lands ctx u.id w t₁ t') (hid : u'.id = u.id)
    (hbefore : u'.before = u.before) : Descends width count t (some u) t' (some u') := by
  have hc := (ht.isComplete_eq u.id).trans ht.isComplete
  have htake : t₁.load width count + (1 + w.cost width) ≤ t.load width count :=
    ht.load hlinked hwithin.size hwithin.results
  have hroom : t₁.room width count ≤ t.room width count :=
    room_le fun j => Nat.le_of_eq (ht.prospect_eq j)
  rcases hl.pays hc hwithin'.size (hwithin'.results u.id) hwithin.find with hanswer | hpaid
  · -- the new answer makes up for the readers that are to be told of it
    have hgain : u'.gain t' ≤ 1 := gain_le_one u'
    left
    simp only [aim, Option.map_some, Option.getD_some]
    omega
  · have hgain := gain_eq hid hbefore (hpaid.results.trans (ht.results u.id))
    have hle := hpaid.room
    rcases hpaid.load with hgoal | ⟨hload, hagenda⟩
    · left
      simp only [aim, Option.map_some, Option.getD_some, hgain]
      omega
    · right
      simp only [aim, toil, Option.map_some, Option.getD_some, Option.toList_some,
        List.length_singleton, hgain, hagenda, ht.agenda]
      omega

/-- Every move of an attentive engine goes down. -/
theorem Move.descends {turn turn' : Option Turn} (hm : Move ctx t turn t' turn')
    (hlinked : Linked t) (h : Attentive t turn) (hwithin : Within ctx width count t)
    (hwithin' : Within ctx width count t') : Descends width count t turn t' turn' := by
  cases hm with
  | start hagenda => exact descends_start hagenda
  | @idle u =>
      right
      simp only [aim, toil, Option.map_none, Option.getD_none, Option.toList_none,
        Option.toList_some, List.length_nil, List.length_cons]
      omega
  | @yield u _ hproduced =>
      exact descends_of_gain (Tables.settles_yieldTurn hlinked u) (h.gain hproduced)
  | @block u => exact descends_block hlinked u
  | @finish u hc =>
      have hroom : (t.finishTurn u).room width count < t.room width count :=
        (Tables.settles_finishTurn hlinked u).room_lt (List.mem_singleton_self _) hc hwithin.size
      left
      simp only [aim, Option.map_none, Option.getD_none]
      omega
  | take hstack hready => exact descends_take hwithin.size hstack hready
  | @drop u c below hstack hc =>
      have hload : (t.popChoice u.id).load width count + c.cost width = t.load width count :=
        load_popChoice hstack hwithin.size
      have hcost : 1 ≤ c.cost width := by
        rcases hc with rfl | ⟨s, rfl⟩
        · exact Nat.le_refl 1
        · exact Nat.le_add_right 1 _
      have hless : (t.popChoice u.id).load width count < t.load width count := by omega
      exact descends_of_load (fun j => prospect_modifySearch t u.id _ j)
        (t.results_modifySearch _ _ _) rfl hless
  | @retire u f below hstack =>
      have hf := (hlinked.stack u.id f (by rw [hstack]; exact List.mem_cons_self)).1
      have htop : ((t.retire f).generator u.id).stack = .consume f :: below := hstack
      have hpop : ((t.retire f).popChoice u.id).load width count + 1 =
          (t.retire f).load width count := load_popChoice htop hwithin.size
      have hretire : (t.retire f).load width count = t.load width count := load_retire hf
      have hless : ((t.retire f).popChoice u.id).load width count < t.load width count := by omega
      exact descends_of_load (fun j => prospect_modifySearch (t.retire f) u.id _ j)
        ((t.retire f).results_modifySearch _ _ _) rfl hless
  | pass ht =>
      have hload := ht.load hlinked hwithin.size hwithin.results
      apply descends_of_load (fun j => ht.prospect_eq j) (ht.results _) ht.agenda
      exact Nat.lt_of_lt_of_le (Nat.lt_succ_self _) hload
  | land ht hl hid hbefore _ => exact descends_land hlinked hwithin hwithin' ht hl hid hbefore
  | @check target hagenda hc =>
      obtain ⟨S, htarget, hsettles⟩ := (h.atRest hagenda).checkCompletion hlinked hc
      have hroom : (t.checkCompletion target).room width count < t.room width count :=
        hsettles.room_lt htarget hc hwithin.size
      left
      simp only [aim, Option.map_none, Option.getD_none]
      omega

end TripleRules.Tabling
