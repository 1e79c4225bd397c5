import TripleRules.Proofs.Tabling.Answers
import TripleRules.Proofs.Tabling.Discipline

/-!
# Coverage

No way to an answer is lost.  A way of a goal is open as long as a choice offers it; after that it
is done: its triple is an answer, or its rule has given its answer, is suspended in a frame, or goes
on from a choice.  A move takes at most one way from the open ones, and that way is done when it
lands.
-/

namespace TripleRules.Tabling

def ChoicePoint.Offers (goal : Triple) : ChoicePoint → Way → Prop
  | .alternatives facts _, .fact x => x ∈ facts
  | .alternatives _ rules, .cursor r rest env =>
      r ∈ rules ∧ rest = r.body ∧ r.start? goal = some env
  | .data s left, .cursor r rest env =>
    r = s.rule ∧ rest = s.rest ∧ ∃ x ∈ left, s.env.match? s.pattern x = some env
  | _, _ => False

def Offered (t : Tables) (id : GeneratorId) (w : Way) : Prop :=
  ∃ c ∈ (t.generator id).stack, c.Offers (t.generator id).goal w

variable (ctx : Context)

/-- A rule of a goal has been taken on from some clause: it has given its answer, waits in a frame,
or the triples at hand have been read or will be. -/
def Handled (t : Tables) (id : GeneratorId) (r : CheckedRule) : List Premise → Bindings → Prop
  | [], env => ∀ head, r.headPattern? = some head → (env.instantiate head).isGround →
      (t.generator id).goal.matches? (env.instantiate head) →
      env.instantiate head ∈ (t.generator id).results
  | .call b args :: rest, env =>
    (∀ f fresh, (r.call b args env fresh).1 ≠ .fault f) ∧
    ∀ env' fresh, (r.call b args env fresh).1 = .holds env' → Handled t id r rest env'
  | .pattern p :: rest, env =>
    (ctx.rules.isTabled (env.instantiate p) →
      ∃ f < t.frames.size, (t.frame f).owner = id ∧
        ∃ premises, (t.frame f).continuation = ⟨r, env, p, rest, premises⟩) ∧
    (ctx.rules.isTabled (env.instantiate p) = false →
      ∀ x ∈ ctx.sources.find (env.instantiate p), ∀ env', env.match? p x = some env' →
        Handled t id r rest env' ∨ Offered t id (.cursor r rest env'))

def Done (t : Tables) (id : GeneratorId) : Way → Prop
  | .fact x => x ∈ (t.generator id).results
  | .cursor r rest env => Handled ctx t id r rest env

/-- Every way to an answer is open or done. -/
structure Covered (t : Tables) : Prop where
  fact : ∀ id < t.size, ∀ x ∈ ctx.sources.find (t.generator id).goal,
    Done ctx t id (.fact x) ∨ Offered t id (.fact x)
  rule : ∀ id < t.size, ∀ r ∈ ctx.rules.candidates (t.generator id).goal, ∀ env,
    r.start? (t.generator id).goal = some env →
      Done ctx t id (.cursor r r.body env) ∨ Offered t id (.cursor r r.body env)
  read : ∀ f < t.frames.size, ∀ i < (t.frame f).nextResult,
    ∃ x, (t.generator (t.frame f).target).results[i]? = some x ∧
      ∀ env, (t.frame f).continuation.env.match? (t.frame f).continuation.pattern x = some env →
        Done ctx t (t.frame f).owner ((t.frame f).continuation.way env)

/-- The tables grow, and no open way is lost but those in `W`. -/
structure Advances (W : GeneratorId → Way → Prop) (t t' : Tables) : Prop where
  size : t.size ≤ t'.size
  frames : t.frames.size ≤ t'.frames.size
  goal : ∀ id < t.size, (t'.generator id).goal = (t.generator id).goal
  results : ∀ id < t.size, ∀ (i : Nat) x, (t.generator id).results[i]? = some x →
    (t'.generator id).results[i]? = some x
  target : ∀ f < t.frames.size, (t'.frame f).target = (t.frame f).target
  owner : ∀ f < t.frames.size, (t'.frame f).owner = (t.frame f).owner
  continuation : ∀ f < t.frames.size, (t'.frame f).continuation = (t.frame f).continuation
  offered : ∀ id < t.size, ∀ w, Offered t id w → Offered t' id w ∨ W id w
  read : ∀ f < t.frames.size, ∀ i < (t'.frame f).nextResult, i < (t.frame f).nextResult ∨
    ∃ x, (t'.generator (t.frame f).target).results[i]? = some x ∧
      ∀ env, (t.frame f).continuation.env.match? (t.frame f).continuation.pattern x = some env →
        W (t.frame f).owner ((t.frame f).continuation.way env)
  newFact : ∀ id < t'.size, t.size ≤ id → ∀ x ∈ ctx.sources.find (t'.generator id).goal,
    Offered t' id (.fact x)
  newRule : ∀ id < t'.size, t.size ≤ id → ∀ r ∈ ctx.rules.candidates (t'.generator id).goal, ∀ env,
    r.start? (t'.generator id).goal = some env → Offered t' id (.cursor r r.body env)
  newFrame : ∀ f < t'.frames.size, t.frames.size ≤ f → (t'.frame f).nextResult = 0

variable {ctx}

namespace Advances

variable {W W' : GeneratorId → Way → Prop} {t t' t'' : Tables}

theorem mem_results (h : Advances ctx W t t') {id : GeneratorId} (hid : id < t.size) {x : Triple}
    (hx : x ∈ (t.generator id).results) : x ∈ (t'.generator id).results := by
  obtain ⟨i, hi⟩ := Array.mem_iff_getElem?.mp hx
  exact Array.mem_of_getElem? (h.results id hid i x hi)

theorem handled (h : Advances ctx W t t') (hW : ∀ id w, W id w → Done ctx t' id w)
    {id : GeneratorId} (hid : id < t.size) {r : CheckedRule} {rest : List Premise} {env : Bindings}
    (hr : Handled ctx t id r rest env) : Handled ctx t' id r rest env := by
  induction rest generalizing env with
  | nil =>
      intro head hhead hground hgoal
      rw [h.goal id hid] at hgoal
      exact h.mem_results hid (hr head hhead hground hgoal)
  | cons q rest ih =>
      cases q with
      | call b args => exact ⟨hr.1, fun env' fresh hcall => ih (hr.2 env' fresh hcall)⟩
      | pattern p =>
          refine ⟨fun htabled => ?_, fun hplain x hx env' hmatch => ?_⟩
          · obtain ⟨f, hf, howner, premises, hcont⟩ := hr.1 htabled
            refine ⟨f, Nat.lt_of_lt_of_le hf h.frames, ?_, premises, ?_⟩
            · rw [h.owner f hf, howner]
            · rw [h.continuation f hf, hcont]
          · rcases hr.2 hplain x hx env' hmatch with hdone | hopen
            · exact .inl (ih hdone)
            · rcases h.offered id hid _ hopen with hopen | hW'
              · exact .inr hopen
              · exact .inl (hW id _ hW')

theorem done (h : Advances ctx W t t') (hW : ∀ id w, W id w → Done ctx t' id w)
    {id : GeneratorId} (hid : id < t.size) {w : Way} (hw : Done ctx t id w) :
    Done ctx t' id w := by
  cases w with
  | fact x => exact h.mem_results hid hw
  | cursor r rest env => exact h.handled hW hid hw

theorem covered (h : Advances ctx W t t') (hlinked : Linked t)
    (hW : ∀ id w, W id w → Done ctx t' id w) (hc : Covered ctx t) : Covered ctx t' := by
  have hold : ∀ id < t.size, ∀ w, Done ctx t id w ∨ Offered t id w →
      Done ctx t' id w ∨ Offered t' id w := by
    intro id hid w hw
    rcases hw with hdone | hopen
    · exact .inl (h.done hW hid hdone)
    · rcases h.offered id hid w hopen with hopen | hW'
      · exact .inr hopen
      · exact .inl (hW id w hW')
  refine ⟨fun id hid x hx => ?_, fun id hid r hr env hstart => ?_, fun f hf i hi => ?_⟩
  · by_cases hlt : id < t.size
    · rw [h.goal id hlt] at hx
      exact hold id hlt _ (hc.fact id hlt x hx)
    · exact .inr (h.newFact id hid (Nat.le_of_not_lt hlt) x hx)
  · by_cases hlt : id < t.size
    · rw [h.goal id hlt] at hr hstart
      exact hold id hlt _ (hc.rule id hlt r hr env hstart)
    · exact .inr (h.newRule id hid (Nat.le_of_not_lt hlt) r hr env hstart)
  · by_cases hlt : f < t.frames.size
    · rw [h.target f hlt, h.owner f hlt, h.continuation f hlt]
      rcases h.read f hlt i hi with hi | ⟨x, hx, hW'⟩
      · obtain ⟨x, hx, hdone⟩ := hc.read f hlt i hi
        refine ⟨x, h.results _ (hlinked.target_lt f hlt) i x hx, fun env hmatch => ?_⟩
        exact h.done hW (hlinked.owner_lt f hlt) (hdone env hmatch)
      · exact ⟨x, hx, fun env hmatch => hW _ _ (hW' env hmatch)⟩
    · rw [h.newFrame f hf (Nat.le_of_not_lt hlt)] at hi
      exact absurd hi (Nat.not_lt_zero i)

theorem trans (h : Advances ctx W t t') (h' : Advances ctx (fun _ _ => False) t' t'')
    (hnext : ∀ f < t'.frames.size, (t''.frame f).nextResult = (t'.frame f).nextResult)
    (hlinked : Linked t) : Advances ctx W t t'' where
  size := h.size.trans h'.size
  frames := h.frames.trans h'.frames
  goal id hid := (h'.goal id (Nat.lt_of_lt_of_le hid h.size)).trans (h.goal id hid)
  results id hid i x hx :=
    h'.results id (Nat.lt_of_lt_of_le hid h.size) i x (h.results id hid i x hx)
  target f hf := (h'.target f (Nat.lt_of_lt_of_le hf h.frames)).trans (h.target f hf)
  owner f hf := (h'.owner f (Nat.lt_of_lt_of_le hf h.frames)).trans (h.owner f hf)
  continuation f hf :=
    (h'.continuation f (Nat.lt_of_lt_of_le hf h.frames)).trans (h.continuation f hf)
  offered id hid w hw := by
    rcases h.offered id hid w hw with hw | hw
    · exact .inl ((h'.offered id (Nat.lt_of_lt_of_le hid h.size) w hw).resolve_right not_false)
    · exact .inr hw
  read f hf i hi := by
    rw [hnext f (Nat.lt_of_lt_of_le hf h.frames)] at hi
    rcases h.read f hf i hi with hi | ⟨x, hx, hW⟩
    · exact .inl hi
    · exact .inr ⟨x, h'.results _ (Nat.lt_of_lt_of_le (hlinked.target_lt f hf) h.size) i x hx, hW⟩
  newFact j hj hle x hx := by
    by_cases hlt : j < t'.size
    · rw [h'.goal j hlt] at hx
      exact (h'.offered j hlt _ (h.newFact j hlt hle x hx)).resolve_right not_false
    · exact h'.newFact j hj (Nat.le_of_not_lt hlt) x hx
  newRule j hj hle r hr env hstart := by
    by_cases hlt : j < t'.size
    · rw [h'.goal j hlt] at hr hstart
      exact (h'.offered j hlt _ (h.newRule j hlt hle r hr env hstart)).resolve_right not_false
    · exact h'.newRule j hj (Nat.le_of_not_lt hlt) r hr env hstart
  newFrame f hf hle := by
    by_cases hlt : f < t'.frames.size
    · rw [hnext f hlt]
      exact h.newFrame f hlt hle
    · exact h'.newFrame f hf (Nat.le_of_not_lt hlt)

theorem of_frame (hsize : t'.size = t.size) (hframes : t'.frames.size = t.frames.size)
    (hgoal : ∀ id, (t'.generator id).goal = (t.generator id).goal)
    (hresults : ∀ id, id < t.size → ∀ (i : Nat) x, (t.generator id).results[i]? = some x →
      (t'.generator id).results[i]? = some x)
    (htarget : ∀ f, (t'.frame f).target = (t.frame f).target)
    (howner : ∀ f, (t'.frame f).owner = (t.frame f).owner)
    (hcontinuation : ∀ f, (t'.frame f).continuation = (t.frame f).continuation)
    (hoffered : ∀ id, ∀ w, Offered t id w → Offered t' id w ∨ W id w)
    (hread : ∀ f < t.frames.size, ∀ i < (t'.frame f).nextResult, i < (t.frame f).nextResult ∨
      ∃ x, (t'.generator (t.frame f).target).results[i]? = some x ∧
        ∀ env, (t.frame f).continuation.env.match? (t.frame f).continuation.pattern x = some env →
          W (t.frame f).owner ((t.frame f).continuation.way env)) : Advances ctx W t t' where
  size := Nat.le_of_eq hsize.symm
  frames := Nat.le_of_eq hframes.symm
  goal id _ := hgoal id
  results := hresults
  target f _ := htarget f
  owner f _ := howner f
  continuation f _ := hcontinuation f
  offered id _ := hoffered id
  read := hread
  newFact id hid hle := absurd hid (by rw [hsize]; exact Nat.not_lt_of_le hle)
  newRule id hid hle := absurd hid (by rw [hsize]; exact Nat.not_lt_of_le hle)
  newFrame f hf hle := absurd hf (by rw [hframes]; exact Nat.not_lt_of_le hle)

theorem modifySearch {id : GeneratorId} {s : Search} (hs : (t.generator id).search = some s)
    (g : Search → Search)
    (hstack : ∀ c ∈ s.stack, ∀ w, c.Offers (t.generator id).goal w →
      (∃ c' ∈ (g s).stack, c'.Offers (t.generator id).goal w) ∨ W id w) :
    Advances ctx W t (t.modifySearch id g) := by
  apply of_frame
  case hsize => exact t.size_modifySearch id g
  case hframes | htarget | howner | hcontinuation => intros; rfl
  case hgoal => exact t.goal_modifySearch id g
  case hresults =>
    intro j _ i x hx
    rw [t.results_modifySearch]
    exact hx
  case hread => exact fun _ _ _ hi => .inl hi
  case hoffered =>
    rintro j w ⟨c, hc, hoffers⟩
    unfold Offered
    rw [t.goal_modifySearch]
    by_cases hj : j = id
    · subst hj
      rw [Tables.stack_modifySearch_self hs]
      rw [Generator.stack_of_some hs] at hc
      exact hstack c hc w hoffers
    · rw [t.stack_modifySearch_of_ne g hj]
      exact .inl ⟨c, hc, hoffers⟩

theorem popChoice {id : GeneratorId} {c : ChoicePoint} {below : List ChoicePoint}
    (hstack : (t.generator id).stack = c :: below)
    (hc : ∀ w, ¬ c.Offers (t.generator id).goal w) :
    Advances ctx (fun _ _ => False) t (t.popChoice id) := by
  obtain ⟨s, hs, hstack⟩ := Generator.exists_search_of_stack_eq_cons hstack
  refine modifySearch hs _ fun k hk w hoffers => .inl ⟨k, ?_, hoffers⟩
  show k ∈ s.stack.tail
  rw [hstack] at hk ⊢
  rcases List.mem_cons.mp hk with rfl | hk
  · exact absurd hoffers (hc w)
  · exact hk

theorem takeReady {id : GeneratorId} {f : FrameId} {ready : List FrameId}
    (hstack : (t.generator id).stack = []) (hready : (t.generator id).ready = f :: ready) :
    Advances ctx (fun _ _ => False) t (t.takeReady id) := by
  obtain ⟨s, hs, -⟩ := Generator.exists_search_of_ready_eq_cons hready
  rw [Generator.stack_of_some hs] at hstack
  refine modifySearch hs _ fun k hk => ?_
  rw [hstack] at hk
  exact absurd hk List.not_mem_nil

theorem modifyFrame (f : FrameId) {g : Frame → Frame}
    (htarget : ∀ x, (g x).target = x.target) (howner : ∀ x, (g x).owner = x.owner)
    (hcontinuation : ∀ x, (g x).continuation = x.continuation)
    (hread : ∀ i < (g (t.frame f)).nextResult, i < (t.frame f).nextResult ∨
      ∃ x, (t.generator (t.frame f).target).results[i]? = some x ∧
        ∀ env, (t.frame f).continuation.env.match? (t.frame f).continuation.pattern x = some env →
          W (t.frame f).owner ((t.frame f).continuation.way env)) :
    Advances ctx W t (t.modifyFrame f g) := by
  apply of_frame
  case hsize | hgoal => intros; rfl
  case hframes => exact t.size_frames_modifyFrame f _
  case hresults => exact fun _ _ _ _ h => h
  case htarget => exact t.modifyFrame_keeps (·.target) f htarget
  case howner => exact t.modifyFrame_keeps (·.owner) f howner
  case hcontinuation => exact t.modifyFrame_keeps (·.continuation) f hcontinuation
  case hoffered => exact fun _ _ h => .inl h
  case hread =>
    intro f' _ i hi
    rw [t.frame_modifyFrame] at hi
    split at hi
    · rename_i heq
      obtain ⟨rfl, -⟩ := heq
      exact hread i hi
    · exact .inl hi

theorem retire (t : Tables) (f : FrameId) : Advances ctx (fun _ _ => False) t (t.retire f) :=
  modifyFrame f (fun _ => rfl) (fun _ => rfl) (fun _ => rfl) fun _ hi => .inl hi

theorem settles {S : List GeneratorId} (hclosed : Closed t S) (hs : Settles S t t') :
    Advances ctx (fun _ _ => False) t t' := by
  apply of_frame hs.size hs.frames hs.goal
  case hresults =>
    intro id _ i x hx
    rw [hs.results]
    exact hx
  case htarget => exact hs.target
  case howner => exact hs.owner
  case hcontinuation => exact hs.continuation
  case hread =>
    intro f _ i hi
    rw [hs.nextResult] at hi
    exact .inl hi
  case hoffered =>
    rintro id w ⟨c, hc, hoffers⟩
    refine .inl ⟨c, ?_, by rw [hs.goal]; exact hoffers⟩
    by_cases hcomplete : (t'.generator id).isComplete
    · rcases (hs.isComplete id).mp hcomplete with hcomplete | hmem
      · rw [Generator.stack_of_isComplete hcomplete] at hc
        exact absurd hc List.not_mem_nil
      · rw [((Generator.hasWork_eq_false_iff _).mp (hclosed.idle id hmem)).1] at hc
        exact absurd hc List.not_mem_nil
    · rw [hs.stack id (by simpa using hcomplete)]
      exact hc

theorem takes {id : GeneratorId} {w : Option Way} (hlinked : Linked t) (ht : Takes t id w t') :
    Advances ctx (fun j w' => j = id ∧ w = some w') t t' := by
  have hc := ht.isComplete
  obtain ⟨s, hs⟩ := Generator.exists_search hc
  have hstack := Generator.stack_of_some hs
  have htop : ∀ c c' below, s.stack = c :: below →
      (∀ w', c.Offers (t.generator id).goal w' →
        c'.Offers (t.generator id).goal w' ∨ w = some w') →
      Advances ctx (fun j w' => j = id ∧ w = some w') t (t.replaceTop id c') := by
    intro c c' below hcons hc'
    refine modifySearch hs _ fun k hk w' hoffers => ?_
    have htail : s.stack.tail = below := by rw [hcons, List.tail_cons]
    rw [hcons] at hk
    rcases List.mem_cons.mp hk with rfl | hk
    · rcases hc' w' hoffers with hoffers | hw
      · exact .inl ⟨c', List.mem_cons_self, hoffers⟩
      · exact .inr ⟨rfl, hw⟩
    · exact .inl ⟨k, List.mem_cons_of_mem _ (htail ▸ hk), hoffers⟩
  cases ht with
  | fact h =>
      refine htop _ _ _ (hstack.symm.trans h) fun w' hoffers => ?_
      cases w' with
      | fact y =>
          rcases List.mem_cons.mp hoffers with rfl | hy
          · exact .inr rfl
          · exact .inl hy
      | cursor r rest env => exact .inl hoffers
  | start h =>
      refine htop _ _ _ (hstack.symm.trans h) fun w' hoffers => ?_
      cases w' with
      | fact y => exact .inl hoffers
      | cursor r rest env =>
          obtain ⟨hr, rfl, hstart⟩ := hoffers
          rcases List.mem_cons.mp hr with rfl | hr
          · rw [hstart]
            exact .inr rfl
          · exact .inl ⟨hr, rfl, hstart⟩
  | data h =>
      refine htop _ _ _ (hstack.symm.trans h) fun w' hoffers => ?_
      cases w' with
      | fact y => exact hoffers.elim
      | cursor r rest env =>
          obtain ⟨rfl, rfl, x, hx, hmatch⟩ := hoffers
          rcases List.mem_cons.mp hx with rfl | hx
          · rw [hmatch]
            exact .inr rfl
          · exact .inl ⟨rfl, rfl, x, hx, hmatch⟩
  | @read f x below h hx =>
      obtain ⟨-, howner⟩ := hlinked.stack id f (by rw [h]; exact List.mem_cons_self)
      refine modifyFrame f (fun _ => rfl) (fun _ => rfl) (fun _ => rfl) fun i hi => ?_
      rcases Nat.lt_succ_iff_lt_or_eq.mp hi with hi | rfl
      · exact .inl hi
      · refine .inr ⟨x, hx, fun env hmatch => ⟨howner, ?_⟩⟩
        rw [hmatch]
        rfl

theorem addGenerator (ctx : Context) (t : Tables) (key : Triple) :
    Advances ctx (fun _ _ => False) t (t.addGenerator ctx key) where
  size := by rw [t.size_addGenerator]; exact Nat.le_succ _
  frames := Nat.le_refl _
  goal id hid := by rw [t.generator_addGenerator_of_lt ctx key hid]
  results id hid i x hx := by
    rw [t.generator_addGenerator_of_lt ctx key hid]
    exact hx
  target _ _ := rfl
  owner _ _ := rfl
  continuation _ _ := rfl
  offered id hid w hw := by
    unfold Offered
    rw [t.generator_addGenerator_of_lt ctx key hid]
    exact .inl hw
  read _ _ _ hi := .inl hi
  newFact id hid hle x hx := by
    rw [t.size_addGenerator] at hid
    have heq : id = t.size := Nat.le_antisymm (Nat.lt_succ_iff.mp hid) hle
    unfold Offered
    rw [t.generator_addGenerator, if_pos heq] at hx ⊢
    exact ⟨_, List.mem_cons_self, hx⟩
  newRule id hid hle r hr env hstart := by
    rw [t.size_addGenerator] at hid
    have heq : id = t.size := Nat.le_antisymm (Nat.lt_succ_iff.mp hid) hle
    unfold Offered
    rw [t.generator_addGenerator, if_pos heq] at hr hstart ⊢
    exact ⟨_, List.mem_cons_self, hr, rfl, hstart⟩
  newFrame f hf hle := absurd hf (Nat.not_lt_of_le hle)

theorem link (ctx : Context) (t : Tables) (target owner : GeneratorId) (s : Suspension) :
    Advances ctx (fun _ _ => False) t (t.link target owner s) where
  size := Nat.le_of_eq (t.size_link target owner s).symm
  frames := by rw [t.frames_link]; exact Nat.le_succ _
  goal id _ := t.goal_link target owner s id
  results id _ i x hx := by
    rw [t.results_link]
    exact hx
  target f hf := congrArg Frame.target (t.frame_link_of_lt target owner s hf)
  owner f hf := congrArg Frame.owner (t.frame_link_of_lt target owner s hf)
  continuation f hf := congrArg Frame.continuation (t.frame_link_of_lt target owner s hf)
  offered id _ w hw := by
    unfold Offered
    rw [t.stack_link, t.goal_link]
    exact .inl hw
  read f hf i hi := by
    rw [t.frame_link_of_lt target owner s hf] at hi
    exact .inl hi
  newFact id hid hle := absurd hid (by rw [t.size_link]; exact Nat.not_lt_of_le hle)
  newRule id hid hle := absurd hid (by rw [t.size_link]; exact Nat.not_lt_of_le hle)
  newFrame f hf hle := by
    rw [t.frames_link] at hf
    rw [Nat.le_antisymm (Nat.lt_succ_iff.mp hf) hle, t.frame_link_new]

theorem pushAnswer {id : GeneratorId} (hid : id < t.size) (x : Triple) :
    Advances ctx (fun _ _ => False) t (t.pushAnswer id x) := by
  apply of_frame
  case hsize => exact t.size_modifyGenerator id _
  case hframes | htarget | howner | hcontinuation => intros; rfl
  case hgoal => exact t.goal_pushAnswer id x
  case hresults =>
    intro j _ i y hy
    rw [t.results_pushAnswer hid]
    split
    · rw [Array.getElem?_push, if_neg]
      · exact hy
      · intro hi
        rw [hi, Array.getElem?_size] at hy
        cases hy
    · exact hy
  case hread => exact fun _ _ _ hi => .inl hi
  case hoffered =>
    rintro j w ⟨c, hc, hoffers⟩
    refine .inl ⟨c, ?_, ?_⟩
    · rw [t.stack_pushAnswer]
      exact hc
    · rw [t.goal_pushAnswer]
      exact hoffers

theorem refl (ctx : Context) (t : Tables) : Advances ctx (fun _ _ => False) t t :=
  settles (closed_nil t) (.refl t)

theorem generatorFor (ctx : Context) (t : Tables) (hlinked : Linked t) (goal : Triple) :
    Advances ctx (fun _ _ => False) t (t.generatorFor ctx goal).2 := by
  rcases t.settles_generatorFor ctx goal with hs | ⟨-, hs⟩
  · exact settles (closed_nil t) hs
  · exact (addGenerator ctx t goal.normalize).trans (settles (closed_nil _) hs)
      (fun f _ => hs.nextResult f) hlinked

theorem suspend (ctx : Context) (t : Tables) (hlinked : Linked t) (target : GeneratorId)
    {owner : GeneratorId} (s : Suspension)
    (hc : (t.generator owner).isComplete = false) :
    Advances ctx (fun _ _ => False) t (t.suspend target owner s) := by
  obtain ⟨f, heq⟩ := t.suspend_eq target owner s
  have hcount := Tables.settles_count (t.link target owner s) f
  have hlink : Advances ctx (fun _ _ => False) t ((t.link target owner s).count f) :=
    (link ctx t target owner s).trans (settles (closed_nil _) hcount)
      (fun f _ => hcount.nextResult f) hlinked
  have hopen : (((t.link target owner s).count f).generator owner).isComplete = false := by
    rw [← hc]
    exact t.isComplete_link target owner s owner
  obtain ⟨s', hs'⟩ := Generator.exists_search hopen
  rw [heq]
  split
  · refine hlink.trans (modifySearch hs' _ fun c hc w hw => .inl ⟨c, hc, hw⟩) ?_ hlinked
    exact fun _ _ => rfl
  · exact hlink

theorem await {owner : GeneratorId} (hlinked : Linked t)
    (hc : (t.generator owner).isComplete = false) (goal : Triple) (s : Suspension) :
    Advances ctx (fun _ _ => False) t
        ((t.generatorFor ctx goal).2.suspend (t.generatorFor ctx goal).1 owner s) ∧
      ∀ f < t.frames.size, (((t.generatorFor ctx goal).2.suspend (t.generatorFor ctx goal).1 owner
        s).frame f).nextResult = (t.frame f).nextResult := by
  have hframes := t.frames_generatorFor ctx goal
  have hold : ∀ f < t.frames.size, (((t.generatorFor ctx goal).2.suspend
      (t.generatorFor ctx goal).1 owner s).frame f).nextResult = (t.frame f).nextResult := by
    intro f hf
    rw [frame_suspend, hframes, if_neg (Nat.ne_of_lt hf), t.frame_generatorFor]
  have hopen := (isComplete_generatorFor t ctx goal
    (Tables.lt_size_of_isComplete_eq_false hc)).trans hc
  have hsuspend := suspend ctx _ (hlinked.generatorFor ctx goal) (t.generatorFor ctx goal).1 s hopen
  refine ⟨(generatorFor ctx t hlinked goal).trans hsuspend (fun f hf => ?_) hlinked, hold⟩
  rw [hframes] at hf
  rw [hold f hf, t.frame_generatorFor]

end Advances

/-! ## Landing -/

/-- A way that lands is done, and nothing else is lost. -/
theorem Lands.covers {t t' : Tables} {id : GeneratorId} {w : Way} {D : Discipline ctx}
    (hD : D.Repeats) (hlinked : Linked t) (hrecorded : Recorded t)
    (hc : (t.generator id).isComplete = false) (hw : D.Follows (t.generator id).goal w)
    (hl : Lands ctx id w t t') :
    Advances ctx (fun _ _ => False) t t' ∧
      (∀ f < t.frames.size, (t'.frame f).nextResult = (t.frame f).nextResult) ∧
        Done ctx t' id w := by
  have hid := Tables.lt_size_of_isComplete_eq_false hc
  induction hl with
  | known hx => exact ⟨.refl ctx _, fun _ _ => rfl, (hrecorded.known id hc _).mp hx⟩
  | @new x t d hx =>
      have hs := Tables.settles_addResult hx d
      refine ⟨(Advances.pushAnswer hid x).trans (.settles (closed_nil _) hs)
        (fun f _ => hs.nextResult f) hlinked, fun f _ => hs.nextResult f, ?_⟩
      unfold Done
      rw [hs.results, t.results_pushAnswer hid, if_pos rfl]
      exact Array.mem_push_self
  | answer hhead hground hgoal _ ih =>
      obtain ⟨hadv, hnext, hdone⟩ := ih hlinked hrecorded hc
        (D.head hw hhead hground hgoal) hid
      refine ⟨hadv, hnext, fun head' hhead' _ _ => ?_⟩
      rw [hhead, Option.some.injEq] at hhead'
      rw [← hhead']
      exact hdone
  | barren h =>
      exact ⟨.refl ctx _, fun _ _ => rfl, fun head hhead hground hgoal =>
        absurd hgoal (h head hhead hground)⟩
  | @holds r b args rest env env' fresh fresh' t t' hcall _ ih =>
      obtain ⟨hadv, hnext, hdone⟩ := ih hlinked hrecorded hc (D.call hw hcall) hid
      refine ⟨hadv, hnext, fun f fresh'' hcall'' => ?_, fun env'' fresh'' hcall'' => ?_⟩
      · obtain ⟨f', hfault⟩ := hD.fault hw fresh'' fresh f hcall''
        rw [hcall] at hfault
        cases hfault
      · have hsame := hD.holds hw fresh'' fresh env'' hcall''
        rw [hcall, CallResult.holds.injEq] at hsame
        exact hsame ▸ hdone
  | @refused r b args rest env t failures fresh hcall hsound =>
      have hs : Settles [] t { t with failures := failures } := .of_eq rfl rfl rfl
      refine ⟨.settles (closed_nil t) hs, fun f _ => hs.nextResult f, fun f fresh' hcall' => ?_,
        fun env' fresh' hcall' => absurd (hD.holds hw fresh' fresh env' hcall') (hcall env')⟩
      obtain ⟨f', hfault⟩ := hD.fault hw fresh' fresh f hcall'
      exact hsound f' hfault
  | @suspended r p rest env premises t htabled =>
      obtain ⟨hadv, hnext⟩ := Advances.await hlinked hc (env.instantiate p)
        ⟨r, env, p, rest, premises⟩
      have hframes := t.frames_generatorFor ctx (env.instantiate p)
      refine ⟨hadv, hnext, fun _ => ⟨t.frames.size, ?_, ?_, premises, ?_⟩, fun hplain => ?_⟩
      · rw [frames_suspend, hframes]
        exact Nat.lt_succ_self _
      · rw [frame_suspend, hframes, if_pos rfl]
      · rw [frame_suspend, hframes, if_pos rfl]
      · rw [htabled] at hplain
        cases hplain
  | @opened r p rest env premises t hplain =>
      obtain ⟨s, hs⟩ := Generator.exists_search hc
      refine ⟨.modifySearch hs _ fun c hc w hw => .inl ⟨c, List.mem_cons_of_mem _ hc, hw⟩,
        fun _ _ => rfl, fun htabled => ?_, fun _ x hx env' hmatch => .inr ?_⟩
      · rw [hplain] at htabled
        cases htabled
      · refine ⟨.data ⟨r, env, p, rest, premises⟩ (ctx.sources.find (env.instantiate p)), ?_,
          rfl, rfl, x, hx, hmatch⟩
        unfold Tables.pushChoice
        rw [Tables.stack_modifySearch_self hs]
        exact List.mem_cons_self

end TripleRules.Tabling
