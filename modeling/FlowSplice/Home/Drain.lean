import FlowSplice.Home.Tasks

/-! The tasks of a Home drain: what a call of `finish` finds when it returns, and that it returns.
Each step that the runtime takes by itself lowers the cost of a state. -/
namespace FlowSplice.HomeTasks

variable {s t : Tasks} {c d i : ℕ} {f g : Finish}

/-! ### How much is left to do -/

/-- What the runtime, the workers and a call itself do without being asked. -/
def Action.internal : Action → Bool
  | .pollChild _ | .endPoll _ _ | .notify _ | .poll _ | .endBlocking _ => true
  | _ => false

def Child.cost (child : Child) : ℕ :=
  match child.stage with
  | .running => 9
  | .idle => 8
  | .finished => 6
  | .notified => 2
  | .joined => 0

def Finish.cost (f : Finish) : ℕ :=
  let awake := if f.awake then 1 else 0
  match f.stage with
  | .created => 8 + awake
  | .acquiring => 6 + awake
  | .joining => 4 + awake
  | .waiting => 2 + awake
  | .returned => 0
  | .cancelled => 0

/-- An upper bound of the steps to come. The end of an operation may wake every call. -/
def Tasks.cost (s : Tasks) : ℕ :=
  (s.children.map Child.cost).sum + (s.finishes.map Finish.cost).sum +
    s.operations.countP (·.outstanding) * (s.finishes.length + 1)

theorem cost_wake_le (f : Finish) : (Tasks.wake f).cost ≤ f.cost + 1 := by
  cases f with
  | mk stage awake => cases stage <;> cases awake <;> decide

theorem cost_wakeWaiting_le (f : Finish) : (Tasks.wakeWaiting f).cost ≤ f.cost + 1 := by
  unfold Tasks.wakeWaiting
  split_ifs
  · exact cost_wake_le f
  · omega

theorem sum_map_wakeWaiting_le (l : List Finish) :
    ((l.map Tasks.wakeWaiting).map Finish.cost).sum ≤ (l.map Finish.cost).sum + l.length := by
  induction l with
  | nil => simp
  | cons f l ih =>
    have hle := cost_wakeWaiting_le f
    simp only [List.map_cons, List.sum_cons, List.length_cons]
    omega

theorem cost_setFinish (g : Finish) (hc : s.finishes[c]? = some f) :
    (s.setFinish c g).cost + f.cost = s.cost + g.cost := by
  have hsum := Cells.sum_map_set Finish.cost g hc
  have hlen : (s.finishes.set c g).length = s.finishes.length := List.length_set
  simp only [Tasks.cost, Tasks.setFinish, hlen]
  omega

theorem cost_setChild {child : Child} (child' : Child) (hi : s.children[i]? = some child) :
    (s.setChild i child').cost + child.cost = s.cost + child'.cost := by
  have hsum := Cells.sum_map_set Child.cost child' hi
  simp only [Tasks.cost, Tasks.setChild]
  omega

theorem cost_wakeFinish_le (s : Tasks) (c : ℕ) :
    { s with finishes := s.finishes.modify c Tasks.wake }.cost ≤ s.cost + 1 := by
  cases hc : s.finishes[c]? with
  | none =>
    have hsame : s.finishes.modify c Tasks.wake = s.finishes := by
      apply List.ext_getElem?
      intro d
      rw [List.getElem?_modify]
      by_cases hcd : c = d
      · rw [← hcd, hc]
        rfl
      · simp [hcd]
    rw [hsame]
    exact Nat.le_succ s.cost
  | some f =>
    have hset := cost_setFinish (Tasks.wake f) hc
    have hle := cost_wake_le f
    rw [Cells.modify_eq_set Tasks.wake hc]
    change (s.setFinish c (Tasks.wake f)).cost ≤ s.cost + 1
    omega

theorem cost_release_le (s : Tasks) : s.release.cost ≤ s.cost + 1 := by
  cases hq : s.queue with
  | nil =>
    rw [release_nil hq]
    change s.cost ≤ s.cost + 1
    omega
  | cons c rest =>
    rw [release_cons hq]
    exact cost_wakeFinish_le s c

theorem cost_stop (s : Tasks) : s.stop.cost = s.cost := by
  have hmap : s.stop.children.map Child.cost = s.children.map Child.cost := by
    change (s.children.map _).map Child.cost = _
    rw [List.map_map]
    rfl
  unfold Tasks.cost
  rw [hmap]
  rfl

/-- A poll takes a child out of the set, brings the call nearer to its end, or ends it. -/
theorem pollFinish_cases (ha : f.awake = true) (hs : s.pollFinish c f = some t) :
    (∃ i child, s.children[i]? = some child ∧ child.stage = .notified ∧
      t = { s with children := s.children.modify i Tasks.reap }) ∨
    (∃ (s' : Tasks) (g : Finish), s'.finishes = s.finishes ∧ s'.cost = s.cost ∧
      (s.shutdown = true → s'.shutdown = true) ∧ s'.children.length = s.children.length ∧
      f.stage ≠ .returned ∧ g.stage ≠ .cancelled ∧ g.cost < f.cost ∧ t = s'.setFinish c g) ∨
    f.stage = .waiting ∧ t = (s.setFinish c ⟨.returned, false⟩).release := by
  unfold Tasks.pollFinish at hs
  have hcost : ∀ stage, f.stage = stage → f.cost = (⟨stage, true⟩ : Finish).cost := by
    intro stage hf
    rw [← hf, ← ha]
  cases hf : f.stage with
  | created =>
    rw [hf] at hs
    refine .inr (.inl ⟨s.stop, _, rfl, cost_stop s, fun _ => rfl, ?_, by simp, by simp, ?_,
      (Option.some.inj hs).symm⟩)
    · exact List.length_map _
    · rw [hcost _ hf]
      decide
  | acquiring =>
    rw [hf] at hs
    dsimp only at hs
    by_cases hmine : s.drain = some c
    · rw [if_pos hmine] at hs
      refine .inr (.inl ⟨s, _, rfl, rfl, id, rfl, by simp, by simp, ?_, (Option.some.inj hs).symm⟩)
      rw [hcost _ hf]
      decide
    · rw [if_neg hmine] at hs
      by_cases hfree : s.drain = none
      · rw [if_pos hfree] at hs
        refine .inr (.inl ⟨{ s with drain := some c }, _, rfl, rfl, id, rfl, by simp, by simp, ?_,
          (Option.some.inj hs).symm⟩)
        rw [hcost _ hf]
        decide
      · rw [if_neg hfree] at hs
        by_cases hmem : c ∈ s.queue
        · rw [if_pos hmem] at hs
          refine .inr (.inl ⟨s, _, rfl, rfl, id, rfl, by simp, by simp, ?_,
            (Option.some.inj hs).symm⟩)
          rw [hcost _ hf]
          decide
        · rw [if_neg hmem] at hs
          refine .inr (.inl ⟨{ s with queue := s.queue ++ [c] }, _, rfl, rfl, id, rfl, by simp,
            by simp, ?_, (Option.some.inj hs).symm⟩)
          rw [hcost _ hf]
          decide
  | joining =>
    rw [hf] at hs
    dsimp only at hs
    cases hfind : s.children.findIdx? (·.stage = .notified) with
    | some i =>
      rw [hfind] at hs
      obtain ⟨hlt, hi, _⟩ := List.findIdx?_eq_some_iff_getElem.mp hfind
      exact .inl ⟨i, s.children[i], List.getElem?_eq_getElem hlt, by simpa using hi,
        (Option.some.inj hs).symm⟩
    | none =>
      rw [hfind] at hs
      dsimp only at hs
      by_cases hall : s.children.all (·.stage = .joined) = true
      · rw [if_pos hall] at hs
        refine .inr (.inl ⟨s, _, rfl, rfl, id, rfl, by simp, by simp, ?_,
          (Option.some.inj hs).symm⟩)
        rw [hcost _ hf]
        decide
      · rw [if_neg hall] at hs
        refine .inr (.inl ⟨{ s with joinWaker := some c }, _, rfl, rfl, id, rfl, by simp,
          by simp, ?_, (Option.some.inj hs).symm⟩)
        rw [hcost _ hf]
        decide
  | waiting =>
    rw [hf] at hs
    dsimp only at hs
    by_cases hzero : s.blocking = 0
    · rw [if_pos hzero] at hs
      exact .inr (.inr ⟨rfl, (Option.some.inj hs).symm⟩)
    · rw [if_neg hzero] at hs
      refine .inr (.inl ⟨s, _, rfl, rfl, id, rfl, by simp, by simp, ?_,
        (Option.some.inj hs).symm⟩)
      rw [hcost _ hf]
      decide
  | returned =>
    rw [hf] at hs
    cases hs
  | cancelled =>
    rw [hf] at hs
    cases hs

/-- The loop over `try_join_next`, for one child. -/
theorem cost_reap {child : Child} (hi : s.children[i]? = some child)
    (hnot : child.stage = .notified) :
    { s with children := s.children.modify i Tasks.reap }.cost < s.cost := by
  have hset := cost_setChild (Tasks.reap child) hi
  have hold : child.cost = 2 := by simp [Child.cost, hnot]
  have hnew : (Tasks.reap child).cost = 0 := by simp [Child.cost, Tasks.reap, hnot]
  rw [Cells.modify_eq_set Tasks.reap hi]
  change (s.setChild i (Tasks.reap child)).cost < s.cost
  omega

theorem cost_poll (hs : s.poll c = some t) : t.cost < s.cost := by
  obtain ⟨f, hc, ha, hp⟩ := poll_cases hs
  rcases pollFinish_cases ha hp with
    ⟨i, child, hi, hnot, rfl⟩ | ⟨s', g, hfin, hcost, _, _, _, _, hlt, rfl⟩ | ⟨hf, rfl⟩
  · exact cost_reap hi hnot
  · rw [← hfin] at hc
    have hset := cost_setFinish g hc
    omega
  · have hset := cost_setFinish ⟨.returned, false⟩ hc
    have hrel := cost_release_le (s.setFinish c ⟨.returned, false⟩)
    have hold : f.cost = 3 := by simp [Finish.cost, hf, ha]
    have hnew : (⟨.returned, false⟩ : Finish).cost = 0 := rfl
    omega

theorem cost_pollChild (hb : s.shutdown = true) (hs : s.pollChild i = some t) :
    t.cost < s.cost := by
  obtain ⟨child, child', hi, hidle, rfl, hstage⟩ := pollChild_cases hs
  have hset := cost_setChild child' hi
  have hold : child.cost = 8 := by simp [Child.cost, hidle]
  rcases hstage with hstage | ⟨hnot, _⟩
  · have hnew : child'.cost = 6 := by simp [Child.cost, hstage]
    omega
  · rw [hb] at hnot
    cases hnot

theorem cost_endPoll {ready : Bool} (hs : s.endPoll i ready = some t) : t.cost < s.cost := by
  obtain ⟨child, child', hi, hrunning, rfl, _, hstage⟩ := endPoll_cases hs
  have hset := cost_setChild child' hi
  have hold : child.cost = 9 := by simp [Child.cost, hrunning]
  have hnew : child'.cost ≤ 8 := by
    rcases hstage with hstage | hstage <;> simp [Child.cost, hstage]
  omega

theorem cost_notify (hs : s.notify i = some t) : t.cost < s.cost := by
  obtain ⟨child, child', hi, hfin, hnot, hcase⟩ := notify_cases hs
  have hset := cost_setChild child' hi
  have hold : child.cost = 6 := by simp [Child.cost, hfin]
  have hnew : child'.cost = 2 := by simp [Child.cost, hnot]
  rcases hcase with ⟨_, rfl⟩ | ⟨c, _, rfl⟩
  · omega
  · have hle := cost_wakeFinish_le (s.setChild i child') c
    change { s.setChild i child' with finishes := s.finishes.modify c Tasks.wake }.cost < s.cost
    change { s.setChild i child' with finishes := s.finishes.modify c Tasks.wake }.cost ≤ _ at hle
    omega

theorem cost_endBlocking {k : ℕ} (hs : s.endBlocking k = some t) : t.cost < s.cost := by
  obtain ⟨late, hk, rfl⟩ := endBlocking_cases hs
  obtain ⟨hlt, hget⟩ := List.getElem?_eq_some_iff.mp hk
  have hpos : 0 < s.operations.countP (·.outstanding) := by
    apply List.countP_pos_iff.mpr
    exact ⟨_, List.mem_of_getElem? hk, rfl⟩
  have hcount : (s.operations.set k ⟨false, late⟩).countP (·.outstanding) + 1 =
      s.operations.countP (·.outstanding) := by
    rw [List.countP_set hlt, hget]
    simp only [if_true, Bool.false_eq_true, if_false, Nat.add_zero]
    omega
  have hwake := sum_map_wakeWaiting_le s.finishes
  have hmul : s.operations.countP (·.outstanding) * (s.finishes.length + 1) =
      (s.operations.set k ⟨false, late⟩).countP (·.outstanding) * (s.finishes.length + 1) +
        (s.finishes.length + 1) := by
    rw [← hcount, Nat.succ_mul]
  simp only [Tasks.cost, List.length_map]
  omega

/-- After a stop, each step that is taken without being asked brings the end nearer. -/
theorem cost_step {a : Action} (hb : s.shutdown = true) (ha : a.internal = true)
    (hs : s.step a = some t) : t.cost < s.cost := by
  cases a with
  | pollChild i => exact cost_pollChild hb hs
  | endPoll i ready => exact cost_endPoll hs
  | notify i => exact cost_notify hs
  | poll c => exact cost_poll hs
  | endBlocking k => exact cost_endBlocking hs
  | _ => cases ha

/-! ### What stays -/

/-- A call that returned stays so, and where `p` holds no call is cancelled. -/
def Kept (p : Prop) (l l' : List Finish) : Prop :=
  ∀ (c : ℕ) (f : Finish), l[c]? = some f → ∃ g, l'[c]? = some g ∧
    (f.stage = .returned → g.stage = .returned) ∧ (p → g.stage = .cancelled → f.stage = .cancelled)

theorem Kept.refl (p : Prop) (l : List Finish) : Kept p l l :=
  fun _ f hf => ⟨f, hf, id, fun _ => id⟩

theorem Kept.trans {p : Prop} {l₁ l₂ l₃ : List Finish} (h : Kept p l₁ l₂) (h' : Kept p l₂ l₃) :
    Kept p l₁ l₃ := by
  intro c f hf
  obtain ⟨g, hg, hret, hcan⟩ := h c f hf
  obtain ⟨g', hg', hret', hcan'⟩ := h' c g hg
  exact ⟨g', hg', hret' ∘ hret, fun hp hs => hcan hp (hcan' hp hs)⟩

theorem Wakes.kept {l l' : List Finish} {u : ℕ → Finish → Finish} (h : Wakes l l' u) (p : Prop) :
    Kept p l l' := by
  intro c f hf
  refine ⟨u c f, h.found hf, ?_, ?_⟩
  · intro hs
    rw [h.stage, hs]
  · intro _ hs
    rwa [h.stage] at hs

theorem kept_set {p : Prop} {l : List Finish} (hc : l[c]? = some f) (hf : f.stage ≠ .returned)
    (hg : p → g.stage ≠ .cancelled) : Kept p l (l.set c g) := by
  intro d f' hd
  have hget := Cells.getElem?_set_of g d hc
  by_cases hcd : c = d
  · rw [if_pos hcd] at hget
    rw [← hcd, hc] at hd
    rw [← Option.some.inj hd]
    exact ⟨g, hget, fun hs => absurd hs hf, fun hp hs => absurd hs (hg hp)⟩
  · rw [if_neg hcd] at hget
    exact ⟨f', hget.trans hd, id, fun _ => id⟩

theorem kept_release (p : Prop) (s : Tasks) : Kept p s.finishes s.release.finishes := by
  cases hq : s.queue with
  | nil =>
    rw [release_nil hq]
    exact Kept.refl p s.finishes
  | cons c rest =>
    rw [release_cons hq]
    exact (wakes_modify s.finishes c).kept p

theorem kept_poll (p : Prop) (hs : s.poll c = some t) : Kept p s.finishes t.finishes := by
  obtain ⟨f, hc, ha, hp⟩ := poll_cases hs
  rcases pollFinish_cases ha hp with
    ⟨i, child, _, _, rfl⟩ | ⟨s', g, hfin, _, _, _, hf, hg, _, rfl⟩ | ⟨hf, rfl⟩
  · exact Kept.refl p s.finishes
  · rw [← hfin] at hc ⊢
    exact kept_set hc hf fun _ => hg
  · have hset : Kept p s.finishes (s.finishes.set c ⟨.returned, false⟩) :=
      kept_set hc (by simp [hf]) (by simp)
    exact hset.trans (kept_release p (s.setFinish c ⟨.returned, false⟩))

theorem kept_step {a : Action} (hs : s.step a = some t) :
    Kept (a.internal = true) s.finishes t.finishes := by
  cases a with
  | spawn =>
    obtain rfl := Option.some.inj hs
    unfold Tasks.spawn
    split_ifs
    · exact Kept.refl _ _
    · exact Kept.refl _ _
  | stop | wakeChild i | abort i =>
    obtain rfl := Option.some.inj hs
    exact Kept.refl _ _
  | pollChild i =>
    obtain ⟨_, _, _, _, rfl, _⟩ := pollChild_cases hs
    exact Kept.refl _ _
  | endPoll i ready =>
    obtain ⟨_, _, _, _, rfl, _⟩ := endPoll_cases hs
    exact Kept.refl _ _
  | notify i =>
    obtain ⟨_, _, _, _, _, hcase⟩ := notify_cases hs
    rcases hcase with ⟨_, rfl⟩ | ⟨c, _, rfl⟩
    · exact Kept.refl _ _
    · exact (wakes_modify s.finishes c).kept _
  | finish =>
    obtain rfl := Option.some.inj hs
    intro c f hf
    have hlt : c < s.finishes.length := (List.getElem?_eq_some_iff.mp hf).1
    exact ⟨f, (List.getElem?_append_left hlt).trans hf, id, fun _ => id⟩
  | poll c => exact kept_poll _ hs
  | wakeFinish c =>
    obtain rfl := Option.some.inj hs
    exact (wakes_modify s.finishes c).kept _
  | cancel c =>
    obtain ⟨f, hc, hf, hcase⟩ := cancel_cases hs
    have hset : Kept False s.finishes (s.finishes.set c ⟨.cancelled, false⟩) :=
      kept_set hc hf fun h => h.elim
    have hkept : Kept False s.finishes t.finishes := by
      rcases hcase with ⟨_, rfl⟩ | ⟨_, rfl⟩
      · exact hset.trans (kept_release False (s.setFinish c ⟨.cancelled, false⟩))
      · exact hset
    simpa [Action.internal] using hkept
  | startBlocking =>
    obtain rfl := Option.some.inj hs
    exact (wakes_waiting s.finishes).kept _
  | endBlocking k =>
    obtain ⟨_, _, rfl⟩ := endBlocking_cases hs
    exact (wakes_waiting s.finishes).kept _

theorem release_shutdown (s : Tasks) : s.release.shutdown = s.shutdown := by
  cases hq : s.queue with
  | nil => rw [release_nil hq]
  | cons c rest => rw [release_cons hq]

theorem release_children (s : Tasks) : s.release.children = s.children := by
  cases hq : s.queue with
  | nil => rw [release_nil hq]
  | cons c rest => rw [release_cons hq]

/-- After a stop no child is admitted any more. -/
theorem closed_step {a : Action} (hb : s.shutdown = true) (hs : s.step a = some t) :
    t.shutdown = true ∧ t.children.length = s.children.length := by
  cases a with
  | spawn =>
    obtain rfl := Option.some.inj hs
    rw [Tasks.spawn, if_pos hb]
    exact ⟨hb, rfl⟩
  | stop =>
    obtain rfl := Option.some.inj hs
    exact ⟨rfl, List.length_map _⟩
  | wakeChild i | abort i =>
    obtain rfl := Option.some.inj hs
    exact ⟨hb, List.length_modify _ _ _⟩
  | pollChild i =>
    obtain ⟨_, _, _, _, rfl, _⟩ := pollChild_cases hs
    exact ⟨hb, List.length_set⟩
  | endPoll i ready =>
    obtain ⟨_, _, _, _, rfl, _⟩ := endPoll_cases hs
    exact ⟨hb, List.length_set⟩
  | notify i =>
    obtain ⟨_, _, _, _, _, hcase⟩ := notify_cases hs
    rcases hcase with ⟨_, rfl⟩ | ⟨c, _, rfl⟩
    · exact ⟨hb, List.length_set⟩
    · exact ⟨hb, List.length_set⟩
  | poll c =>
    obtain ⟨f, hc, ha, hp⟩ := poll_cases hs
    rcases pollFinish_cases ha hp with
      ⟨i, child, _, _, rfl⟩ | ⟨s', g, _, _, hshut, hlen, _, _, _, rfl⟩ | ⟨hf, rfl⟩
    · exact ⟨hb, List.length_modify _ _ _⟩
    · exact ⟨hshut hb, hlen⟩
    · rw [release_shutdown, release_children]
      exact ⟨hb, rfl⟩
  | cancel c =>
    obtain ⟨f, hc, hf, hcase⟩ := cancel_cases hs
    rcases hcase with ⟨_, rfl⟩ | ⟨_, rfl⟩
    · rw [release_shutdown, release_children]
      exact ⟨hb, rfl⟩
    · exact ⟨hb, rfl⟩
  | finish | wakeFinish c | startBlocking =>
    obtain rfl := Option.some.inj hs
    exact ⟨hb, rfl⟩
  | endBlocking k =>
    obtain ⟨_, _, rfl⟩ := endBlocking_cases hs
    exact ⟨hb, rfl⟩

theorem run_closed {as : List Action} (hb : s.shutdown = true)
    (hs : as.foldlM Tasks.step s = some t) :
    t.shutdown = true ∧ t.children.length = s.children.length := by
  induction as generalizing s with
  | nil =>
    obtain rfl := Option.some.inj hs
    exact ⟨hb, rfl⟩
  | cons a as ih =>
    rw [List.foldlM_cons] at hs
    obtain ⟨u, hu, hs⟩ := Option.bind_eq_some_iff.mp hs
    have hstep := closed_step hb hu
    have hrest := ih hstep.1 hs
    exact ⟨hrest.1, hrest.2.trans hstep.2⟩

theorem run_kept {as : List Action} (p : Prop) (ha : p → ∀ a ∈ as, a.internal = true)
    (hs : as.foldlM Tasks.step s = some t) : Kept p s.finishes t.finishes := by
  induction as generalizing s with
  | nil =>
    obtain rfl := Option.some.inj hs
    exact Kept.refl p s.finishes
  | cons a as ih =>
    rw [List.foldlM_cons] at hs
    obtain ⟨u, hu, hs⟩ := Option.bind_eq_some_iff.mp hs
    have hstep := kept_step hu
    have hrest := ih (fun hp a hmem => ha hp a (List.mem_cons_of_mem _ hmem)) hs
    apply Kept.trans _ hrest
    intro c f hf
    obtain ⟨g, hg, hret, hcan⟩ := hstep c f hf
    exact ⟨g, hg, hret, fun hp => hcan (ha hp a List.mem_cons_self)⟩

theorem run_cost {as : List Action} (hb : s.shutdown = true)
    (ha : ∀ a ∈ as, a.internal = true) (hs : as.foldlM Tasks.step s = some t) :
    as.length + t.cost ≤ s.cost := by
  induction as generalizing s with
  | nil =>
    obtain rfl := Option.some.inj hs
    simp
  | cons a as ih =>
    rw [List.foldlM_cons] at hs
    obtain ⟨u, hu, hs⟩ := Option.bind_eq_some_iff.mp hs
    have hstep := cost_step hb (ha a List.mem_cons_self) hu
    have hrest := ih (closed_step hb hu).1 (fun b hmem => ha b (List.mem_cons_of_mem _ hmem)) hs
    rw [List.length_cons]
    omega

theorem Inv.run {as : List Action} (h : Inv s) (hs : as.foldlM Tasks.step s = some t) : Inv t := by
  induction as generalizing s with
  | nil =>
    obtain rfl := Option.some.inj hs
    exact h
  | cons a as ih =>
    rw [List.foldlM_cons] at hs
    obtain ⟨u, hu, hs⟩ := Option.bind_eq_some_iff.mp hs
    exact ih (h.step hu) hs

/-! ### Nothing is left to do -/

/-- Nothing happens any more without being asked. -/
def Tasks.Quiet (s : Tasks) : Prop := ∀ a : Action, a.internal = true → s.step a = none

theorem Tasks.Quiet.asleep (hq : s.Quiet) (hc : s.finishes[c]? = some f) :
    f.awake = false ∨ f.stage = .returned ∨ f.stage = .cancelled := by
  by_contra hne
  rw [not_or, not_or] at hne
  obtain ⟨ha, hret, hcan⟩ := hne
  have hnone : s.poll c = none := hq (.poll c) rfl
  simp only [Tasks.poll, hc, Bool.not_eq_false] at hnone ha
  rw [if_pos ha] at hnone
  unfold Tasks.pollFinish at hnone
  cases hf : f.stage with
  | created => simp [hf] at hnone
  | acquiring =>
    rw [hf] at hnone
    dsimp only at hnone
    split_ifs at hnone
  | joining =>
    rw [hf] at hnone
    cases hfind : s.children.findIdx? (·.stage = .notified) with
    | some i => simp [hfind] at hnone
    | none =>
      rw [hfind] at hnone
      dsimp only at hnone
      split_ifs at hnone
  | waiting =>
    rw [hf] at hnone
    dsimp only at hnone
    split_ifs at hnone
  | returned => exact hret hf
  | cancelled => exact hcan hf

theorem Tasks.Quiet.children (hq : s.Quiet) (h : Inv s) (hb : s.shutdown = true) :
    ∀ child ∈ s.children, child.stage = .notified ∨ child.stage = .joined := by
  intro child hmem
  obtain ⟨i, hi⟩ := List.mem_iff_getElem?.mp hmem
  have hwoken := h.woken hb child hmem
  cases child with
  | mk stage woken aborted =>
  cases stage with
  | idle =>
    have hnone : s.pollChild i = none := hq (.pollChild i) rfl
    obtain rfl : woken = true := hwoken (.inl rfl)
    simp [Tasks.pollChild, hi, hb] at hnone
  | running =>
    have hnone : s.endPoll i true = none := hq (.endPoll i true) rfl
    simp [Tasks.endPoll, hi] at hnone
  | finished =>
    have hnone : s.notify i = none := hq (.notify i) rfl
    cases hw : s.joinWaker <;> simp [Tasks.notify, hi, Tasks.setChild, hw] at hnone
  | notified => exact .inl rfl
  | joined => exact .inr rfl

theorem Tasks.Quiet.blocking (hq : s.Quiet) (h : Inv s) : s.blocking = 0 := by
  rw [h.blocking, List.countP_eq_zero]
  intro op hop hout
  obtain ⟨k, hk⟩ := List.mem_iff_getElem?.mp hop
  have hnone : s.endBlocking k = none := hq (.endBlocking k) rfl
  cases op with
  | mk outstanding late =>
    obtain rfl : outstanding = true := hout
    simp [Tasks.endBlocking, hk] at hnone

/-- A call that is neither over nor cancelled is not the end. -/
theorem Inv.over_of_quiet (h : Inv s) (hq : s.Quiet) (hc : s.finishes[c]? = some f) :
    f.stage = .returned ∨ f.stage = .cancelled := by
  by_contra hne
  rw [not_or] at hne
  have hwaits : ∀ (d : ℕ) (g : Finish), s.finishes[d]? = some g →
      ¬ (g.stage = .joining ∨ g.stage = .waiting) := by
    intro d g hd hg
    have hok := h.finish d g hd
    have hasleep : g.awake = false := by
      rcases hq.asleep hd with ha | hs | hs
      · exact ha
      · simp [hs] at hg
      · simp [hs] at hg
    rcases hg with hg | hg
    · obtain ⟨_, hnone, child, hmem, hopen⟩ := hok.joining hg hasleep
      have hb := hok.begun (by simp [hg]) (by simp [hg])
      rcases hq.children h hb child hmem with hs | hs
      · exact hnone child hmem hs
      · exact hopen hs
    · have hpos := hok.waiting hg hasleep
      have hzero := hq.blocking h
      omega
  have hasleep : f.awake = false := (hq.asleep hc).resolve_right (by simpa using hne)
  have hok := h.finish c f hc
  cases hf : f.stage with
  | created =>
    rw [hok.created hf] at hasleep
    cases hasleep
  | acquiring =>
    have hmem := hok.queued hf hasleep
    cases hd : s.drain with
    | none =>
      rw [h.free hd] at hmem
      cases hmem
    | some d =>
      obtain ⟨g, hg, hs⟩ := h.holder d hd
      rcases hs with hs | hs | ⟨hs, ha⟩
      · exact hwaits d g hg (.inl hs)
      · exact hwaits d g hg (.inr hs)
      · rcases hq.asleep hg with ha' | hs' | hs'
        · rw [ha] at ha'
          cases ha'
        · simp [hs] at hs'
        · simp [hs] at hs'
  | joining => exact hwaits c f hc (.inl hf)
  | waiting => exact hwaits c f hc (.inr hf)
  | returned => exact hne.1 hf
  | cancelled => exact hne.2 hf

/-- Once a call of `finish` returned, every child is over and out of the set, whatever happens later
none is admitted, and a blocking operation that is outstanding was started after the stop. A call
that is not cancelled returns after a bounded number of steps. -/
theorem finish_drains (h : machine.Reachable s) :
    (∀ (c : ℕ) (f : Finish), s.finishes[c]? = some f → f.stage = .returned →
      ∀ (as : List Action) (t : Tasks), as.foldlM Tasks.step s = some t →
        t.children.length = s.children.length ∧ t.spawn = t ∧
        (∀ child ∈ t.children, child.stage = .joined) ∧
        ∀ op ∈ t.operations, op.outstanding = true → op.late = true) ∧
    (s.shutdown = true → ∀ (as : List Action) (t : Tasks), (∀ a ∈ as, a.internal = true) →
      as.foldlM Tasks.step s = some t → as.length ≤ s.cost ∧
        (t.Quiet → ∀ (c : ℕ) (f : Finish), s.finishes[c]? = some f → f.stage ≠ .cancelled →
          ∃ g, t.finishes[c]? = some g ∧ g.stage = .returned)) ∧
    (s.Quiet → ∀ f ∈ s.finishes, f.stage = .returned ∨ f.stage = .cancelled) := by
  have hinv := inv_of_reachable h
  refine ⟨?_, ?_, ?_⟩
  · intro c f hc hf as t hs
    have hb := (hinv.finish c f hc).begun (by simp [hf]) (by simp [hf])
    have hclosed := run_closed hb hs
    obtain ⟨g, hg, hret, _⟩ := run_kept False (fun h => h.elim) hs c f hc
    have hok := (hinv.run hs).finish c g hg
    refine ⟨hclosed.2, ?_, hok.drained (.inr (hret hf)), hok.done (hret hf)⟩
    rw [Tasks.spawn, if_pos hclosed.1]
  · intro hb as t ha hs
    have hcost := run_cost hb ha hs
    refine ⟨by omega, ?_⟩
    intro hq c f hc hne
    obtain ⟨g, hg, _, hcan⟩ := run_kept True (fun _ => ha) hs c f hc
    refine ⟨g, hg, ?_⟩
    apply ((hinv.run hs).over_of_quiet hq hg).resolve_right
    exact fun h => hne (hcan trivial h)
  · intro hq f hmem
    obtain ⟨c, hc⟩ := List.mem_iff_getElem?.mp hmem
    exact hinv.over_of_quiet hq hc

/-- A call waits for a child and is cancelled, and the one behind it drains. -/
def cancelledRun : List Action :=
  [.spawn, .pollChild 0, .finish, .finish, .poll 0, .poll 0, .poll 0, .poll 1, .poll 1, .cancel 0,
    .poll 1, .poll 1, .endPoll 0 false, .pollChild 0, .notify 0, .poll 1, .poll 1, .poll 1]

theorem finish_drains_cancelled : ∃ s, machine.exec cancelledRun = some s ∧
    s.children.length = 1 ∧ s.spawn = s ∧ ∀ child ∈ s.children, child.stage = .joined := by
  have hrun : (machine.exec cancelledRun).map (fun s => (s.finishes[1]?, s.children.length)) =
      some (some ⟨.returned, false⟩, 1) := by decide
  obtain ⟨s, hs, heq⟩ := Option.map_eq_some_iff.mp hrun
  have hc := congrArg Prod.fst heq
  have hlen := congrArg Prod.snd heq
  have hdrains := (finish_drains (Machine.reachable_of_exec hs)).1 1 _ hc rfl [] s rfl
  exact ⟨s, hs, hlen, hdrains.2.1, hdrains.2.2.1⟩

end FlowSplice.HomeTasks
