import FlowSplice.Lib.Cells
import FlowSplice.Lib.Machine

/-! The tasks of a Home: `Tasks` of `flowsplice-home-core/src/tasks.rs`, whose users are the flows
of `tcp_flow.rs`. Whatever runs between two awaits, or holds the lock of the children, is one
step. -/
namespace FlowSplice.HomeTasks

/-- A child that was spawned: waiting for a wake-up, in a poll, over with its future dropped, in the
notified list of the `JoinSet`, and out of the set. -/
inductive ChildStage where
  | idle
  | running
  | finished
  | notified
  | joined
deriving DecidableEq, Repr

structure Child where
  stage : ChildStage := .idle
  woken : Bool := true
  aborted : Bool := false
deriving DecidableEq, Repr

/-- Where a call of `finish` awaits: not polled yet, the drain lock, a child, and the blocking
operations. -/
inductive FinishStage where
  | created
  | acquiring
  | joining
  | waiting
  | returned
  | cancelled
deriving DecidableEq, Repr

structure Finish where
  stage : FinishStage := .created
  awake : Bool := true
deriving DecidableEq, Repr

/-- An operation of `blocking`; `late` tells that it was started after the first stop. -/
structure Operation where
  outstanding : Bool := true
  late : Bool
deriving DecidableEq, Repr

/-- `joinWaker` is the waker that the `JoinSet` keeps, and `drain` the call that holds the drain
lock, for which `queue` waits. -/
structure Tasks where
  children : List Child := []
  joinWaker : Option ℕ := none
  shutdown : Bool := false
  drain : Option ℕ := none
  queue : List ℕ := []
  blocking : ℕ := 0
  finishes : List Finish := []
  operations : List Operation := []
deriving DecidableEq, Repr

/-- A spawn, a stop, a call of `finish` or of `blocking` may come from anywhere, inside children
too. A poll of a child checks the signal first and then polls its future, which ends or awaits; its
wake-ups, an abort, a poll that nothing asked for and the cancellation of a call come at any
time. -/
inductive Action where
  | spawn
  | stop
  | wakeChild (i : ℕ)
  | abort (i : ℕ)
  | pollChild (i : ℕ)
  | endPoll (i : ℕ) (ready : Bool)
  | notify (i : ℕ)
  | finish
  | poll (c : ℕ)
  | wakeFinish (c : ℕ)
  | cancel (c : ℕ)
  | startBlocking
  | endBlocking (k : ℕ)
deriving DecidableEq, Repr

namespace Tasks

def wake (f : Finish) : Finish := { f with awake := true }

def setFinish (s : Tasks) (c : ℕ) (f : Finish) : Tasks := { s with finishes := s.finishes.set c f }

def setChild (s : Tasks) (i : ℕ) (child : Child) : Tasks :=
  { s with children := s.children.set i child }

/-- The loop over `try_join_next`. -/
def reap (child : Child) : Child :=
  if child.stage = .notified then { child with stage := .joined } else child

/-- `Tasks::spawn`, which is refused after a stop. -/
def spawn (s : Tasks) : Tasks :=
  if s.shutdown then s else { s with children := s.children.map reap ++ [{}] }

/-- `Tasks::stop`; the signal wakes the children. -/
def stop (s : Tasks) : Tasks :=
  { s with shutdown := true, children := s.children.map fun child => { child with woken := true } }

/-- The drain lock goes to the call that has waited the longest. -/
def release (s : Tasks) : Tasks :=
  match s.queue with
  | [] => { s with drain := none }
  | c :: rest => { s with drain := some c, queue := rest, finishes := s.finishes.modify c wake }

/-- `finish`, up to its next await or its return. -/
def pollFinish (s : Tasks) (c : ℕ) (f : Finish) : Option Tasks :=
  match f.stage with
  | .created => some (s.stop.setFinish c ⟨.acquiring, true⟩)
  | .acquiring =>
    if s.drain = some c then some (s.setFinish c ⟨.joining, true⟩)
    else if s.drain = none then some ({ s with drain := some c }.setFinish c ⟨.joining, true⟩)
    else if c ∈ s.queue then some (s.setFinish c ⟨.acquiring, false⟩)
    else some ({ s with queue := s.queue ++ [c] }.setFinish c ⟨.acquiring, false⟩)
  | .joining =>
    match s.children.findIdx? (·.stage = .notified) with
    | some i => some { s with children := s.children.modify i reap }
    | none =>
      if s.children.all (·.stage = .joined) then some (s.setFinish c ⟨.waiting, true⟩)
      else some ({ s with joinWaker := some c }.setFinish c ⟨.joining, false⟩)
  | .waiting =>
    if s.blocking = 0 then some (s.setFinish c ⟨.returned, false⟩).release
    else some (s.setFinish c ⟨.waiting, false⟩)
  | .returned => none
  | .cancelled => none

def poll (s : Tasks) (c : ℕ) : Option Tasks :=
  match s.finishes[c]? with
  | none => none
  | some f => if f.awake then s.pollFinish c f else none

/-- The future of a call is dropped, with the guard of the drain lock or its place in the queue. -/
def cancel (s : Tasks) (c : ℕ) : Option Tasks :=
  match s.finishes[c]? with
  | none => none
  | some f =>
    if f.stage = .returned ∨ f.stage = .cancelled then none
    else
      let s := s.setFinish c ⟨.cancelled, false⟩
      if s.drain = some c then some s.release else some { s with queue := s.queue.erase c }

/-- The poll of a child, up to that of its future. -/
def pollChild (s : Tasks) (i : ℕ) : Option Tasks :=
  match s.children[i]? with
  | some ⟨.idle, true, aborted⟩ =>
    if s.shutdown ∨ aborted then some (s.setChild i ⟨.finished, true, aborted⟩)
    else some (s.setChild i ⟨.running, false, aborted⟩)
  | _ => none

def endPoll (s : Tasks) (i : ℕ) (ready : Bool) : Option Tasks :=
  match s.children[i]? with
  | some ⟨.running, woken, aborted⟩ =>
    some (s.setChild i ⟨if ready then .finished else .idle, woken, aborted⟩)
  | _ => none

/-- What a finished child does to its `JoinSet`. -/
def notify (s : Tasks) (i : ℕ) : Option Tasks :=
  match s.children[i]? with
  | some ⟨.finished, woken, aborted⟩ =>
    let s := s.setChild i ⟨.notified, woken, aborted⟩
    match s.joinWaker with
    | none => some s
    | some c => some { s with joinWaker := none, finishes := s.finishes.modify c wake }
  | _ => none

/-- The count of blocking operations wakes the calls that wait for it. -/
def wakeWaiting (f : Finish) : Finish := if f.stage = .waiting then wake f else f

def startBlocking (s : Tasks) : Tasks :=
  { s with
    operations := s.operations ++ [⟨true, s.shutdown⟩]
    blocking := s.blocking + 1
    finishes := s.finishes.map wakeWaiting }

/-- The worker drops its guard. -/
def endBlocking (s : Tasks) (k : ℕ) : Option Tasks :=
  match s.operations[k]? with
  | some ⟨true, late⟩ =>
    some { s with
      operations := s.operations.set k ⟨false, late⟩
      blocking := s.blocking - 1
      finishes := s.finishes.map wakeWaiting }
  | _ => none

def step (s : Tasks) : Action → Option Tasks
  | .spawn => some s.spawn
  | .stop => some s.stop
  | .wakeChild i => some { s with children := s.children.modify i ({ · with woken := true }) }
  | .abort i =>
    some { s with children := s.children.modify i ({ · with woken := true, aborted := true }) }
  | .pollChild i => s.pollChild i
  | .endPoll i ready => s.endPoll i ready
  | .notify i => s.notify i
  | .finish => some { s with finishes := s.finishes ++ [{}] }
  | .poll c => s.poll c
  | .wakeFinish c => some { s with finishes := s.finishes.modify c wake }
  | .cancel c => s.cancel c
  | .startBlocking => some s.startBlocking
  | .endBlocking k => s.endBlocking k

end Tasks

def machine : Machine Tasks Action where
  start := {}
  step := Tasks.step

variable {s t : Tasks} {c d i : ℕ} {f g : Finish}

/-- What a call of `finish` relies on where it stands. -/
structure FinishOk (s : Tasks) (c : ℕ) (f : Finish) : Prop where
  created : f.stage = .created → f.awake = true
  begun : f.stage ≠ .created → f.stage ≠ .cancelled → s.shutdown = true
  queued : f.stage = .acquiring → f.awake = false → c ∈ s.queue
  holds : f.stage = .joining ∨ f.stage = .waiting → s.drain = some c
  joining : f.stage = .joining → f.awake = false → s.joinWaker = some c ∧
    (∀ child ∈ s.children, child.stage ≠ .notified) ∧ ∃ child ∈ s.children, child.stage ≠ .joined
  drained : f.stage = .waiting ∨ f.stage = .returned → ∀ child ∈ s.children, child.stage = .joined
  waiting : f.stage = .waiting → f.awake = false → 0 < s.blocking
  done : f.stage = .returned → ∀ op ∈ s.operations, op.outstanding = true → op.late = true

structure Inv (s : Tasks) : Prop where
  finish : ∀ (c : ℕ) (f : Finish), s.finishes[c]? = some f → FinishOk s c f
  woken : s.shutdown = true → ∀ child ∈ s.children,
    child.stage = .idle ∨ child.stage = .running → child.woken = true
  holder : ∀ c : ℕ, s.drain = some c → ∃ f, s.finishes[c]? = some f ∧
    (f.stage = .joining ∨ f.stage = .waiting ∨ f.stage = .acquiring ∧ f.awake = true)
  free : s.drain = none → s.queue = []
  nodup : s.queue.Nodup
  queue : ∀ c ∈ s.queue, s.drain ≠ some c ∧ ∃ f, s.finishes[c]? = some f ∧ f.stage = .acquiring
  blocking : s.blocking = s.operations.countP (·.outstanding)

/-! ### Wake-ups of calls -/

/-- Some of the calls are woken. -/
structure Wakes (l l' : List Finish) (g : ℕ → Finish → Finish) : Prop where
  get : ∀ c : ℕ, l'[c]? = (l[c]?).map (g c)
  stage : ∀ c f, (g c f).stage = f.stage
  awake : ∀ c f, f.awake = true → (g c f).awake = true

theorem wakes_modify (l : List Finish) (c : ℕ) :
    Wakes l (l.modify c Tasks.wake) (fun d f => if c = d then Tasks.wake f else f) where
  get d := List.getElem?_modify Tasks.wake c l d
  stage d f := by
    by_cases h : c = d <;> simp [h, Tasks.wake]
  awake d f hf := by
    by_cases h : c = d <;> simp [h, Tasks.wake, hf]

@[simp] theorem wakeWaiting_stage (f : Finish) : (Tasks.wakeWaiting f).stage = f.stage := by
  unfold Tasks.wakeWaiting
  split_ifs <;> rfl

theorem wakeWaiting_awake (h : f.stage = .waiting) : (Tasks.wakeWaiting f).awake = true := by
  rw [Tasks.wakeWaiting, if_pos h]
  rfl

theorem wakes_waiting (l : List Finish) :
    Wakes l (l.map Tasks.wakeWaiting) (fun _ => Tasks.wakeWaiting) where
  get _ := List.getElem?_map
  stage _ f := wakeWaiting_stage f
  awake _ f hf := by
    unfold Tasks.wakeWaiting
    split_ifs
    · rfl
    · exact hf

theorem FinishOk.wake (h : FinishOk s c f) (hstage : g.stage = f.stage)
    (hawake : f.awake = true → g.awake = true) : FinishOk s c g := by
  have hasleep : g.awake = false → f.awake = false := by
    intro hg
    by_contra hf
    rw [hawake (by simpa using hf)] at hg
    cases hg
  constructor
  · intro hs
    exact hawake (h.created (hstage ▸ hs))
  · rw [hstage]
    exact h.begun
  · intro hs ha
    exact h.queued (hstage ▸ hs) (hasleep ha)
  · rw [hstage]
    exact h.holds
  · intro hs ha
    exact h.joining (hstage ▸ hs) (hasleep ha)
  · rw [hstage]
    exact h.drained
  · intro hs ha
    exact h.waiting (hstage ▸ hs) (hasleep ha)
  · rw [hstage]
    exact h.done

theorem Wakes.find {l l' : List Finish} {g : ℕ → Finish → Finish} {f' : Finish}
    (h : Wakes l l' g) (hc : l'[c]? = some f') : ∃ f, l[c]? = some f ∧ g c f = f' := by
  rw [h.get c] at hc
  exact Option.map_eq_some_iff.mp hc

theorem Wakes.found {l l' : List Finish} {g : ℕ → Finish → Finish} (h : Wakes l l' g)
    (hc : l[c]? = some f) : l'[c]? = some (g c f) := by
  rw [h.get c, hc]
  rfl

/-- The rest of the invariant survives wake-ups, and what the calls rely on is shown apart. -/
theorem Inv.wakes {s' : Tasks} {g : ℕ → Finish → Finish} (h : Inv s)
    (hg : Wakes s.finishes s'.finishes g)
    (hok : ∀ c f, s.finishes[c]? = some f → FinishOk s' c (g c f))
    (hshutdown : s'.shutdown = s.shutdown) (hchildren : s'.children = s.children)
    (hdrain : s'.drain = s.drain) (hqueue : s'.queue = s.queue)
    (hblocking : s'.blocking = s'.operations.countP (·.outstanding)) : Inv s' where
  finish c f' hc := by
    obtain ⟨f, hf, heq⟩ := hg.find hc
    rw [← heq]
    exact hok c f hf
  woken := by
    rw [hshutdown, hchildren]
    exact h.woken
  holder c hc := by
    rw [hdrain] at hc
    obtain ⟨f, hf, hs⟩ := h.holder c hc
    refine ⟨g c f, hg.found hf, ?_⟩
    rw [hg.stage]
    apply hs.imp_right
    apply Or.imp_right
    exact fun ⟨hstage, ha⟩ => ⟨hstage, hg.awake c f ha⟩
  free := by
    rw [hdrain, hqueue]
    exact h.free
  nodup := by
    rw [hqueue]
    exact h.nodup
  queue c hc := by
    rw [hqueue] at hc
    obtain ⟨hne, f, hf, hs⟩ := h.queue c hc
    refine ⟨by rwa [hdrain], g c f, hg.found hf, ?_⟩
    rw [hg.stage]
    exact hs
  blocking := hblocking

theorem Inv.wakeFinish (h : Inv s) (c : ℕ) :
    Inv { s with finishes := s.finishes.modify c Tasks.wake } := by
  have hg := wakes_modify s.finishes c
  apply h.wakes hg
  · intro d f hf
    exact { (h.finish d f hf).wake (hg.stage d f) (hg.awake d f) with }
  · rfl
  · rfl
  · rfl
  · rfl
  · exact h.blocking

theorem Inv.startBlocking (h : Inv s) : Inv s.startBlocking := by
  have hg := wakes_waiting s.finishes
  apply h.wakes hg
  · intro d f hf
    have hok := (h.finish d f hf).wake (hg.stage d f) (hg.awake d f)
    refine { hok with waiting := ?_, done := ?_ }
    · intro _ _
      exact Nat.succ_pos _
    · intro hs op hop hout
      rcases List.mem_append.mp hop with hop | hop
      · exact hok.done hs op hop hout
      · rw [List.mem_singleton.mp hop]
        apply hok.begun
        · rw [hs]
          decide
        · rw [hs]
          decide
  · rfl
  · rfl
  · rfl
  · rfl
  · have hcount := h.blocking
    simp [Tasks.startBlocking, hcount]

theorem endBlocking_cases {k : ℕ} (hs : s.endBlocking k = some t) : ∃ late,
    s.operations[k]? = some ⟨true, late⟩ ∧ t = { s with
      operations := s.operations.set k ⟨false, late⟩
      blocking := s.blocking - 1
      finishes := s.finishes.map Tasks.wakeWaiting } := by
  unfold Tasks.endBlocking at hs
  cases hk : s.operations[k]? with
  | none =>
    rw [hk] at hs
    cases hs
  | some op =>
    rw [hk] at hs
    cases op with
    | mk outstanding late =>
    cases outstanding with
    | false => cases hs
    | true => exact ⟨late, rfl, (Option.some.inj hs).symm⟩

theorem Inv.endBlocking {k : ℕ} (h : Inv s) (hs : s.endBlocking k = some t) : Inv t := by
  obtain ⟨late, hk, rfl⟩ := endBlocking_cases hs
  obtain ⟨hlt, hget⟩ := List.getElem?_eq_some_iff.mp hk
  have hg := wakes_waiting s.finishes
  apply h.wakes hg
  · intro d f hf
    have hok := (h.finish d f hf).wake (hg.stage d f) (hg.awake d f)
    refine { hok with waiting := ?_, done := ?_ }
    · intro hstage hasleep
      rw [wakeWaiting_stage] at hstage
      rw [wakeWaiting_awake hstage] at hasleep
      cases hasleep
    · intro hstage op hop hout
      rcases List.mem_or_eq_of_mem_set hop with hop | hop
      · exact hok.done hstage op hop hout
      · rw [hop] at hout
        cases hout
  · rfl
  · rfl
  · rfl
  · rfl
  · have hcount := h.blocking
    simp [List.countP_set hlt, hget, hcount]

/-! ### What happens to children -/

/-- A step that changes children and lets none into the notified list, nor out of the set. -/
theorem Inv.children {l : List Child} {b : Bool} (h : Inv s) (hb : s.shutdown = true → b = true)
    (hnotified : ∀ child ∈ l, child.stage = .notified →
      ∃ old ∈ s.children, old.stage = .notified)
    (hjoined : (∀ child ∈ s.children, child.stage = .joined) →
      ∀ child ∈ l, child.stage = .joined)
    (hopen : (∃ child ∈ s.children, child.stage ≠ .joined) → ∃ child ∈ l, child.stage ≠ .joined)
    (hwoken : b = true → ∀ child ∈ l, child.stage = .idle ∨ child.stage = .running →
      child.woken = true) : Inv { s with shutdown := b, children := l } where
  finish c f hf := by
    have hok := h.finish c f hf
    refine { hok with begun := ?_, joining := ?_, drained := ?_ }
    · intro h1 h2
      exact hb (hok.begun h1 h2)
    · intro hs ha
      obtain ⟨hw, hnone, hsome⟩ := hok.joining hs ha
      refine ⟨hw, ?_, hopen hsome⟩
      intro child hchild hstage
      obtain ⟨old, hold, heq⟩ := hnotified child hchild hstage
      exact hnone old hold heq
    · intro hs
      exact hjoined (hok.drained hs)
  woken := hwoken
  holder := h.holder
  free := h.free
  nodup := h.nodup
  queue := h.queue
  blocking := h.blocking

theorem Inv.stop (h : Inv s) : Inv s.stop := by
  apply h.children
  · intro _
    rfl
  · intro child hchild hstage
    obtain ⟨old, hold, rfl⟩ := List.mem_map.mp hchild
    exact ⟨old, hold, hstage⟩
  · intro hall child hchild
    obtain ⟨old, hold, rfl⟩ := List.mem_map.mp hchild
    exact hall old hold
  · intro ⟨old, hold, hne⟩
    exact ⟨_, List.mem_map_of_mem hold, hne⟩
  · intro _ child hchild _
    obtain ⟨old, _, rfl⟩ := List.mem_map.mp hchild
    rfl

theorem mem_modify {α : Type*} {l : List α} {u : α → α} {a : α} (h : a ∈ l.modify i u) :
    ∃ b ∈ l, a = b ∨ a = u b := by
  obtain ⟨j, hj⟩ := List.mem_iff_getElem?.mp h
  rw [List.getElem?_modify] at hj
  obtain ⟨b, hb, heq⟩ := Option.map_eq_some_iff.mp hj
  refine ⟨b, List.mem_of_getElem? hb, ?_⟩
  by_cases hij : i = j
  · right
    rw [← heq, if_pos hij]
  · left
    rw [← heq, if_neg hij]

theorem exists_mem_modify {α : Type*} {l : List α} (i : ℕ) (u : α → α) {b : α} (h : b ∈ l) :
    ∃ a ∈ l.modify i u, a = b ∨ a = u b := by
  obtain ⟨j, hj⟩ := List.mem_iff_getElem?.mp h
  refine ⟨(if i = j then u b else b), ?_, ?_⟩
  · apply List.mem_of_getElem? (i := j)
    rw [List.getElem?_modify, hj]
    by_cases hij : i = j <;> simp [hij]
  · by_cases hij : i = j <;> simp [hij]

/-- A wake-up or an abort. -/
theorem Inv.modifyChild (h : Inv s) (i : ℕ) {u : Child → Child}
    (hu : ∀ child, (u child).stage = child.stage) (hw : ∀ child, (u child).woken = true) :
    Inv { s with children := s.children.modify i u } := by
  apply h.children id
  · intro child hchild hstage
    obtain ⟨old, hold, heq⟩ := mem_modify hchild
    refine ⟨old, hold, ?_⟩
    rcases heq with rfl | rfl
    · exact hstage
    · exact (hu old).symm.trans hstage
  · intro hall child hchild
    obtain ⟨old, hold, heq⟩ := mem_modify hchild
    rcases heq with rfl | rfl
    · exact hall _ hold
    · exact (hu old).trans (hall old hold)
  · intro ⟨old, hold, hne⟩
    obtain ⟨child, hchild, heq⟩ := exists_mem_modify i u hold
    refine ⟨child, hchild, ?_⟩
    rcases heq with rfl | rfl
    · exact hne
    · rwa [hu old]
  · intro hb child hchild hstage
    obtain ⟨old, hold, heq⟩ := mem_modify hchild
    rcases heq with rfl | rfl
    · exact h.woken hb _ hold hstage
    · exact hw old

/-- A child that is in the set and not in its notified list stays so. -/
theorem Inv.setChild {old child : Child} (h : Inv s) (hi : s.children[i]? = some old)
    (hold : old.stage ≠ .joined) (hnew : child.stage ≠ .joined ∧ child.stage ≠ .notified)
    (hwoken : s.shutdown = true → child.stage = .idle ∨ child.stage = .running →
      child.woken = true) : Inv (s.setChild i child) := by
  have hlt : i < s.children.length := (List.getElem?_eq_some_iff.mp hi).1
  apply h.children id
  · intro other hother hstage
    rcases List.mem_or_eq_of_mem_set hother with hother | rfl
    · exact ⟨other, hother, hstage⟩
    · exact absurd hstage hnew.2
  · intro hall
    exact absurd (hall old (List.mem_of_getElem? hi)) hold
  · intro _
    exact ⟨child, List.mem_set hlt child, hnew.1⟩
  · intro hb other hother hstage
    rcases List.mem_or_eq_of_mem_set hother with hother | rfl
    · exact h.woken hb other hother hstage
    · exact hwoken hb hstage

theorem pollChild_cases (hs : s.pollChild i = some t) : ∃ child child',
    s.children[i]? = some child ∧ child.stage = .idle ∧ t = s.setChild i child' ∧
    (child'.stage = .finished ∨ s.shutdown = false ∧ child'.stage = .running) := by
  unfold Tasks.pollChild at hs
  cases hi : s.children[i]? with
  | none =>
    rw [hi] at hs
    cases hs
  | some child =>
    rw [hi] at hs
    cases child with
    | mk stage woken aborted =>
    cases stage <;> cases woken <;> try cases hs
    dsimp only at hs
    by_cases hstop : s.shutdown = true ∨ aborted = true
    · rw [if_pos hstop] at hs
      exact ⟨_, _, rfl, rfl, (Option.some.inj hs).symm, .inl rfl⟩
    · rw [if_neg hstop] at hs
      refine ⟨_, _, rfl, rfl, (Option.some.inj hs).symm, .inr ⟨?_, rfl⟩⟩
      simpa using fun h => hstop (.inl h)

theorem endPoll_cases {ready : Bool} (hs : s.endPoll i ready = some t) : ∃ child child',
    s.children[i]? = some child ∧ child.stage = .running ∧ t = s.setChild i child' ∧
    child'.woken = child.woken ∧ (child'.stage = .finished ∨ child'.stage = .idle) := by
  unfold Tasks.endPoll at hs
  cases hi : s.children[i]? with
  | none =>
    rw [hi] at hs
    cases hs
  | some child =>
    rw [hi] at hs
    cases child with
    | mk stage woken aborted =>
    cases stage <;> try cases hs
    refine ⟨_, _, rfl, rfl, rfl, rfl, ?_⟩
    cases ready <;> simp

theorem Inv.pollChild (h : Inv s) (hs : s.pollChild i = some t) : Inv t := by
  obtain ⟨child, child', hi, hidle, rfl, hstage⟩ := pollChild_cases hs
  apply h.setChild hi
  · simp [hidle]
  · rcases hstage with hstage | ⟨_, hstage⟩ <;> simp [hstage]
  · intro hstop hnew
    rcases hstage with hstage | ⟨hnot, _⟩
    · simp [hstage] at hnew
    · rw [hnot] at hstop
      cases hstop

theorem Inv.endPoll {ready : Bool} (h : Inv s) (hs : s.endPoll i ready = some t) : Inv t := by
  obtain ⟨child, child', hi, hrunning, rfl, hwoken, hstage⟩ := endPoll_cases hs
  apply h.setChild hi
  · simp [hrunning]
  · rcases hstage with hstage | hstage <;> simp [hstage]
  · intro hstop _
    rw [hwoken]
    exact h.woken hstop child (List.mem_of_getElem? hi) (.inr hrunning)

theorem notify_cases (hs : s.notify i = some t) : ∃ child child',
    s.children[i]? = some child ∧ child.stage = .finished ∧ child'.stage = .notified ∧
    (s.joinWaker = none ∧ t = s.setChild i child' ∨ ∃ c, s.joinWaker = some c ∧
      t = { s.setChild i child' with
        joinWaker := none, finishes := s.finishes.modify c Tasks.wake }) := by
  unfold Tasks.notify at hs
  cases hi : s.children[i]? with
  | none =>
    rw [hi] at hs
    cases hs
  | some child =>
    rw [hi] at hs
    cases child with
    | mk stage woken aborted =>
    cases stage <;> try cases hs
    refine ⟨_, ⟨.notified, woken, aborted⟩, rfl, rfl, rfl, ?_⟩
    dsimp only at hs
    have heq : (s.setChild i ⟨.notified, woken, aborted⟩).joinWaker = s.joinWaker := rfl
    cases hw : s.joinWaker with
    | none =>
      rw [heq, hw] at hs
      exact .inl ⟨rfl, (Option.some.inj hs).symm⟩
    | some c =>
      rw [heq, hw] at hs
      exact .inr ⟨c, rfl, (Option.some.inj hs).symm⟩

/-- A child gets into the notified list while no call waits for it. -/
theorem Inv.notified {old child : Child} (h : Inv s) (hi : s.children[i]? = some old)
    (hold : old.stage ≠ .joined) (hnew : child.stage = .notified)
    (hawake : ∀ (c : ℕ) (f : Finish), s.finishes[c]? = some f → f.stage = .joining →
      f.awake = true) {w : Option ℕ} : Inv { s.setChild i child with joinWaker := w } where
  finish c f hf := by
    have hok := h.finish c f hf
    refine { hok with joining := ?_, drained := ?_ }
    · intro hs ha
      rw [hawake c f hf hs] at ha
      cases ha
    · intro hs
      exact absurd (hok.drained hs old (List.mem_of_getElem? hi)) hold
  woken hb other hother hstage := by
    rcases List.mem_or_eq_of_mem_set hother with hother | rfl
    · exact h.woken hb other hother hstage
    · simp [hnew] at hstage
  holder := h.holder
  free := h.free
  nodup := h.nodup
  queue := h.queue
  blocking := h.blocking

theorem Inv.notify (h : Inv s) (hs : s.notify i = some t) : Inv t := by
  obtain ⟨child, child', hi, hfin, hnot, hcase⟩ := notify_cases hs
  have hold : child.stage ≠ .joined := by simp [hfin]
  rcases hcase with ⟨hw, rfl⟩ | ⟨c, hw, rfl⟩
  · have hawake : ∀ (c : ℕ) (f : Finish), s.finishes[c]? = some f → f.stage = .joining →
        f.awake = true := by
      intro c f hf hs
      by_contra ha
      have hsome := ((h.finish c f hf).joining hs (by simpa using ha)).1
      rw [hw] at hsome
      cases hsome
    exact h.notified (w := s.joinWaker) hi hold hnot hawake
  · have hwoken := h.wakeFinish c
    have hg := wakes_modify s.finishes c
    apply hwoken.notified hi hold hnot
    intro d f' hf' hs
    obtain ⟨f, hf, rfl⟩ := hg.find hf'
    by_cases hcd : c = d
    · simp [hcd, Tasks.wake]
    · simp only [if_neg hcd] at hs ⊢
      by_contra ha
      have hsome := ((h.finish d f hf).joining hs (by simpa using ha)).1
      rw [hw] at hsome
      exact hcd (Option.some.inj hsome)

/-- Before the first stop, no call got past its first poll. -/
theorem Inv.spawn (h : Inv s) : Inv s.spawn := by
  unfold Tasks.spawn
  by_cases hb : s.shutdown = true
  · rw [if_pos hb]
    exact h
  · rw [if_neg hb]
    have hstage : ∀ (c : ℕ) (f : Finish), s.finishes[c]? = some f →
        f.stage = .created ∨ f.stage = .cancelled := by
      intro c f hf
      by_contra hne
      rw [not_or] at hne
      exact hb ((h.finish c f hf).begun hne.1 hne.2)
    refine { h with finish := ?_, woken := fun h => absurd h hb }
    intro c f hf
    refine { h.finish c f hf with joining := ?_, drained := ?_ }
    · intro hs
      rcases hstage c f hf with h' | h' <;> simp [h'] at hs
    · intro hs
      rcases hstage c f hf with h' | h' <;> simp [h'] at hs

/-- A call takes a child out of the notified list, so that no call waits for one. -/
theorem Inv.reap (h : Inv s) (hi : ∃ child ∈ s.children, child.stage = .notified) (i : ℕ) :
    Inv { s with children := s.children.modify i Tasks.reap } where
  finish c f hf := by
    have hok := h.finish c f hf
    refine { hok with joining := ?_, drained := ?_ }
    · intro hs ha
      obtain ⟨child, hchild, hnot⟩ := hi
      exact absurd hnot ((hok.joining hs ha).2.1 child hchild)
    · intro hs
      obtain ⟨child, hchild, hnot⟩ := hi
      have hjoined := hok.drained hs child hchild
      rw [hnot] at hjoined
      cases hjoined
  woken hb child hchild hstage := by
    obtain ⟨old, hold, heq⟩ := mem_modify hchild
    rcases heq with rfl | rfl
    · exact h.woken hb _ hold hstage
    · unfold Tasks.reap at hstage ⊢
      by_cases hnot : old.stage = .notified
      · simp [hnot] at hstage
      · rw [if_neg hnot] at hstage ⊢
        exact h.woken hb old hold hstage
  holder := h.holder
  free := h.free
  nodup := h.nodup
  queue := h.queue
  blocking := h.blocking

/-! ### What happens to a call -/

/-- A call moves to where what it relies on holds. -/
theorem Inv.setFinish (h : Inv s) (hc : s.finishes[c]? = some f) (hok : FinishOk s c g)
    (hhold : s.drain = some c →
      g.stage = .joining ∨ g.stage = .waiting ∨ g.stage = .acquiring ∧ g.awake = true)
    (hqueue : c ∈ s.queue → g.stage = .acquiring) : Inv (s.setFinish c g) where
  finish d f' hd := by
    have hget := Cells.getElem?_set_of g d hc
    change (s.finishes.set c g)[d]? = some f' at hd
    by_cases hcd : c = d
    · rw [hget, if_pos hcd] at hd
      obtain rfl := Option.some.inj hd
      rw [← hcd]
      exact { hok with }
    · rw [hget, if_neg hcd] at hd
      exact { h.finish d f' hd with }
  woken := h.woken
  holder d hd := by
    have hget := Cells.getElem?_set_of g d hc
    by_cases hcd : c = d
    · rw [if_pos hcd] at hget
      rw [← hcd] at hd
      exact ⟨g, hget, hhold hd⟩
    · rw [if_neg hcd] at hget
      obtain ⟨f', hf', hs⟩ := h.holder d hd
      exact ⟨f', hget.trans hf', hs⟩
  free := h.free
  nodup := h.nodup
  queue d hd := by
    have hget := Cells.getElem?_set_of g d hc
    obtain ⟨hne, f', hf', hs⟩ := h.queue d hd
    refine ⟨hne, ?_⟩
    by_cases hcd : c = d
    · rw [if_pos hcd] at hget
      rw [← hcd] at hd
      exact ⟨g, hget, hqueue hd⟩
    · rw [if_neg hcd] at hget
      exact ⟨f', hget.trans hf', hs⟩
  blocking := h.blocking

/-- The lock is free, and the call that is polled takes it. -/
theorem Inv.lock (h : Inv s) (hc : s.finishes[c]? = some f) (hf : f.stage = .acquiring)
    (ha : f.awake = true) (hfree : s.drain = none) : Inv { s with drain := some c } where
  finish d f' hd := by
    have hok := h.finish d f' hd
    refine { hok with holds := ?_ }
    intro hs
    have hdrain := hok.holds hs
    rw [hfree] at hdrain
    cases hdrain
  woken := h.woken
  holder d hd := by
    obtain rfl := Option.some.inj hd
    exact ⟨f, hc, .inr (.inr ⟨hf, ha⟩)⟩
  free hd := by cases hd
  nodup := h.nodup
  queue d hd := by
    change d ∈ s.queue at hd
    rw [h.free hfree] at hd
    cases hd
  blocking := h.blocking

theorem Inv.enqueue (h : Inv s) (hc : s.finishes[c]? = some f) (hf : f.stage = .acquiring)
    (hheld : s.drain ≠ none) (hother : s.drain ≠ some c) (hnot : c ∉ s.queue) :
    Inv { s with queue := s.queue ++ [c] } where
  finish d f' hd := by
    have hok := h.finish d f' hd
    refine { hok with queued := ?_ }
    intro hs ha
    exact List.mem_append_left [c] (hok.queued hs ha)
  woken := h.woken
  holder := h.holder
  free hd := absurd hd hheld
  nodup := by
    have hne : ∀ d ∈ s.queue, d ≠ c := by
      intro d hd heq
      exact hnot (heq ▸ hd)
    simpa [List.nodup_append, h.nodup] using hne
  queue d hd := by
    rcases List.mem_append.mp hd with hd | hd
    · exact h.queue d hd
    · rw [List.mem_singleton.mp hd]
      exact ⟨hother, f, hc, hf⟩
  blocking := h.blocking

/-- The call that holds the drain lock leaves its waker in the set. -/
theorem Inv.register (h : Inv s) (hdrain : s.drain = some c)
    (hnone : ∀ child ∈ s.children, child.stage ≠ .notified)
    (hsome : ∃ child ∈ s.children, child.stage ≠ .joined) :
    Inv { s with joinWaker := some c } where
  finish d f' hd := by
    have hok := h.finish d f' hd
    refine { hok with joining := ?_ }
    intro hs _
    have hholds := hok.holds (.inl hs)
    exact ⟨hdrain.symm.trans hholds, hnone, hsome⟩
  woken := h.woken
  holder := h.holder
  free := h.free
  nodup := h.nodup
  queue := h.queue
  blocking := h.blocking

theorem release_nil (h : s.queue = []) : s.release = { s with drain := none } := by
  cases s with
  | mk children joinWaker shutdown drain queue blocking finishes operations =>
    obtain rfl : queue = [] := h
    rfl

theorem release_cons {rest : List ℕ} (h : s.queue = c :: rest) : s.release =
    { s with drain := some c, queue := rest, finishes := s.finishes.modify c Tasks.wake } := by
  cases s with
  | mk children joinWaker shutdown drain queue blocking finishes operations =>
    obtain rfl : queue = c :: rest := h
    rfl

/-- Only the call that has the lock joins or waits. -/
theorem Inv.not_draining (h : Inv s) (hdrain : s.drain = some c) (hcd : c ≠ d)
    (hd : s.finishes[d]? = some f) : f.stage ≠ .joining ∧ f.stage ≠ .waiting := by
  have hholds := (h.finish d f hd).holds
  constructor
  · intro hs
    exact hcd (Option.some.inj (hdrain.symm.trans (hholds (.inl hs))))
  · intro hs
    exact hcd (Option.some.inj (hdrain.symm.trans (hholds (.inr hs))))

/-- No call waits for the lock. -/
theorem Inv.release_free (h : Inv s) (hc : s.finishes[c]? = some f) (hdrain : s.drain = some c)
    (hok : FinishOk { s.setFinish c g with drain := none } c g) (hqueue : s.queue = []) :
    Inv { s.setFinish c g with drain := none } where
  finish d f' hd := by
    change (s.finishes.set c g)[d]? = some f' at hd
    rw [Cells.getElem?_set_of g d hc] at hd
    by_cases hcd : c = d
    · rw [if_pos hcd] at hd
      rw [← hcd, ← Option.some.inj hd]
      exact hok
    · rw [if_neg hcd] at hd
      have hold := h.finish d f' hd
      have hne := h.not_draining hdrain hcd hd
      refine { hold with holds := ?_ }
      intro hs
      rcases hs with hs | hs
      · exact absurd hs hne.1
      · exact absurd hs hne.2
  woken := h.woken
  holder d hd := by cases hd
  free _ := hqueue
  nodup := h.nodup
  queue d hd := by
    change d ∈ s.queue at hd
    rw [hqueue] at hd
    cases hd
  blocking := h.blocking

/-- The first call that waits for the lock has it, and is awake. -/
theorem Inv.release_next {rest : List ℕ} (h : Inv s) (hc : s.finishes[c]? = some f)
    (hdrain : s.drain = some c)
    (hok : ∀ t : Tasks, t.shutdown = s.shutdown → t.children = s.children →
      t.operations = s.operations → FinishOk t c g)
    (hqueue : s.queue = d :: rest) :
    Inv { s.setFinish c g with
      drain := some d
      queue := rest
      finishes := (s.finishes.set c g).modify d Tasks.wake } := by
  have hnot : c ∉ d :: rest := fun hmem => (h.queue c (hqueue ▸ hmem)).1 hdrain
  have hnodup := h.nodup
  rw [hqueue, List.nodup_cons] at hnodup
  have hg := wakes_modify (s.finishes.set c g) d
  have hkept : ∀ e ∈ d :: rest, ∃ f', s.finishes[e]? = some f' ∧ f'.stage = .acquiring ∧
      (s.finishes.set c g)[e]? = some f' := by
    intro e he
    obtain ⟨_, f', hf', hs⟩ := h.queue e (hqueue ▸ he)
    refine ⟨f', hf', hs, ?_⟩
    have hce : c ≠ e := by
      intro heq
      rw [← heq] at he
      exact hnot he
    rw [Cells.getElem?_set_of g e hc, if_neg hce]
    exact hf'
  exact
    { finish := by
        intro e f' he
        obtain ⟨f'', hf'', rfl⟩ := hg.find he
        have hstage := hg.stage e f''
        have hawake := hg.awake e f''
        rw [Cells.getElem?_set_of g e hc] at hf''
        by_cases hce : c = e
        · rw [if_pos hce] at hf''
          obtain rfl := Option.some.inj hf''
          rw [← hce] at hstage hawake ⊢
          apply FinishOk.wake _ hstage hawake
          exact hok _ rfl rfl rfl
        · rw [if_neg hce] at hf''
          have hold := (h.finish e f'' hf'').wake hstage hawake
          have hne := h.not_draining hdrain hce hf''
          refine { hold with queued := ?_, holds := ?_ }
          · intro hs ha
            have hmem := hold.queued hs ha
            rw [hqueue] at hmem
            rcases List.mem_cons.mp hmem with rfl | hmem
            · simp [Tasks.wake] at ha
            · exact hmem
          · rw [hstage]
            intro hs
            rcases hs with hs | hs
            · exact absurd hs hne.1
            · exact absurd hs hne.2
      woken := h.woken
      holder := fun e he => by
        obtain rfl := Option.some.inj he
        obtain ⟨f', _, hs, hf'⟩ := hkept d List.mem_cons_self
        refine ⟨_, hg.found hf', .inr (.inr ⟨(hg.stage d f').trans hs, ?_⟩)⟩
        simp [Tasks.wake]
      free := fun he => by cases he
      nodup := hnodup.2
      queue := fun e he => by
        change e ∈ rest at he
        obtain ⟨f', _, hs, hf'⟩ := hkept e (List.mem_cons_of_mem d he)
        refine ⟨?_, _, hg.found hf', (hg.stage e f').trans hs⟩
        intro heq
        rw [Option.some.inj heq] at hnodup
        exact hnodup.1 he
      blocking := h.blocking }

/-- A call is over and gives the lock on. -/
theorem Inv.release (h : Inv s) (hc : s.finishes[c]? = some f) (hdrain : s.drain = some c)
    (hover : g.stage = .returned ∨ g.stage = .cancelled)
    (hall : g.stage = .returned → ∀ child ∈ s.children, child.stage = .joined)
    (hshutdown : g.stage = .returned → s.shutdown = true)
    (hdone : g.stage = .returned → ∀ op ∈ s.operations, op.outstanding = true → op.late = true) :
    Inv (s.setFinish c g).release := by
  have hok : ∀ t : Tasks, t.shutdown = s.shutdown → t.children = s.children →
      t.operations = s.operations → FinishOk t c g := by
    intro t h1 h2 h3
    constructor
    all_goals rcases hover with hg | hg <;> simp [hg, h1, h2, h3]
    · exact hshutdown hg
    · exact hall hg
    · exact hdone hg
  cases hqueue : s.queue with
  | nil =>
    have heq := release_nil (s := s.setFinish c g) hqueue
    rw [heq]
    exact h.release_free hc hdrain (hok _ rfl rfl rfl) hqueue
  | cons d rest =>
    have heq := release_cons (s := s.setFinish c g) hqueue
    rw [heq]
    exact h.release_next hc hdrain hok hqueue

theorem Inv.pollFinish (h : Inv s) (hc : s.finishes[c]? = some f) (ha : f.awake = true)
    (hs : s.pollFinish c f = some t) : Inv t := by
  have hok := h.finish c f hc
  have hheld : c ∈ s.queue → s.drain ≠ some c := fun hmem => (h.queue c hmem).1
  unfold Tasks.pollFinish at hs
  cases hf : f.stage with
  | created =>
    rw [hf] at hs
    obtain rfl := Option.some.inj hs
    apply h.stop.setFinish hc
    · constructor <;> simp [Tasks.stop]
    · simp
    · simp
  | acquiring =>
    rw [hf] at hs
    have hbegun := hok.begun (by simp [hf]) (by simp [hf])
    have hjoining : ∀ {s : Tasks}, s.shutdown = true → s.drain = some c →
        FinishOk s c ⟨.joining, true⟩ := by
      intro s hb hd
      constructor <;> simp [hb, hd]
    dsimp only at hs
    by_cases hmine : s.drain = some c
    · rw [if_pos hmine] at hs
      obtain rfl := Option.some.inj hs
      apply h.setFinish hc (hjoining hbegun hmine)
      · simp
      · intro hmem
        exact absurd hmine (hheld hmem)
    · rw [if_neg hmine] at hs
      by_cases hfree : s.drain = none
      · rw [if_pos hfree] at hs
        obtain rfl := Option.some.inj hs
        apply (h.lock hc hf ha hfree).setFinish hc (hjoining hbegun rfl)
        · simp
        · intro hmem
          change c ∈ s.queue at hmem
          rw [h.free hfree] at hmem
          cases hmem
      · rw [if_neg hfree] at hs
        have hasleep : ∀ {s : Tasks}, s.shutdown = true → c ∈ s.queue →
            FinishOk s c ⟨.acquiring, false⟩ := by
          intro s hb hd
          constructor <;> simp [hb, hd]
        by_cases hmem : c ∈ s.queue
        · rw [if_pos hmem] at hs
          obtain rfl := Option.some.inj hs
          apply h.setFinish hc (hasleep hbegun hmem)
          · intro hd
            exact absurd hd hmine
          · simp
        · rw [if_neg hmem] at hs
          obtain rfl := Option.some.inj hs
          apply (h.enqueue hc hf hfree hmine hmem).setFinish hc (hasleep hbegun (by simp))
          · intro hd
            exact absurd hd hmine
          · simp
  | joining =>
    rw [hf] at hs
    have hbegun := hok.begun (by simp [hf]) (by simp [hf])
    have hmine := hok.holds (.inl hf)
    have hnot : c ∉ s.queue := fun hmem => hheld hmem hmine
    dsimp only at hs
    cases hfind : s.children.findIdx? (·.stage = .notified) with
    | some i =>
      rw [hfind] at hs
      obtain rfl := Option.some.inj hs
      obtain ⟨hlt, hi, _⟩ := List.findIdx?_eq_some_iff_getElem.mp hfind
      exact h.reap ⟨s.children[i], List.getElem_mem hlt, by simpa using hi⟩ i
    | none =>
      rw [hfind] at hs
      dsimp only at hs
      have hnone : ∀ child ∈ s.children, child.stage ≠ .notified := by
        simpa using List.findIdx?_eq_none_iff.mp hfind
      by_cases hall : s.children.all (·.stage = .joined) = true
      · rw [if_pos hall] at hs
        obtain rfl := Option.some.inj hs
        have hjoined : ∀ child ∈ s.children, child.stage = .joined := by simpa using hall
        apply h.setFinish hc
        · constructor <;> simp [hbegun, hmine]
          exact hjoined
        · simp
        · intro hmem
          exact absurd hmem hnot
      · rw [if_neg hall] at hs
        obtain rfl := Option.some.inj hs
        have hsome : ∃ child ∈ s.children, child.stage ≠ .joined := by simpa using hall
        apply (h.register hmine hnone hsome).setFinish hc
        · constructor <;> simp [hbegun, hmine]
          exact ⟨hnone, hsome⟩
        · simp
        · intro hmem
          exact absurd hmem hnot
  | waiting =>
    rw [hf] at hs
    have hbegun := hok.begun (by simp [hf]) (by simp [hf])
    have hmine := hok.holds (.inr hf)
    have hjoined := hok.drained (.inl hf)
    dsimp only at hs
    by_cases hzero : s.blocking = 0
    · rw [if_pos hzero] at hs
      obtain rfl := Option.some.inj hs
      apply h.release hc hmine (.inl rfl)
      · intro _
        exact hjoined
      · intro _
        exact hbegun
      · intro _ op hop hout
        have hcount := h.blocking
        rw [hzero] at hcount
        exact absurd hout (List.countP_eq_zero.mp hcount.symm op hop)
    · rw [if_neg hzero] at hs
      obtain rfl := Option.some.inj hs
      apply h.setFinish hc
      · constructor <;> simp [hbegun, hmine]
        · exact hjoined
        · omega
      · simp
      · intro hmem
        exact absurd hmine (hheld hmem)
  | returned =>
    rw [hf] at hs
    cases hs
  | cancelled =>
    rw [hf] at hs
    cases hs

theorem poll_cases (hs : s.poll c = some t) :
    ∃ f, s.finishes[c]? = some f ∧ f.awake = true ∧ s.pollFinish c f = some t := by
  unfold Tasks.poll at hs
  cases hc : s.finishes[c]? with
  | none =>
    rw [hc] at hs
    cases hs
  | some f =>
    rw [hc] at hs
    by_cases ha : f.awake = true
    · refine ⟨f, rfl, ha, ?_⟩
      simpa [ha] using hs
    · simp [ha] at hs

/-- A call that waits for the lock gives up its place. -/
theorem Inv.dequeue (h : Inv s) (hc : s.finishes[c]? = some f) (hother : s.drain ≠ some c)
    (hg : g.stage = .cancelled) :
    Inv { s.setFinish c g with queue := s.queue.erase c } where
  finish d f' hd := by
    have hget := Cells.getElem?_set_of g d hc
    change (s.finishes.set c g)[d]? = some f' at hd
    by_cases hcd : c = d
    · rw [hget, if_pos hcd] at hd
      obtain rfl := Option.some.inj hd
      constructor <;> simp [hg]
    · rw [hget, if_neg hcd] at hd
      have hok := h.finish d f' hd
      refine { hok with queued := ?_ }
      intro hs ha
      exact (List.mem_erase_of_ne (Ne.symm hcd)).mpr (hok.queued hs ha)
  woken := h.woken
  holder d hd := by
    have hcd : c ≠ d := fun heq => hother (heq ▸ hd)
    have hget := Cells.getElem?_set_of g d hc
    rw [if_neg hcd] at hget
    obtain ⟨f', hf', hs⟩ := h.holder d hd
    exact ⟨f', hget.trans hf', hs⟩
  free hd := by
    change s.queue.erase c = []
    rw [h.free hd]
    rfl
  nodup := h.nodup.erase c
  queue d hd := by
    obtain ⟨hdc, hmem⟩ := h.nodup.mem_erase_iff.mp hd
    have hget := Cells.getElem?_set_of g d hc
    rw [if_neg (Ne.symm hdc)] at hget
    obtain ⟨hne, f', hf', hs⟩ := h.queue d hmem
    exact ⟨hne, f', hget.trans hf', hs⟩
  blocking := h.blocking

theorem cancel_cases (hs : s.cancel c = some t) : ∃ f, s.finishes[c]? = some f ∧
    f.stage ≠ .returned ∧ (s.drain = some c ∧ t = (s.setFinish c ⟨.cancelled, false⟩).release ∨
      s.drain ≠ some c ∧
        t = { s.setFinish c ⟨.cancelled, false⟩ with queue := s.queue.erase c }) := by
  unfold Tasks.cancel at hs
  cases hc : s.finishes[c]? with
  | none =>
    rw [hc] at hs
    cases hs
  | some f =>
    rw [hc] at hs
    dsimp only at hs
    by_cases hover : f.stage = .returned ∨ f.stage = .cancelled
    · rw [if_pos hover] at hs
      cases hs
    · rw [if_neg hover] at hs
      rw [not_or] at hover
      refine ⟨f, rfl, hover.1, ?_⟩
      by_cases hmine : (s.setFinish c ⟨.cancelled, false⟩).drain = some c
      · rw [if_pos hmine] at hs
        exact .inl ⟨hmine, (Option.some.inj hs).symm⟩
      · rw [if_neg hmine] at hs
        exact .inr ⟨hmine, (Option.some.inj hs).symm⟩

theorem Inv.cancel (h : Inv s) (hs : s.cancel c = some t) : Inv t := by
  obtain ⟨f, hc, _, hcase⟩ := cancel_cases hs
  rcases hcase with ⟨hmine, rfl⟩ | ⟨hother, rfl⟩
  · apply h.release hc hmine (.inr rfl) <;> simp
  · exact h.dequeue hc hother rfl

theorem Inv.newFinish (h : Inv s) : Inv { s with finishes := s.finishes ++ [{}] } where
  finish c f hc := by
    change (s.finishes ++ [({} : Finish)])[c]? = some f at hc
    by_cases hlt : c < s.finishes.length
    · rw [List.getElem?_append_left hlt] at hc
      exact { h.finish c f hc with }
    · rw [List.getElem?_append_right (by omega)] at hc
      have hf : f = {} := List.mem_singleton.mp (List.mem_of_getElem? hc)
      rw [hf]
      constructor <;> simp
  woken := h.woken
  holder c hc := by
    obtain ⟨f, hf, hs⟩ := h.holder c hc
    have hlt : c < s.finishes.length := (List.getElem?_eq_some_iff.mp hf).1
    exact ⟨f, (List.getElem?_append_left hlt).trans hf, hs⟩
  free := h.free
  nodup := h.nodup
  queue c hc := by
    obtain ⟨hne, f, hf, hs⟩ := h.queue c hc
    have hlt : c < s.finishes.length := (List.getElem?_eq_some_iff.mp hf).1
    exact ⟨hne, f, (List.getElem?_append_left hlt).trans hf, hs⟩
  blocking := h.blocking

theorem inv_start : Inv machine.start where
  finish c f hc := by simp [machine] at hc
  woken hb := by simp [machine] at hb
  holder c hc := by simp [machine] at hc
  free _ := rfl
  nodup := List.nodup_nil
  queue c hc := by simp [machine] at hc
  blocking := rfl

theorem Inv.step {a : Action} (h : Inv s) (hs : s.step a = some t) : Inv t := by
  cases a with
  | spawn =>
    obtain rfl := Option.some.inj hs
    exact h.spawn
  | stop =>
    obtain rfl := Option.some.inj hs
    exact h.stop
  | wakeChild i =>
    obtain rfl := Option.some.inj hs
    exact h.modifyChild i (fun _ => rfl) (fun _ => rfl)
  | abort i =>
    obtain rfl := Option.some.inj hs
    exact h.modifyChild i (fun _ => rfl) (fun _ => rfl)
  | pollChild i => exact h.pollChild hs
  | endPoll i ready => exact h.endPoll hs
  | notify i => exact h.notify hs
  | finish =>
    obtain rfl := Option.some.inj hs
    exact h.newFinish
  | poll c =>
    obtain ⟨f, hc, ha, hp⟩ := poll_cases hs
    exact h.pollFinish hc ha hp
  | wakeFinish c =>
    obtain rfl := Option.some.inj hs
    exact h.wakeFinish c
  | cancel c => exact h.cancel hs
  | startBlocking =>
    obtain rfl := Option.some.inj hs
    exact h.startBlocking
  | endBlocking k => exact h.endBlocking hs

theorem inv_of_reachable (h : machine.Reachable s) : Inv s :=
  h.invariant inv_start fun _ _ _ hi hs => hi.step hs

end FlowSplice.HomeTasks
