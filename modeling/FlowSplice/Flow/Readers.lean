import FlowSplice.Flow.Credit
import FlowSplice.Flow.Travel

/-! What a step of either end of a TCP flow can do with its reader and the permits of what was read. -/
namespace FlowSplice.Flow

/-- The offset up to which a frame acknowledges what was sent, if it passes the guard of its arm. -/
def SendQueue.acknowledged (q : SendQueue) (flowId : Uuid) : DataFrame → Option ℕ
  | .ack id nextOffset | .duplicate id nextOffset _ =>
    if id = flowId ∧ q.sendAcked ≤ nextOffset ∧ nextOffset ≤ q.sendOffset then some nextOffset
    else none
  | _ => none

theorem SendQueue.acknowledged_bounds {q : SendQueue} {flowId : Uuid} {f : DataFrame} {n : ℕ}
    (h : q.acknowledged flowId f = some n) : q.sendAcked ≤ n ∧ n ≤ q.sendOffset := by
  unfold acknowledged at h
  split at h
  · split_ifs at h with hguard
    rw [← Option.some.inj h]
    exact hguard.2
  · split_ifs at h with hguard
    rw [← Option.some.inj h]
    exact hguard.2
  · cases h

def ReaderEvent.flowEvent : ReaderEvent → FlowEvent
  | .data bytes _ => .localData bytes
  | .eof => .localEof
  | .error reason => .localError reason

namespace SendSide

variable (s : SendSide)

/-- What a frame of a Carrier does to the side that sends. -/
def onFrame (flowId : Uuid) (frame : DataFrame) : SendSide :=
  match s.queue.acknowledged flowId frame with
  | some nextOffset => (s.acknowledge nextOffset).1
  | none => s

/-- What the offset of an OPEN_OK does to it. -/
def onOpened (homeReceiveOffset : ℕ) : SendSide :=
  if homeReceiveOffset > s.sendOffset then s
  else if homeReceiveOffset < s.sendAcked then s
  else (s.acknowledge homeReceiveOffset).1

/-- The event that the loop receives next is off the channel. -/
def received (rest : List ReaderEvent) (event : ReaderEvent) : SendSide :=
  ({ s with events := rest } : SendSide).buffer event

/-- What one step of an end can do to the side that sends, and whether the end bailed with an ACK
that split a segment. -/
inductive Step : SendSide → Bool → Prop where
  | reader (a : ReaderAction) (s' : SendSide) (hs : s.readerStep a = some s') : Step s' false
  | receive (event : ReaderEvent) (rest : List ReaderEvent) (hevents : s.events = event :: rest) :
      Step (s.received rest event) false
  | acknowledge (n : ℕ) (hacked : s.sendAcked ≤ n) (hsent : n ≤ s.sendOffset) :
      Step (s.acknowledge n).1 (!(s.acknowledge n).2)
  | keep : Step s false

/-- The buffer of an end, where `split` tells that an ACK split a segment and ended the flow. -/
structure Buffered (split : Bool) : Prop where
  accounted : s.Accounted
  rest : ∃ first, s.sendAcked ≤ first ∧ Contiguous first s.unacked s.sendOffset
  whole : split = false → Contiguous s.sendAcked s.unacked s.sendOffset

/-- The offset after what the reader has got permits for. -/
def readOffset : ℕ := s.sendOffset + s.pendingCredit

/-- A reader that waits for permits goes on waiting without losing any, and nothing is read
meanwhile, or it has got them. -/
def Waits (s s' : SendSide) : Prop :=
  ∀ bytes, s.reader = .waiting bytes →
    s'.reader = .waiting bytes ∧ s.available ≤ s'.available ∧ s'.readOffset = s.readOffset ∨
      s'.reader = .sending (.data bytes bytes.length)

/-- A reader that waits can go on as soon as its bytes fit beside those that hold permits, and so
when all that was read before them is acknowledged. -/
def Resumes (s : SendSide) (enabled : Bool) : Prop :=
  ∀ bytes, s.reader = .waiting bytes →
    (enabled = true ↔ s.heldCredit + s.pendingCredit + bytes.length ≤ s.maxUnackedBytes) ∧
      (s.sendAcked = s.readOffset → enabled = true)

variable {s} {s' : SendSide} {a : ReaderAction} {event : ReaderEvent} {rest : List ReaderEvent}
  {split : Bool} {n : ℕ} {flowId : Uuid} {frame : DataFrame} {bytes : Bytes}

theorem buffered_start (maxUnackedBytes : ℕ) : (start maxUnackedBytes).Buffered false where
  accounted := accounted_start maxUnackedBytes
  rest := ⟨0, le_rfl, rfl⟩
  whole _ := rfl

/-- The reader leaves the segments to the loop. -/
theorem readerStep_keeps (hs : s.readerStep a = some s') :
    s'.queue = s.queue ∧ s'.unacked = s.unacked ∧ s'.maxUnackedBytes = s.maxUnackedBytes := by
  unfold readerStep at hs
  cases a with
  | read bytes =>
    dsimp only at hs
    split_ifs at hs <;> exact Option.some.inj hs ▸ ⟨rfl, rfl, rfl⟩
  | readFails reason =>
    dsimp only at hs
    split_ifs at hs
    exact Option.some.inj hs ▸ ⟨rfl, rfl, rfl⟩
  | acquire =>
    dsimp only at hs
    split at hs
    · split_ifs at hs
      exact Option.some.inj hs ▸ ⟨rfl, rfl, rfl⟩
    · cases hs
  | send =>
    dsimp only at hs
    split at hs
    · exact Option.some.inj hs ▸ ⟨rfl, rfl, rfl⟩
    · cases hs

theorem buffer_keeps : (s.buffer event).maxUnackedBytes = s.maxUnackedBytes ∧
    (s.buffer event).reader = s.reader ∧ s.available ≤ (s.buffer event).available := by
  unfold buffer
  cases event with
  | data bytes credit =>
    dsimp only
    split_ifs
    · exact ⟨rfl, rfl, Nat.le_add_right _ _⟩
    · exact ⟨rfl, rfl, le_rfl⟩
  | eof => exact ⟨rfl, rfl, le_rfl⟩
  | error reason => exact ⟨rfl, rfl, le_rfl⟩

theorem popAcked_available (l : List HeldSegment) (bytes available : ℕ) :
    available ≤ (popAcked n l bytes available).2.2 := by
  induction l generalizing bytes available with
  | nil => exact le_rfl
  | cons held rest ih =>
    unfold popAcked
    by_cases hend : held.segment.end > n
    · rw [if_pos hend]
    · rw [if_neg hend]
      have hle := ih (bytes - held.segment.bytes.length) (available + held.credit)
      omega

theorem acknowledge_keeps : (s.acknowledge n).1.maxUnackedBytes = s.maxUnackedBytes ∧
    (s.acknowledge n).1.reader = s.reader ∧ s.available ≤ (s.acknowledge n).1.available := by
  have hle := popAcked_available (n := n) s.unacked s.unackedBytes s.available
  unfold acknowledge
  dsimp only
  split_ifs
  · exact ⟨rfl, rfl, hle⟩
  · exact ⟨rfl, rfl, hle⟩

theorem Step.max_eq (h : s.Step s' split) : s'.maxUnackedBytes = s.maxUnackedBytes := by
  cases h with
  | reader a next hs => exact (readerStep_keeps hs).2.2
  | receive event rest hevents => exact buffer_keeps.1
  | acknowledge n hacked hsent => exact acknowledge_keeps.1
  | keep => rfl

theorem Contiguous.last_eq {first last : ℕ} {l : List HeldSegment} (h : Contiguous first l last) :
    last = first + (l.map (·.segment.bytes.length)).sum := by
  induction l generalizing first with
  | nil => exact h.symm
  | cons held rest ih =>
    have hlast := ih h.2
    have hstart := h.1
    unfold Segment.end at hlast
    rw [List.map_cons, List.sum_cons]
    omega

theorem contiguous_buffer {first : ℕ} (h : Contiguous first s.unacked s.sendOffset) :
    Contiguous first (s.buffer event).unacked (s.buffer event).sendOffset := by
  unfold buffer
  cases event with
  | data bytes credit =>
    dsimp only
    split_ifs
    · exact h
    · exact h.append
  | eof => exact h
  | error reason => exact h

theorem buffer_acked : (s.buffer event).sendAcked = s.sendAcked := by
  unfold buffer
  cases event with
  | data bytes credit =>
    dsimp only
    split_ifs <;> rfl
  | eof => rfl
  | error reason => rfl

theorem Buffered.of_whole (haccounted : s.Accounted)
    (hwhole : Contiguous s.sendAcked s.unacked s.sendOffset) : s.Buffered split where
  accounted := haccounted
  rest := ⟨s.sendAcked, le_rfl, hwhole⟩
  whole _ := hwhole

theorem Buffered.step (h : s.Buffered false) (hs : s.Step s' split) : s'.Buffered split := by
  have hwhole := h.whole rfl
  cases hs with
  | reader a next hs =>
    apply Buffered.of_whole (h.accounted.readerStep hs)
    obtain ⟨hqueue, hunacked, -⟩ := readerStep_keeps hs
    have hacked : s'.sendAcked = s.sendAcked := congrArg SendQueue.sendAcked hqueue
    have hoffset : s'.sendOffset = s.sendOffset := congrArg SendQueue.sendOffset hqueue
    rw [hunacked, hacked, hoffset]
    exact hwhole
  | receive event rest hevents =>
    apply Buffered.of_whole (h.accounted.buffer hevents)
    rw [buffer_acked]
    exact contiguous_buffer hwhole
  | acknowledge n hacked hsent =>
    obtain ⟨hoffset, hdone, hsplit⟩ := contiguous_acknowledge hwhole hacked hsent
    refine ⟨h.accounted.acknowledge, ?_, ?_⟩
    · rw [hoffset]
      cases hok : (s.acknowledge n).2 with
      | true =>
        obtain ⟨hrest, hnext⟩ := hdone hok
        exact ⟨n, hnext.le, hrest⟩
      | false =>
        obtain ⟨hsame, next, hle, hrest⟩ := hsplit hok
        exact ⟨next, hsame.le.trans hle, hrest⟩
    · intro hok
      obtain ⟨hrest, hnext⟩ := hdone (by simpa using hok)
      rw [hoffset, hnext]
      exact hrest
  | keep => exact h

theorem acknowledge_reads : (s.acknowledge n).1.readOffset = s.readOffset := by
  unfold acknowledge
  dsimp only
  split_ifs
  · rfl
  · rfl

theorem Accounted.received_reads (h : s.Accounted) (hevents : s.events = event :: rest) :
    (s.received rest event).readOffset = s.readOffset := by
  have hfits := h.fits hevents
  have hpending : s.pendingCredit = s.reader.credit + (event.credit + (rest.map (·.credit)).sum) := by
    unfold pendingCredit
    rw [hevents, List.map_cons, List.sum_cons]
  unfold readOffset
  rw [hpending]
  cases event with
  | data bytes credit =>
    have hcredit : credit = bytes.length := by
      apply h.events bytes credit
      rw [hevents]
      exact List.mem_cons_self
    have hle : ¬ s.unackedBytes + bytes.length > s.maxUnackedBytes := by
      rw [← hcredit]
      exact Nat.not_lt.mpr hfits
    unfold received SendSide.buffer
    dsimp only
    rw [if_neg hle]
    show s.sendOffset + bytes.length + (s.reader.credit + (rest.map (·.credit)).sum) =
      s.sendOffset + (s.reader.credit + (credit + (rest.map (·.credit)).sum))
    omega
  | eof =>
    show s.sendOffset + (s.reader.credit + (rest.map (·.credit)).sum) =
      s.sendOffset + (s.reader.credit + (0 + (rest.map (·.credit)).sum))
    omega
  | error reason =>
    show s.sendOffset + (s.reader.credit + (rest.map (·.credit)).sum) =
      s.sendOffset + (s.reader.credit + (0 + (rest.map (·.credit)).sum))
    omega

/-- Nobody but the reader takes permits, and it takes none while it waits. -/
theorem Accounted.waits (haccounted : s.Accounted) (h : s.Step s' split) : s.Waits s' := by
  intro bytes hwaiting
  cases h with
  | reader a next hs =>
    right
    unfold SendSide.readerStep at hs
    rw [hwaiting] at hs
    cases a with
    | read bytes' => simp at hs
    | readFails reason => simp at hs
    | acquire =>
      dsimp only at hs
      split_ifs at hs
      rw [← Option.some.inj hs]
    | send => cases hs
  | receive event rest hevents =>
    left
    have hkeeps := @buffer_keeps { s with events := rest } event
    obtain ⟨-, hreader, hle⟩ := hkeeps
    exact ⟨hreader.trans hwaiting, hle, haccounted.received_reads hevents⟩
  | acknowledge n hacked hsent =>
    left
    exact ⟨acknowledge_keeps.2.1.trans hwaiting, acknowledge_keeps.2.2, acknowledge_reads⟩
  | keep =>
    left
    exact ⟨hwaiting, le_rfl, rfl⟩

/-- The permits that are left are those of neither a segment nor a read. -/
theorem Accounted.resumes (h : s.Accounted) (hwaiting : s.reader = .waiting bytes) :
    (s.readerStep .acquire).isSome = true ↔
      s.heldCredit + s.pendingCredit + bytes.length ≤ s.maxUnackedBytes := by
  have hpermits := h.permits
  unfold SendSide.readerStep
  rw [hwaiting]
  dsimp only
  by_cases henough : bytes.length ≤ s.available
  · rw [if_pos henough]
    exact ⟨fun _ => by omega, fun _ => rfl⟩
  · rw [if_neg henough]
    refine ⟨fun h => (by cases h), fun hfits => ?_⟩
    omega

theorem Buffered.resumes (h : s.Buffered false) (hlimit : maxDataPayload ≤ s.maxUnackedBytes) :
    s.Resumes (s.readerStep .acquire).isSome := by
  intro bytes hwaiting
  have hiff := h.accounted.resumes hwaiting
  refine ⟨hiff, fun hacked => ?_⟩
  rw [hiff]
  have hlength := h.accounted.waiting bytes hwaiting
  have hlast := (h.whole rfl).last_eq
  rw [h.accounted.heldCredit_eq, h.accounted.bytes]
  unfold readOffset at hacked
  omega

/-- The side that keeps the permits goes with the queue of an end. -/
structure Follows (s s' : SendSide) (send : SendQueue) (split : Bool) : Prop where
  step : s.Step s' split
  queue : split = false → s'.queue = send

/-- The side that keeps the permits acknowledges what the queue does. -/
theorem follows_acknowledge (hacked : s.sendAcked ≤ n) (hsent : n ≤ s.sendOffset) :
    match s.queue.acknowledge n with
    | none => ∀ send, s.Follows (s.acknowledge n).1 send true
    | some send => s.Follows (s.acknowledge n).1 send false := by
  have hstep := Step.acknowledge n hacked hsent
  rw [acknowledge_queue]
  cases hdone : s.acknowledge n with
  | mk next ok =>
    rw [hdone] at hstep
    cases ok with
    | true => exact ⟨hstep, fun _ => rfl⟩
    | false => exact fun send => ⟨hstep, fun h => by cases h⟩

/-- The side that keeps the permits agrees with the queue of an end at all times. -/
structure Kept (maxUnackedBytes : ℕ) (s : SendSide) (send : SendQueue) (split : Bool) : Prop where
  buffered : s.Buffered split
  queue : split = false → s.queue = send
  max_eq : s.maxUnackedBytes = maxUnackedBytes

/-- What is promised of the buffer: what is not acknowledged is there to be sent again, and there is
no more of it than the limit allows. -/
structure Retained (maxUnackedBytes : ℕ) (s : SendSide) (send : SendQueue) (split : Bool) : Prop where
  whole : split = false → Contiguous s.sendAcked s.unacked s.sendOffset
  rest : ∃ first, s.sendAcked ≤ first ∧ Contiguous first s.unacked s.sendOffset
  bytes : s.unackedBytes = (s.unacked.map (·.segment.bytes.length)).sum
  permits : s.heldCredit + s.pendingCredit ≤ maxUnackedBytes
  queue : split = false → s.queue = send

theorem Kept.retained {maxUnackedBytes : ℕ} {send : SendQueue}
    (h : Kept maxUnackedBytes s send split) : Retained maxUnackedBytes s send split where
  whole := h.buffered.whole
  rest := h.buffered.rest
  bytes := h.buffered.accounted.bytes
  permits := by
    have hpermits := h.buffered.accounted.permits
    have hmax := h.max_eq
    omega
  queue := h.queue

theorem kept_start (maxUnackedBytes : ℕ) : Kept maxUnackedBytes (start maxUnackedBytes) {} false where
  buffered := buffered_start maxUnackedBytes
  queue _ := rfl
  max_eq := rfl

theorem Kept.follows {maxUnackedBytes : ℕ} {send send' : SendQueue}
    (h : Kept maxUnackedBytes s send false) (hs : s.Follows s' send' split) :
    Kept maxUnackedBytes s' send' split where
  buffered := h.buffered.step hs.step
  queue := hs.queue
  max_eq := hs.step.max_eq.trans h.max_eq

end SendSide

/-- An end of a flow with the permits of what its reader has read. -/
structure Reading (End : Type) where
  flow : End
  side : SendSide
deriving DecidableEq, Repr

end FlowSplice.Flow
