import FlowSplice.Flow.System

/-! What either end can do with what it receives, case by case. -/
namespace FlowSplice.Flow

/-- The queue of what `reads` brought holds the offsets it should. -/
def SendQueue.Counts (q : SendQueue) (reads : List Bytes) : Prop :=
  q.sendOffset = reads.flatten.length

theorem SendQueue.Counts.push {q : SendQueue} {reads : List Bytes} (h : q.Counts reads)
    (bytes : Bytes) : (q.push bytes).Counts (reads ++ [bytes]) := by
  rw [Counts, List.flatten_append, List.length_append, List.flatten_singleton, ← h]
  rfl

theorem SendQueue.acknowledge_eq_some {q q' : SendQueue} {n : ℕ}
    (h : q.acknowledge n = some q') :
    q'.sendOffset = q.sendOffset ∧ q'.sendAcked = n ∧
      q'.unacked = q.unacked.dropWhile (fun segment => segment.end ≤ n) := by
  simp only [acknowledge] at h
  split_ifs at h
  obtain rfl := Option.some.inj h
  exact ⟨rfl, rfl, popAcked_fst _ _ _⟩

@[simp] theorem sendTo_nil (carriers : List Uuid) (c : Uuid) : sendTo carriers c [] = [] := by
  simp [sendTo]

theorem sendTo_on (carriers : List Uuid) (c d : Uuid) (frames : List DataFrame) :
    (sendTo carriers c frames).on d = if d = c ∧ c ∈ carriers then frames else [] := by
  unfold sendTo Sends.on
  by_cases hd : d = c <;> by_cases hc : c ∈ carriers <;>
    simp [hd, hc, List.filter_map, Function.comp_def, eq_comm]

namespace Travel

/-- What a step of the event branch can do. -/
inductive EventCase (t : Travel) (ev : FlowEvent) (io : Io) : Travel × Sends → Prop where
  | decided (race : Race) (winner : Uuid) (hp : t.phase = .racing race)
      (hw : t.raceWinner race ev = some winner) : EventCase t ev io (t.endRace race (some winner))
  | failed (error : TravelError)
      (hr : (handleEvent ev io t.transfer t.carriers t.active).result = .error error) :
      EventCase t ev io (fail { t with
        transfer := (handleEvent ev io t.transfer t.carriers t.active).transfer
        carriers := (handleEvent ev io t.transfer t.carriers t.active).carriers } error)
  | closed (race : Race) (c : Uuid) (hp : t.phase = .racing race) (he : ev = .carrierClosed c) :
      EventCase t ev io (continueRace { t with
        carriers := t.carriers.filter (· ≠ c)
        active := if t.active = some c then none else t.active } (Race.afterEvent race ev))
  | handled (phase : TravelPhase) (closed : Bool)
      (hp : (∃ race, t.phase = .racing race ∧ phase = .racing race ∧
          (∀ c, ev ≠ .carrierClosed c) ∧ t.raceWinner race ev = none) ∨
        t.phase = .selecting ∧ phase = .loopTop)
      (hr : (handleEvent ev io t.transfer t.carriers t.active).result = .ok closed) :
      EventCase t ev io
        ({ t with
          transfer := (handleEvent ev io t.transfer t.carriers t.active).transfer
          carriers := (handleEvent ev io t.transfer t.carriers t.active).carriers
          active := if closed then none else t.active
          phase := phase },
        (handleEvent ev io t.transfer t.carriers t.active).sent)

theorem event_cases {t : Travel} {ev : FlowEvent} {io : Io} {r : Travel × Sends}
    (h : t.event ev io = some r) : EventCase t ev io r := by
  unfold event at h
  split at h
  next race hp =>
    split at h
    next winner hw =>
      obtain rfl := Option.some.inj h
      exact .decided race winner hp hw
    next hw =>
      dsimp only at h
      split at h
      next error hr =>
        obtain rfl := Option.some.inj h
        exact .failed error hr
      next closed hr =>
        split at h
        next c =>
          obtain rfl := Option.some.inj h
          simp only [handleEvent, Except.ok.injEq] at hr
          subst hr
          have hcase : EventCase t _ io _ := .closed race c hp rfl
          simpa [handleEvent] using hcase
        next hc =>
          obtain rfl := Option.some.inj h
          simpa [hp] using EventCase.handled (t := t) (.racing race) closed
            (.inl ⟨race, hp, rfl, fun c hev => hc c hev, hw⟩) hr
  next hp =>
    dsimp only at h
    split at h
    next error hr =>
      obtain rfl := Option.some.inj h
      exact .failed error hr
    next closed hr =>
      obtain rfl := Option.some.inj h
      exact .handled .loopTop closed (.inr ⟨hp, rfl⟩) hr
  next => cases h

end Travel

/-- The frame acknowledges the flow up to `n`. -/
def Acks (f : DataFrame) (flowId : Uuid) (n : ℕ) : Prop :=
  f = .ack flowId n ∨ ∃ winner, f = .duplicate flowId n winner

/-- What Travel can do with a frame of a Carrier. -/
inductive FrameCase (io : Io) (transfer : TransferState) (carriers : List Uuid)
    (active : Option Uuid) (c : Uuid) (f : DataFrame) : Handled → Prop where
  | acked (n : ℕ) (send : SendQueue) (hf : Acks f transfer.flowId n)
      (hn : transfer.send.sendAcked ≤ n) (ha : transfer.send.acknowledge n = some send) :
      FrameCase io transfer carriers active c f { transfer := { transfer with send }, carriers }
  | wrote (bytes : Bytes) (hf : f = .data transfer.flowId transfer.receiveOffset bytes) :
      FrameCase io transfer carriers active c f
        { transfer := { transfer with
            localWriter := transfer.localWriter.write bytes
            receiveOffset := transfer.receiveOffset + bytes.length }
          carriers
          sent := sendTo carriers c
            [.ack transfer.flowId (transfer.receiveOffset + bytes.length)] }
  | partly (bytes : Bytes) (delivered : ℕ) (reason : String)
      (hf : f = .data transfer.flowId transfer.receiveOffset bytes) :
      FrameCase io transfer carriers active c f
        { transfer := { transfer with
            localWriter := transfer.localWriter.write (bytes.take delivered)
            receiveOffset := transfer.receiveOffset + (bytes.take delivered).length }
          carriers
          result := .error (.localWriteFailed reason) }
  | known (offset : ℕ) (bytes : Bytes) (hf : f = .data transfer.flowId offset bytes)
      (hle : offset + bytes.length ≤ transfer.receiveOffset) :
      FrameCase io transfer carriers active c f
        { transfer
          carriers
          sent := sendTo carriers c
            [.duplicate transfer.flowId transfer.receiveOffset (active.getD c)] }
  | finAgain (hf : f = .fin transfer.flowId transfer.receiveOffset)
      (he : transfer.remoteEof = true) :
      FrameCase io transfer carriers active c f
        { transfer
          carriers
          sent := sendTo carriers c [.finAck transfer.flowId transfer.receiveOffset] }
  | finished (hf : f = .fin transfer.flowId transfer.receiveOffset) :
      FrameCase io transfer carriers active c f
        { transfer := { transfer with
            localWriter := transfer.localWriter.shutdown, remoteEof := true }
          carriers
          sent := sendTo carriers c [.finAck transfer.flowId transfer.receiveOffset] }
  | finAcked (hf : f = .finAck transfer.flowId transfer.send.sendOffset)
      (he : transfer.localEof = true) :
      FrameCase io transfer carriers active c f
        { transfer := { transfer with localFinAcked := true }, carriers }
  | raceAnswer (hf : (∃ flowId raceId winner, f = .raceAck flowId raceId winner) ∨
        ∃ flowId raceId winner, f = .raceDuplicate flowId raceId winner) :
      FrameCase io transfer carriers active c f { transfer, carriers }
  | rejected (error : TravelError) :
      FrameCase io transfer carriers active c f { transfer, carriers, result := .error error }

theorem handleFrame_cases (io : Io) (transfer : TransferState) (carriers : List Uuid)
    (active : Option Uuid) (c : Uuid) (f : DataFrame) :
    FrameCase io transfer carriers active c f (handleFrame io transfer carriers active c f) := by
  have hacks : ∀ n, Acks f transfer.flowId n → transfer.send.sendAcked ≤ n →
      FrameCase io transfer carriers active c f (handleAck transfer carriers n) := by
    intro n hf hn
    unfold handleAck
    split
    next => exact .rejected _
    next send ha => exact .acked n send hf hn ha
  unfold handleFrame
  split
  next flowId offset bytes =>
    split_ifs with h
    · obtain ⟨rfl, -⟩ := h
      unfold handleData
      split_ifs with ho hle
      · subst ho
        split
        next => exact .wrote bytes rfl
        next delivered reason => exact .partly bytes delivered reason rfl
      · exact .known offset bytes rfl hle
      · exact .rejected _
    · exact .rejected _
  next flowId n =>
    split_ifs with h
    · exact hacks n (.inl (by rw [h.1])) h.2.1
    · exact .rejected _
  next flowId n winner =>
    split_ifs with h
    · exact hacks n (.inr ⟨winner, by rw [h.1]⟩) h.2.1
    · exact .rejected _
  next flowId finalOffset =>
    split_ifs with h
    · obtain ⟨rfl, rfl⟩ := h
      unfold handleFin
      dsimp only
      split_ifs with he
      · exact .finAgain rfl he
      · split
        next => exact .finished rfl
        next => exact .rejected _
    · exact .rejected _
  next flowId finalOffset =>
    split_ifs with h
    · obtain ⟨rfl, he, rfl⟩ := h
      exact .finAcked rfl he
    · exact .rejected _
  next flowId reason =>
    split_ifs with h
    · exact .rejected _
    · exact .rejected _
  next flowId raceId winner => exact .raceAnswer (.inl ⟨flowId, raceId, winner, rfl⟩)
  next flowId raceId winner => exact .raceAnswer (.inr ⟨flowId, raceId, winner, rfl⟩)
  next => exact .rejected _

namespace Home

/-- What Home can do with a frame of a Carrier. -/
inductive FrameCase (h : Home) (io : Io) (c : Uuid) (f : DataFrame) :
    Home × List DataFrame → Prop where
  | raceKnown (raceId n winner : Uuid) (hf : f = .race h.flowId raceId n)
      (hw : h.winnerOf raceId = some winner) :
      FrameCase h io c f (h, [.raceDuplicate h.flowId raceId winner])
  | raceDecided (raceId n : Uuid) (hf : f = .race h.flowId raceId n)
      (hw : h.winnerOf raceId = none) :
      FrameCase h io c f ({ h.remember raceId c with activeCarrier := some c },
        .raceAck h.flowId raceId c :: h.send.retransmit h.flowId h.targetEof)
  | wrote (bytes : Bytes) (hf : f = .data h.flowId h.receiveOffset bytes)
      (hc : h.activeCarrier = some c) :
      FrameCase h io c f
        ({ h with
          targetWriter := h.targetWriter.write bytes
          receiveOffset := h.receiveOffset + bytes.length },
        [.ack h.flowId (h.receiveOffset + bytes.length)])
  | partly (bytes : Bytes) (delivered : ℕ) (reason : String)
      (hf : f = .data h.flowId h.receiveOffset bytes) (hc : h.activeCarrier = some c) :
      FrameCase h io c f
        (fail { h with targetWriter := h.targetWriter.write (bytes.take delivered) }
          (.targetWriteFailed reason))
  | known (offset : ℕ) (bytes : Bytes) (hf : f = .data h.flowId offset bytes)
      (hle : offset + bytes.length ≤ h.receiveOffset) :
      FrameCase h io c f
        (h, [.duplicate h.flowId h.receiveOffset (h.activeCarrier.getD c)])
  | acked (n : ℕ) (send : SendQueue) (hf : Acks f h.flowId n) (hn : h.send.sendAcked ≤ n)
      (ha : h.send.acknowledge n = some send) : FrameCase h io c f ({ h with send := send }, [])
  | finAgain (hf : f = .fin h.flowId h.receiveOffset) (he : h.travelEof = true) :
      FrameCase h io c f (h, [.finAck h.flowId h.receiveOffset])
  | finished (hf : f = .fin h.flowId h.receiveOffset) :
      FrameCase h io c f
        ({ h with targetWriter := h.targetWriter.shutdown, travelEof := true },
        [.finAck h.flowId h.receiveOffset])
  | finAcked (hf : f = .finAck h.flowId h.send.sendOffset) (he : h.targetEof = true) :
      FrameCase h io c f ({ h with targetFinAcked := true }, [])
  | rejected (reason : String) : FrameCase h io c f (h, [.close h.flowId reason])
  | failed (error : HomeError) : FrameCase h io c f (h.fail error)

theorem handleFrame_cases (h : Home) (io : Io) (c : Uuid) (f : DataFrame) :
    FrameCase h io c f (h.handleFrame io c f) := by
  have hacks : ∀ n, Acks f h.flowId n → h.send.sendAcked ≤ n →
      FrameCase h io c f (h.handleAck n) := by
    intro n hf hn
    unfold handleAck
    split
    next => exact .failed _
    next send ha => exact .acked n send hf hn ha
  unfold handleFrame
  split
  next flowId raceId n =>
    split_ifs with hg
    · obtain ⟨rfl, -⟩ := hg
      unfold handleRace
      split
      next winner hw => exact .raceKnown raceId n winner rfl hw
      next hw => exact .raceDecided raceId n rfl hw
    · exact .rejected _
  next flowId offset bytes =>
    split_ifs with hg
    · obtain ⟨rfl, -⟩ := hg
      unfold handleData
      split_ifs with ho hle
      · obtain ⟨rfl, hc⟩ := ho
        split
        next => exact .wrote bytes rfl hc
        next delivered reason => exact .partly bytes delivered reason rfl hc
      · exact .known offset bytes rfl hle
      · exact .rejected _
    · exact .rejected _
  next flowId n =>
    split_ifs with hg
    · exact hacks n (.inl (by rw [hg.1])) hg.2.1
    · exact .rejected _
  next flowId n winner =>
    split_ifs with hg
    · exact hacks n (.inr ⟨winner, by rw [hg.1]⟩) hg.2.1
    · exact .rejected _
  next flowId finalOffset =>
    split_ifs with hg
    · obtain ⟨rfl, rfl⟩ := hg
      unfold handleFin
      split_ifs with he
      · exact .finAgain rfl he
      · split
        next => exact .finished rfl
        next => exact .failed _
    · exact .rejected _
  next flowId finalOffset =>
    split_ifs with hg
    · obtain ⟨rfl, he, rfl⟩ := hg
      exact .finAcked rfl he
    · exact .rejected _
  next flowId reason =>
    split_ifs with hg
    · exact .failed _
    · exact .rejected _
  next => exact .rejected _

theorem frame_cases {h : Home} {io : Io} {c : Uuid} {f : DataFrame} {r : Home × List DataFrame}
    (hs : h.frame io c f = some r) :
    h.phase = .running ∧ ¬ h.complete ∧ FrameCase h io c f r := by
  simp only [frame] at hs
  split_ifs at hs with hr
  obtain rfl := Option.some.inj hs
  exact ⟨hr.1, hr.2, handleFrame_cases h io c f⟩

end Home

end FlowSplice.Flow
