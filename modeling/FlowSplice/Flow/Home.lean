import FlowSplice.Flow.Queue

/-! The Home end of a TCP flow: `run_flow` of `flowsplice-home-core/src/tcp_flow.rs`. -/
namespace FlowSplice.Flow

/-- How `run_flow` can fail. The last constructor stands for what ends the flow from outside:
target errors, timeouts, the end of the authorization, a stopped process. -/
inductive HomeError where
  | openOkWriteFailed
  | drainTimedOut
  | ackSplit
  | unackedLimitReached
  | targetWriteFailed (reason : String)
  | travelClosed (reason : String)
  | ended (reason : String)
deriving DecidableEq, Repr

inductive HomePhase where
  | running
  | returned
  | failed (error : HomeError)
deriving DecidableEq, Repr

/-- The locals of `run_flow`. `carriers` are the keys of the sender map; `targetReads` lists
what the reader task has taken off the target connection. -/
structure Home where
  flowId : Uuid
  maxUnackedBytes : ℕ
  carriers : List Uuid := []
  activeCarrier : Option Uuid := none
  targetWriter : WriteHalf := {}
  receiveOffset : ℕ := 0
  send : SendQueue := {}
  raceWinners : List (Uuid × Uuid) := []
  raceOrder : List Uuid := []
  targetEof : Bool := false
  targetFinAcked : Bool := false
  travelEof : Bool := false
  targetReads : List Bytes := []
  phase : HomePhase := .running
deriving DecidableEq, Repr

namespace Home

/-- The flow has ended, and its Carrier tasks with it. -/
def fail (h : Home) (error : HomeError) : Home × List DataFrame :=
  ({ h with carriers := [], activeCarrier := none, phase := .failed error }, [])

def complete (h : Home) : Bool :=
  h.travelEof && h.targetEof && h.targetFinAcked && h.send.unacked.isEmpty

/-- The completion branch at the top of the loop. -/
def finish (h : Home) (drained : Bool) : Option Home :=
  if h.phase = .running ∧ h.complete then
    if drained then some { h with carriers := [], activeCarrier := none, phase := .returned }
    else some (h.fail .drainTimedOut).1
  else none

/-- `incoming.recv()` yields a Carrier: OPEN_OK is written to it before it can carry frames.
`written` tells whether that write succeeded. -/
def attach (h : Home) (carrierId : Uuid) (written : Bool) : Option (Home × List DataFrame) :=
  if h.phase = .running ∧ ¬ h.complete then
    if carrierId ∈ h.carriers then some (h, [])
    else if written then
      some ({ h with carriers := carrierId :: h.carriers },
        [.openOk h.flowId carrierId h.receiveOffset h.send.sendAcked dataProtocolBinaryV1])
    else some (h.fail .openOkWriteFailed)
  else none

/-- `race_winners` and `race_order` after a decision: the oldest is dropped beyond 32. -/
def remember (h : Home) (raceId winner : Uuid) : Home :=
  let raceOrder := h.raceOrder ++ [raceId]
  let raceWinners := (raceId, winner) :: h.raceWinners.filter (·.1 ≠ raceId)
  let dropped := raceOrder.take (raceOrder.length - 32)
  { h with
    raceOrder := raceOrder.drop (raceOrder.length - 32)
    raceWinners := raceWinners.filter (·.1 ∉ dropped) }

/-- The winner that Home still remembers for a race. -/
def winnerOf (h : Home) (raceId : Uuid) : Option Uuid := h.raceWinners.lookup raceId

/-- The `Race` arm, past its guard. -/
def handleRace (h : Home) (carrierId raceId : Uuid) : Home × List DataFrame :=
  match h.winnerOf raceId with
  | some winner => (h, [.raceDuplicate h.flowId raceId winner])
  | none =>
    ({ h.remember raceId carrierId with activeCarrier := some carrierId },
      .raceAck h.flowId raceId carrierId :: h.send.retransmit h.flowId h.targetEof)

/-- The `Data` arm, past its guard. -/
def handleData (h : Home) (io : Io) (carrierId : Uuid) (offset : ℕ) (bytes : Bytes) :
    Home × List DataFrame :=
  if offset = h.receiveOffset ∧ h.activeCarrier = some carrierId then
    match io with
    | .done =>
      let receiveOffset := offset + bytes.length
      ({ h with targetWriter := h.targetWriter.write bytes, receiveOffset := receiveOffset },
        [.ack h.flowId receiveOffset])
    | .failed delivered reason =>
      { h with targetWriter := h.targetWriter.write (bytes.take delivered) }.fail
        (.targetWriteFailed reason)
  else if offset + bytes.length ≤ h.receiveOffset then
    (h, [.duplicate h.flowId h.receiveOffset (h.activeCarrier.getD carrierId)])
  else (h, [.close h.flowId "non-contiguous TCP data"])

/-- The `Ack` and `Duplicate` arms, past their guard. -/
def handleAck (h : Home) (nextOffset : ℕ) : Home × List DataFrame :=
  match h.send.acknowledge nextOffset with
  | none => h.fail .ackSplit
  | some send => ({ h with send := send }, [])

/-- The `Fin` arm, past its guard. -/
def handleFin (h : Home) (io : Io) (finalOffset : ℕ) : Home × List DataFrame :=
  if h.travelEof then (h, [.finAck h.flowId finalOffset])
  else match io with
    | .done =>
      ({ h with targetWriter := h.targetWriter.shutdown, travelEof := true },
        [.finAck h.flowId finalOffset])
    | .failed _ reason => h.fail (.targetWriteFailed reason)

/-- The last arm: a frame that no guard lets through. -/
def rejectFrame (h : Home) : Home × List DataFrame :=
  (h, [.close h.flowId "invalid TCP flow frame"])

/-- The arms for a frame of a Carrier. The replies go to the Carrier the frame came on. -/
def handleFrame (h : Home) (io : Io) (carrierId : Uuid) : DataFrame → Home × List DataFrame
  | .race flowId raceId nextOffset =>
    if flowId = h.flowId ∧ nextOffset ≤ h.receiveOffset then h.handleRace carrierId raceId
    else h.rejectFrame
  | .data flowId offset bytes =>
    if flowId = h.flowId ∧ bytes.length ≤ maxDataPayload then
      h.handleData io carrierId offset bytes
    else h.rejectFrame
  | .ack flowId nextOffset | .duplicate flowId nextOffset _ =>
    if flowId = h.flowId ∧ h.send.sendAcked ≤ nextOffset ∧ nextOffset ≤ h.send.sendOffset then
      h.handleAck nextOffset
    else h.rejectFrame
  | .fin flowId finalOffset =>
    if flowId = h.flowId ∧ finalOffset = h.receiveOffset then h.handleFin io finalOffset
    else h.rejectFrame
  | .finAck flowId finalOffset =>
    if flowId = h.flowId ∧ h.targetEof ∧ finalOffset = h.send.sendOffset then
      ({ h with targetFinAcked := true }, [])
    else h.rejectFrame
  | .close flowId reason =>
    if flowId = h.flowId then h.fail (.travelClosed reason) else h.rejectFrame
  | _ => h.rejectFrame

/-- `events.recv()` yields a frame of an attached Carrier. -/
def frame (h : Home) (io : Io) (carrierId : Uuid) (f : DataFrame) :
    Option (Home × List DataFrame) :=
  if h.phase = .running ∧ ¬ h.complete then some (h.handleFrame io carrierId f) else none

/-- `events.recv()` yields the end of a Carrier. -/
def carrierClosed (h : Home) (carrierId : Uuid) : Option Home :=
  if h.phase = .running ∧ ¬ h.complete then
    some { h with
      carriers := h.carriers.filter (· ≠ carrierId)
      activeCarrier := if h.activeCarrier = some carrierId then none else h.activeCarrier }
  else none

/-- `events.recv()` yields bytes of the target. The frames go to the active Carrier. -/
def targetData (h : Home) (bytes : Bytes) : Option (Home × List DataFrame) :=
  if h.phase = .running ∧ ¬ h.complete then
    if h.send.unackedBytes + bytes.length > h.maxUnackedBytes then
      some (h.fail .unackedLimitReached)
    else
      some ({ h with send := h.send.push bytes, targetReads := h.targetReads ++ [bytes] },
        [.data h.flowId h.send.sendOffset bytes])
  else none

/-- `events.recv()` yields the end of the target stream. The frames go to the active Carrier. -/
def targetEnd (h : Home) : Option (Home × List DataFrame) :=
  if h.phase = .running ∧ ¬ h.complete then
    some ({ h with targetEof := true }, [.fin h.flowId h.send.sendOffset])
  else none

/-- The flow is ended from outside. -/
def stop (h : Home) (reason : String) : Option Home :=
  if h.phase = .running then some (h.fail (.ended reason)).1 else none

end Home

end FlowSplice.Flow
