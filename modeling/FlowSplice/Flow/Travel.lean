import FlowSplice.Flow.Queue

/-! The Travel end of a TCP flow: `run_inner`, `perform_race` and `handle_event` of
`flowsplice-travel-core/src/tcp_flow.rs`. -/
namespace FlowSplice.Flow

/-- The bails of `run_io`, `run_inner`, `perform_race`, `handle_event`, `acknowledge` and
`drain_carriers`. -/
inductive TravelError where
  | mappingStopped
  | drainTimedOut
  | recoveryDeadlineExpired
  | homeAcknowledgedUnsent
  | homeAckMovedBackwards
  | ackSplit
  | unackedLimitReached
  | localFailed (reason : String)
  | localWriteFailed (reason : String)
  | nonContiguousData
  | homeClosed (reason : String)
  | invalidFrame
deriving DecidableEq, Repr

def TravelError.text : TravelError → String
  | .mappingStopped => "mapping stopped"
  | .drainTimedOut => "Carrier final acknowledgement drain timed out"
  | .recoveryDeadlineExpired => "carrier recovery deadline expired"
  | .homeAcknowledgedUnsent => "Home acknowledged unsent Travel data"
  | .homeAckMovedBackwards => "Home acknowledgement moved backwards"
  | .ackSplit => "ACK split a TCP data frame"
  | .unackedLimitReached => "travel unacknowledged-data limit reached"
  | .localFailed reason => "local TCP failed: " ++ reason
  | .localWriteFailed reason => reason
  | .nonContiguousData => "Home sent non-contiguous TCP data"
  | .homeClosed reason => "Home closed flow: " ++ reason
  | .invalidFrame => "invalid TCP flow frame"

inductive FlowEvent where
  | localData (bytes : Bytes)
  | localEof
  | localError (reason : String)
  | carrierFrame (carrierId : Uuid) (frame : DataFrame)
  | carrierClosed (carrierId : Uuid)
deriving DecidableEq, Repr

/-- `TransferState`. `localReads` lists what the reader task has taken off the local socket. -/
structure TransferState where
  flowId : Uuid
  localWriter : WriteHalf := {}
  send : SendQueue := {}
  receiveOffset : ℕ := 0
  maxUnackedBytes : ℕ
  localEof : Bool := false
  localFinAcked : Bool := false
  remoteEof : Bool := false
  localReads : List Bytes := []
deriving DecidableEq, Repr

/-- The frames of one step, each with the Carrier it is queued on. -/
abbrev Sends := List (Uuid × DataFrame)

/-- `send_to`: a Carrier without a handle takes nothing. -/
def sendTo (carriers : List Uuid) (carrierId : Uuid) (frames : List DataFrame) : Sends :=
  if carrierId ∈ carriers then frames.map (fun frame => (carrierId, frame)) else []

/-- What `handle_event` leaves: its `&mut` arguments, the frames it sent, and its result, which
is whether the active Carrier closed. -/
structure Handled where
  transfer : TransferState
  carriers : List Uuid
  sent : Sends := []
  result : Except TravelError Bool := .ok false

/-- The `Ack` and `Duplicate` arms of `handle_event`, past their guard. -/
def handleAck (transfer : TransferState) (carriers : List Uuid) (nextOffset : ℕ) : Handled :=
  match transfer.send.acknowledge nextOffset with
  | none => { transfer, carriers, result := .error .ackSplit }
  | some send => { transfer := { transfer with send := send }, carriers }

/-- The `Data` arm of `handle_event`, past its guard. -/
def handleData (io : Io) (transfer : TransferState) (carriers : List Uuid) (active : Option Uuid)
    (carrierId : Uuid) (offset : ℕ) (bytes : Bytes) : Handled :=
  if offset = transfer.receiveOffset then
    match io with
    | .done =>
      let receiveOffset := transfer.receiveOffset + bytes.length
      { transfer := { transfer with
          localWriter := transfer.localWriter.write bytes, receiveOffset := receiveOffset }
        carriers
        sent := sendTo carriers carrierId [.ack transfer.flowId receiveOffset] }
    | .failed delivered reason =>
      let taken := bytes.take delivered
      { transfer := { transfer with
          localWriter := transfer.localWriter.write taken
          receiveOffset := transfer.receiveOffset + taken.length }
        carriers
        result := .error (.localWriteFailed reason) }
  else if offset + bytes.length ≤ transfer.receiveOffset then
    { transfer
      carriers
      sent := sendTo carriers carrierId
        [.duplicate transfer.flowId transfer.receiveOffset (active.getD carrierId)] }
  else { transfer, carriers, result := .error .nonContiguousData }

/-- The `Fin` arm of `handle_event`, past its guard. -/
def handleFin (io : Io) (transfer : TransferState) (carriers : List Uuid) (carrierId : Uuid)
    (finalOffset : ℕ) : Handled :=
  let reply := sendTo carriers carrierId [.finAck transfer.flowId finalOffset]
  if transfer.remoteEof then { transfer, carriers, sent := reply }
  else match io with
    | .done =>
      { transfer := { transfer with
          localWriter := transfer.localWriter.shutdown, remoteEof := true }
        carriers
        sent := reply }
    | .failed _ reason => { transfer, carriers, result := .error (.localWriteFailed reason) }

/-- The arms of `handle_event` for a frame of a Carrier. -/
def handleFrame (io : Io) (transfer : TransferState) (carriers : List Uuid)
    (active : Option Uuid) (carrierId : Uuid) : DataFrame → Handled
  | .data flowId offset bytes =>
    if flowId = transfer.flowId ∧ bytes.length ≤ maxDataPayload then
      handleData io transfer carriers active carrierId offset bytes
    else { transfer, carriers, result := .error .invalidFrame }
  | .ack flowId nextOffset | .duplicate flowId nextOffset _ =>
    if flowId = transfer.flowId ∧ transfer.send.sendAcked ≤ nextOffset ∧
        nextOffset ≤ transfer.send.sendOffset then
      handleAck transfer carriers nextOffset
    else { transfer, carriers, result := .error .invalidFrame }
  | .fin flowId finalOffset =>
    if flowId = transfer.flowId ∧ finalOffset = transfer.receiveOffset then
      handleFin io transfer carriers carrierId finalOffset
    else { transfer, carriers, result := .error .invalidFrame }
  | .finAck flowId finalOffset =>
    if flowId = transfer.flowId ∧ transfer.localEof ∧ finalOffset = transfer.send.sendOffset then
      { transfer := { transfer with localFinAcked := true }, carriers }
    else { transfer, carriers, result := .error .invalidFrame }
  | .close flowId reason =>
    if flowId = transfer.flowId then
      { transfer, carriers, result := .error (.homeClosed reason) }
    else { transfer, carriers, result := .error .invalidFrame }
  -- Both the arm for `ignored_race` and the arm for any other race do nothing.
  | .raceAck .. | .raceDuplicate .. => { transfer, carriers }
  | _ => { transfer, carriers, result := .error .invalidFrame }

def handleEvent (event : FlowEvent) (io : Io) (transfer : TransferState) (carriers : List Uuid)
    (active : Option Uuid) : Handled :=
  match event with
  | .localData bytes =>
    if transfer.send.unackedBytes + bytes.length > transfer.maxUnackedBytes then
      { transfer, carriers, result := .error .unackedLimitReached }
    else
      { transfer := { transfer with
          send := transfer.send.push bytes, localReads := transfer.localReads ++ [bytes] }
        carriers
        sent := match active with
          | some carrierId => sendTo carriers carrierId
              [.data transfer.flowId transfer.send.sendOffset bytes]
          | none => [] }
  | .localEof =>
    { transfer := { transfer with localEof := true }
      carriers
      sent := match active with
        | some carrierId => sendTo carriers carrierId
            [.fin transfer.flowId transfer.send.sendOffset]
        | none => [] }
  | .localError reason => { transfer, carriers, result := .error (.localFailed reason) }
  | .carrierClosed carrierId =>
    { transfer
      carriers := carriers.filter (· ≠ carrierId)
      result := .ok (active == some carrierId) }
  | .carrierFrame carrierId frame =>
    handleFrame io transfer carriers active carrierId frame

/-- The locals of `perform_race`: `opens` are the Carriers whose OPEN is still pending. -/
structure Race where
  raceId : Uuid
  oldActive : Option Uuid
  candidateIds : List Uuid
  opens : List Uuid
deriving DecidableEq, Repr

/-- Where `run_inner` stands: at the top of its loop, inside `perform_race`, waiting in its
`select!`, or over. -/
inductive TravelPhase where
  | loopTop
  | racing (race : Race)
  | selecting
  | returned
  | failed (error : TravelError)
deriving DecidableEq, Repr

/-- The Travel end. `carriers` are the keys of the handle map. -/
structure Travel where
  transfer : TransferState
  carriers : List Uuid := []
  active : Option Uuid := none
  phase : TravelPhase := .loopTop
deriving DecidableEq, Repr

namespace Travel

/-- A bail out of `run_inner`: `run_io` shuts down every Carrier and every pending open. -/
def fail (t : Travel) (error : TravelError) : Travel × Sends :=
  ({ t with carriers := [], active := none, phase := .failed error }, [])

/-- The completion test at the top of the loop of `run_inner`. -/
def complete (t : Travel) : Bool :=
  t.transfer.localEof && t.transfer.remoteEof && t.transfer.localFinAcked &&
    t.transfer.send.unacked.isEmpty

/-- The completion branch: `drain_carriers` writes out what is queued, or times out. -/
def finish (t : Travel) (drained : Bool) : Option (Travel × Sends) :=
  if t.phase = .loopTop ∧ t.complete then
    if drained then some ({ t with carriers := [], active := none, phase := .returned }, [])
    else some (t.fail .drainTimedOut)
  else none

/-- The start of `perform_race`: opens are spawned and the active Carrier gets a RACE. A race
starts when there is no active Carrier or the reevaluation is due. -/
def beginRace (t : Travel) (raceId : Uuid) (opens : List Uuid) : Option (Travel × Sends) :=
  if t.phase = .loopTop ∧ ¬ t.complete then
    some ({ t with phase := .racing { raceId, oldActive := t.active, candidateIds := [], opens } },
      match t.active with
      | some carrierId => sendTo t.carriers carrierId
          [.race t.transfer.flowId raceId t.transfer.send.sendAcked]
      | none => [])
  else none

/-- Travel is inside `run_inner`. -/
def running (t : Travel) : Bool :=
  match t.phase with
  | .returned | .failed _ => false
  | _ => true

/-- The mapping is stopped, which `run_io` watches at all times. -/
def stop (t : Travel) : Option (Travel × Sends) :=
  if t.running then some (t.fail .mappingStopped) else none

/-- The recovery deadline has passed without an active Carrier. -/
def recoveryExpired (t : Travel) : Option (Travel × Sends) :=
  if t.phase = .loopTop ∧ ¬ t.complete ∧ t.active = none then
    some (t.fail .recoveryDeadlineExpired)
  else none

/-- No race is due: `run_inner` goes on to its `select!`. -/
def select (t : Travel) : Option (Travel × Sends) :=
  if t.phase = .loopTop ∧ ¬ t.complete ∧ t.active.isSome then
    some ({ t with phase := .selecting }, [])
  else none

/-- The `sleep_until(next_reevaluation)` branch of the `select!`. -/
def reevaluate (t : Travel) : Option (Travel × Sends) :=
  if t.phase = .selecting then some ({ t with phase := .loopTop }, []) else none

/-- The end of `perform_race` after its loop broke with `winner`, and what `run_inner` does
with the result. -/
def endRace (t : Travel) (race : Race) : Option Uuid → Travel × Sends
  | some winner =>
    if winner ∈ t.carriers then
      ({ t with carriers := [winner], active := some winner, phase := .selecting },
        sendTo t.carriers winner
          (t.transfer.send.retransmit t.transfer.flowId t.transfer.localEof))
    else ({ t with carriers := [], active := none, phase := .loopTop }, [])
  | none =>
    let carriers := t.carriers.filter (· ∉ race.candidateIds)
    if race.oldActive.any (· ∈ carriers) then
      ({ t with carriers := carriers, active := race.oldActive, phase := .selecting }, [])
    else ({ t with carriers := [], active := none, phase := .loopTop }, [])

/-- No Carrier is left that could still win. -/
def exhausted (t : Travel) (race : Race) : Bool :=
  t.active.isNone && race.opens.isEmpty && race.candidateIds.isEmpty

/-- The loop of `perform_race` goes on unless the race is exhausted. -/
def continueRace (t : Travel) (race : Race) : Travel × Sends :=
  if t.exhausted race then t.endRace race none else ({ t with phase := .racing race }, [])

/-- `opens.join_next()` yields an opened Carrier with the offsets of its OPEN_OK. -/
def opened (t : Travel) (carrierId homeReceiveOffset : ℕ) : Option (Travel × Sends) :=
  match t.phase with
  | .racing race =>
    if carrierId ∈ race.opens then
      if homeReceiveOffset > t.transfer.send.sendOffset then
        some (t.fail .homeAcknowledgedUnsent)
      else if homeReceiveOffset < t.transfer.send.sendAcked then
        some (t.fail .homeAckMovedBackwards)
      else match t.transfer.send.acknowledge homeReceiveOffset with
        | none => some (t.fail .ackSplit)
        | some send =>
          let race := { race with
            opens := race.opens.filter (· ≠ carrierId)
            candidateIds := carrierId :: race.candidateIds }
          some ({ t with
              transfer := { t.transfer with send := send }
              carriers := carrierId :: t.carriers
              phase := .racing race },
            [(carrierId, .race t.transfer.flowId race.raceId send.sendAcked)])
    else none
  | _ => none

/-- `opens.join_next()` yields a failed attempt. -/
def openFailed (t : Travel) (carrierId : Uuid) : Option (Travel × Sends) :=
  match t.phase with
  | .racing race =>
    if carrierId ∈ race.opens then
      some (t.continueRace { race with opens := race.opens.filter (· ≠ carrierId) })
    else none
  | _ => none

/-- The race deadline passes. -/
def deadline (t : Travel) : Option (Travel × Sends) :=
  match t.phase with
  | .racing race => some (t.endRace race none)
  | _ => none

/-- The winner that an answer of Home to the race in progress names. -/
def raceWinner (t : Travel) (race : Race) : FlowEvent → Option Uuid
  | .carrierFrame _ (.raceAck flowId raceId winner)
  | .carrierFrame _ (.raceDuplicate flowId raceId winner) =>
    if flowId = t.transfer.flowId ∧ raceId = race.raceId then some winner else none
  | _ => none

/-- The race after an event was handled: a closed candidate is forgotten. -/
def Race.afterEvent (race : Race) : FlowEvent → Race
  | .carrierClosed carrierId =>
    { race with candidateIds := race.candidateIds.filter (· ≠ carrierId) }
  | _ => race

/-- `events.recv()` yields an event, in `perform_race` or in the `select!` of `run_inner`. -/
def event (t : Travel) (event : FlowEvent) (io : Io) : Option (Travel × Sends) :=
  match t.phase with
  | .racing race =>
    match t.raceWinner race event with
    | some winner => some (t.endRace race (some winner))
    | none =>
      let handled := handleEvent event io t.transfer t.carriers t.active
      let t := { t with transfer := handled.transfer, carriers := handled.carriers }
      match handled.result with
      | .error error => some (t.fail error)
      | .ok closedActive =>
        let t := { t with active := if closedActive then none else t.active }
        match event with
        | .carrierClosed _ => some (t.continueRace (Race.afterEvent race event))
        | _ => some (t, handled.sent)
  | .selecting =>
    let handled := handleEvent event io t.transfer t.carriers t.active
    let t := { t with transfer := handled.transfer, carriers := handled.carriers }
    match handled.result with
    | .error error => some (t.fail error)
    | .ok closedActive =>
      some ({ t with
        active := if closedActive then none else t.active, phase := .loopTop }, handled.sent)
  | _ => none

end Travel

end FlowSplice.Flow
