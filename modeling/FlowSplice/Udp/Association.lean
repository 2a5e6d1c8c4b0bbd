import Mathlib.Logic.Function.Basic
import FlowSplice.Frame.RoundTrip

/-! A UDP association: `pump_udp_association` of `flowsplice-travel-core/src/lib.rs` and the loop of
`serve_udp` of `flowsplice-home-core/src/lib.rs`, joined by a stream of bounded capacity in each
direction, with the queues of `datagram_pair` to their applications. The two loops are the same code
but for their metrics and timers. No timer is a step here. -/
namespace FlowSplice.Udp
open FlowSplice.Frame

inductive Side where
  | travel
  | home
deriving DecidableEq, Repr

def Side.other : Side → Side
  | .travel => .home
  | .home => .travel

inductive UdpError where
  | io (error : IoError)
  | invalidFrame
  | closed
deriving DecidableEq, Repr

/-- Where a loop is: in its `select!`, or in the handler of a branch. `rest` is what `write_all` has
not put on the stream yet, and `bytes` waits for room in the queue of the application. -/
inductive Handler where
  | selecting
  | writing (rest : Bytes)
  | delivering (bytes : Bytes)
  | ended (error : UdpError)
deriving DecidableEq, Repr

/-- An end with its queues. `taken` is what its reader holds of a frame that is not complete. -/
structure End where
  outgoing : List Bytes := []
  incoming : List Bytes := []
  handler : Handler := .selecting
  taken : Bytes := []
  sendSequence : ℕ := 0
  receiveSequence : ℕ := 0
deriving DecidableEq, Repr

/-- `stream side` are the bytes that `side` has written and the other end has not read, and `offers
side` what the application of `side` has still to send. -/
structure Sys where
  ends : Side → End
  stream : Side → Bytes
  offers : Side → List Bytes

/-- `capacity side` is how much the stream that `side` writes holds. -/
structure Config where
  serde : SerdeJson
  /-- The `data_codec` that both ends have negotiated. -/
  codec : DataFrameCodec
  flowId : Uuid
  capacity : Side → ℕ

def dataFrameLimit : ℕ := 1024 * 1024

/-- The capacity of the queues of datagrams. -/
def queueCapacity : ℕ := 64

def maxDatagram : ℕ := 65507

/-- `u64::wrapping_add` with one. -/
def nextSequence (sequence : ℕ) : ℕ := (sequence + 1) % 2 ^ 64

inductive Action where
  | offer (side : Side)
  | receive (side : Side)
  | write (side : Side) (count : ℕ)
  | read (side : Side) (count : ℕ)
  | deliver (side : Side)
  | consume (side : Side)
deriving DecidableEq, Repr

/-- The application offers something. All other steps work off what is there. -/
def Action.isOffer : Action → Bool
  | .offer _ => true
  | _ => false

namespace End

variable (config : Config) (e : End)

/-- `write_all` goes on with what is left, and the loop with its `select!` after the last byte. -/
def writing (rest : Bytes) : End :=
  if rest = [] then
    { e with handler := .selecting, sendSequence := nextSequence e.sendSequence }
  else { e with handler := .writing rest }

/-- The branch of `endpoint.recv()`: the frame of a datagram is written. -/
def receive (bytes : Bytes) : End :=
  match writeDataFrame config.serde dataFrameLimit config.codec
      (.datagram config.flowId e.sendSequence bytes) with
  | .error error => { e with handler := .ended (.io error) }
  | .ok frame => e.writing frame

/-- The branch of `reader.read()`. -/
def handleFrame : Except IoError DataFrame → End
  | .error error => { e with handler := .ended (.io error) }
  | .ok (.datagram id sequence bytes) =>
    if id = config.flowId ∧ e.receiveSequence ≤ sequence ∧ bytes.length ≤ maxDatagram then
      if sequence = e.receiveSequence then { e with handler := .delivering bytes } else e
    else { e with handler := .ended .invalidFrame }
  | .ok (.close id _) =>
    { e with handler := .ended (if id = config.flowId then .closed else .invalidFrame) }
  | .ok _ => { e with handler := .ended .invalidFrame }

/-- The reader has got these bytes of the stream. -/
def arrive (chunk : Bytes) : End :=
  match scanFrame dataFrameLimit (e.taken ++ chunk) with
  | .more _ => { e with taken := e.taken ++ chunk }
  | .failed error => { e with handler := .ended (.io error) }
  | .done payload =>
    { e with taken := [] }.handleFrame config (decodeDataFrame config.serde payload config.codec)

/-- The application has taken the datagram into its queue. -/
def delivered (bytes : Bytes) : End :=
  { e with
    incoming := e.incoming ++ [bytes]
    handler := .selecting
    receiveSequence := nextSequence e.receiveSequence }

end End

namespace Sys

variable (config : Config) (s : Sys)

def setEnd (side : Side) (e : End) : Sys := { s with ends := Function.update s.ends side e }

def setStream (side : Side) (bytes : Bytes) : Sys :=
  { s with stream := Function.update s.stream side bytes }

/-- How many bytes the stream of an end has room for. -/
def room (side : Side) : ℕ := config.capacity side - (s.stream side).length

def step (s : Sys) : Action → Option Sys
  | .offer side =>
    match s.offers side with
    | [] => none
    | bytes :: rest =>
      if (s.ends side).outgoing.length < queueCapacity then
        some { s.setEnd side { s.ends side with outgoing := (s.ends side).outgoing ++ [bytes] } with
          offers := Function.update s.offers side rest }
      else none
  | .receive side =>
    match (s.ends side).handler, (s.ends side).outgoing with
    | .selecting, bytes :: rest =>
      some (s.setEnd side (End.receive config { s.ends side with outgoing := rest } bytes))
    | _, _ => none
  | .write side count =>
    match (s.ends side).handler with
    | .writing rest =>
      if 0 < count ∧ count ≤ rest.length ∧ count ≤ s.room config side then
        some ((s.setEnd side ((s.ends side).writing (rest.drop count))).setStream side
          (s.stream side ++ rest.take count))
      else none
    | _ => none
  | .read side count =>
    match (s.ends side).handler, scanFrame dataFrameLimit (s.ends side).taken with
    | .selecting, .more want =>
      if 0 < count ∧ count ≤ want ∧ count ≤ (s.stream side.other).length then
        some ((s.setEnd side ((s.ends side).arrive config
          ((s.stream side.other).take count))).setStream side.other
          ((s.stream side.other).drop count))
      else none
    | _, _ => none
  | .deliver side =>
    match (s.ends side).handler with
    | .delivering bytes =>
      if (s.ends side).incoming.length < queueCapacity then
        some (s.setEnd side ((s.ends side).delivered bytes))
      else none
    | _ => none
  | .consume side =>
    match (s.ends side).incoming with
    | [] => none
    | _ :: rest => some (s.setEnd side { s.ends side with incoming := rest })

end Sys

/-- An association whose applications offer these datagrams. -/
def machine (config : Config) (offers : Side → List Bytes) : Machine Sys Action where
  start := { ends := fun _ => {}, stream := fun _ => [], offers }
  step := Sys.step config

end FlowSplice.Udp
