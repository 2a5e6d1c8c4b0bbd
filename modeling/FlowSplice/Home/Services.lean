import FlowSplice.Control.Snapshot
import FlowSplice.Lib.Cells
import FlowSplice.Lib.Keyed
import FlowSplice.Lib.Log
import FlowSplice.Lib.Machine
import FlowSplice.Lib.Mailbox

/-! The listeners inside the process of a Home: `flowsplice-transport/src/services.rs`. What a
connection carries is not looked at. -/
namespace FlowSplice.Services

/-- `Semaphore::MAX_PERMITS` of 64 bits. -/
def maxPermits : ℕ := (2 ^ 64 - 1) / 8

abbrev Key := String × ServiceProtocol

/-- A sender is the number of the listener whose channel it is of. -/
structure Entry where
  registration : Uuid
  sender : ℕ
deriving DecidableEq, Repr

open Control (Service)

variable {π : Type}

/-- `HomeTcpListener` and `HomeUdpListener`. An item is the connection and its peer. The receiver
ends before the registration does. -/
structure Listener (π : Type) where
  key : Key
  registration : Uuid
  channel : Mailbox (ℕ × π)
  registered : Bool := true

inductive ConnectError where
  | unknown
  | mismatched
  | closed
deriving DecidableEq, Repr

inductive Phase where
  | sending (sender : ℕ)
  | connected (sender : ℕ)
  | failed (error : ConnectError)
  | cancelled
deriving DecidableEq, Repr

/-- A call of `connect_tcp` or `connect_udp`, as the protocol says. -/
structure Connect (π : Type) where
  protocol : ServiceProtocol
  service : Service
  peer : π
  phase : Phase

inductive BindError where
  | backlog
  | identifier
  | registered
deriving DecidableEq, Repr

structure Sys (π : Type) where
  alive : Bool := true
  entries : Table Key Entry := ∅
  listeners : List (Listener π) := []
  calls : List (Connect π) := []
  drawn : List Uuid := []

inductive Action (π : Type) where
  | bind (protocol : ServiceProtocol) (serviceId : String) (backlog : ℕ) (id : Uuid)
  | connect (protocol : ServiceProtocol) (service : Service) (peer : π)
  | send (call : ℕ)
  | cancel (call : ℕ)
  | accept (listener : ℕ)
  | close (listener : ℕ)
  | release (listener : ℕ)
  | dropRegistry

/-- `validate_backlog`. -/
def validateBacklog (backlog : ℕ) : Bool := backlog != 0 && decide (backlog ≤ maxPermits)

namespace Sys

def setCall (s : Sys π) (c : ℕ) (call : Connect π) : Sys π := { s with calls := s.calls.set c call }

def setListener (s : Sys π) (l : ℕ) (listener : Listener π) : Sys π :=
  { s with listeners := s.listeners.set l listener }

/-- `bind_tcp` and `bind_udp`, with `register`. -/
def bind (s : Sys π) (protocol : ServiceProtocol) (serviceId : String) (backlog : ℕ) (id : Uuid) :
    Except BindError (Sys π) :=
  if validateBacklog backlog = false then .error .backlog
  else if serviceId.isEmpty then .error .identifier
  else match s.entries.lookup (serviceId, protocol) with
    | some _ => .error .registered
    | none => .ok { s with
        entries := s.entries.insert (serviceId, protocol) ⟨id, s.listeners.length⟩
        listeners := s.listeners ++ [{
          key := (serviceId, protocol), registration := id, channel := .channel _ backlog }]
        drawn := id :: s.drawn }

/-- `sender` of the service, which is of the channels of the call's protocol or not. -/
def lookup (s : Sys π) (protocol : ServiceProtocol) (service : Service) : Phase :=
  match s.entries.lookup (service.id, service.protocol) with
  | none => .failed .unknown
  | some entry =>
    if service.protocol = protocol then .sending entry.sender else .failed .mismatched

/-- The end of a `Registration`. -/
def release (s : Sys π) (listener : Listener π) : Table Key Entry :=
  match s.entries.lookup listener.key with
  | some entry =>
    if entry.registration = listener.registration then s.entries.erase listener.key else s.entries
  | none => s.entries

/-- A call that sends holds the registry. -/
def sends (s : Sys π) : Bool :=
  s.calls.any fun call => match call.phase with
    | .sending _ => true
    | _ => false

def step (s : Sys π) : Action π → Option (Sys π)
  | .bind protocol serviceId backlog id =>
    if s.alive = false ∨ id ∈ s.drawn then none
    else match s.bind protocol serviceId backlog id with
      | .ok next => some next
      | .error _ => some s
  | .connect protocol service peer =>
    if s.alive = false then none
    else some { s with calls := s.calls ++ [⟨protocol, service, peer, s.lookup protocol service⟩] }
  | .send c => match s.calls[c]? with
    | some call => match call.phase with
      | .sending l => match s.listeners[l]? with
        | some listener =>
          if listener.channel.receiver = false then
            some (s.setCall c { call with phase := .failed .closed })
          else (listener.channel.push (c, call.peer)).map fun channel =>
            (s.setListener l { listener with channel }).setCall c
              { call with phase := .connected l }
        | none => none
      | _ => none
    | none => none
  | .cancel c => match s.calls[c]? with
    | some call => match call.phase with
      | .sending _ => some (s.setCall c { call with phase := .cancelled })
      | _ => none
    | none => none
  | .accept l => match s.listeners[l]? with
    | some listener => match listener.channel.pop with
      | some (_, channel) => some (s.setListener l { listener with channel })
      -- Without a sender `accept` fails, with one it waits.
      | none => if s.alive = false ∧ listener.channel.receiver then some s else none
    | none => none
  | .close l => match s.listeners[l]? with
    | some listener =>
      if listener.channel.receiver then
        some (s.setListener l { listener with channel := listener.channel.close })
      else none
    | none => none
  | .release l => match s.listeners[l]? with
    | some listener =>
      if listener.channel.receiver = false ∧ listener.registered then
        some { s.setListener l { listener with registered := false } with
          entries := s.release listener }
      else none
    | none => none
  | .dropRegistry =>
    if s.alive ∧ s.sends = false then some { s with alive := false, entries := ∅ } else none

end Sys

def machine (π : Type) : Machine (Sys π) (Action π) where
  start := {}
  step := Sys.step

end FlowSplice.Services
