import FlowSplice.Home.ControlSession
import FlowSplice.Lib.Cells
import FlowSplice.Lib.Keyed
import FlowSplice.Lib.Machine

/-! Enrollments of Travels that the Server forwards between Relay and Home sessions:
`handle_remote_enrollment_submit`, `handle_bootstrap_enrollment_submit`,
`handle_remote_enrollment_installed`, `complete_remote_enrollment`,
`complete_remote_enrollment_installed`, `take_enrollment_response` and the cleanup of
`server/src/main.rs`, run in any order beside sessions that come and go. -/
namespace FlowSplice.Server.Enrollments

open HomeControl (controlProtocolVersion)

/-- What a Relay submits. The Server sends the same message on to the Home. -/
inductive Submission where
  | remote (requestId : Uuid) (travelId : String) (travelSessionId credentialId : Uuid)
      (homeId : String) (requestJson : Bytes)
  | bootstrap (protocolVersion : ℕ) (requestId : Uuid) (travelId homeId : String)
      (retrievalToken requestJson : Bytes)
  | installed (requestId : Uuid) (travelId : String) (travelSessionId credentialId : Uuid)
      (homeId : String)
deriving DecidableEq, Repr

/-- `RemoteEnrollmentResult` and `RemoteEnrollmentInstalledAck`, as a Home says them. -/
inductive HomeAnswer where
  | result (requestId : Uuid) (accepted : Bool) (responseJson : Option Bytes)
      (error : Option String)
  | installedAck (requestId : Uuid) (accepted : Bool) (error : Option String)
deriving DecidableEq, Repr

/-- What a Relay is told. -/
inductive Answer where
  | remoteResult (requestId : Uuid) (accepted : Bool) (responseJson : Option Bytes)
      (error : Option String)
  | bootstrapResult (requestId : Uuid) (accepted : Bool) (responseJson : Option Bytes)
      (seedRelays : List String) (error : Option String)
  | installedAck (requestId : Uuid) (accepted : Bool) (error : Option String)
deriving DecidableEq, Repr

structure Config where
  workTtlSecs : ℕ
  maxPendingWork : ℕ
deriving DecidableEq, Repr

/-- The time that a request is given. Instants are in nanoseconds. -/
def Config.lifetime (config : Config) : ℕ := max config.workTtlSecs 15 * 1000000000

namespace Submission

def requestId : Submission → Uuid
  | remote requestId .. | bootstrap _ requestId .. | installed requestId .. => requestId

def travelId : Submission → String
  | remote _ travelId .. | bootstrap _ _ travelId .. | installed _ travelId .. => travelId

def homeId : Submission → String
  | remote _ _ _ _ homeId _ | bootstrap _ _ _ homeId _ _ | installed _ _ _ _ homeId => homeId

def isBootstrap : Submission → Bool
  | bootstrap .. => true
  | _ => false

def isInstalled : Submission → Bool
  | installed .. => true
  | _ => false

/-- The check before anything is locked. -/
def check : Submission → Except String Unit
  | remote requestId _ _ _ _ requestJson =>
    if requestId = 0 ∨ requestJson = [] ∨ 512 * 1024 < requestJson.length then
      .error "remote enrollment request is missing or oversized"
    else .ok ()
  | bootstrap protocolVersion requestId travelId homeId retrievalToken requestJson =>
    if protocolVersion ≠ controlProtocolVersion ∨ requestId = 0 ∨ travelId = "" ∨ homeId = "" ∨
        retrievalToken.length ≠ 32 ∨ requestJson = [] ∨ 512 * 1024 < requestJson.length then
      .error "first enrollment request is invalid or oversized"
    else .ok ()
  | installed requestId .. =>
    if requestId = 0 then .error "remote enrollment install acknowledgement is invalid" else .ok ()

/-- The context of an error of the delivery to the Home. -/
def deliveryContext : Submission → String
  | remote .. => "Home control session delivery failed during enrollment delivery"
  | bootstrap .. => "Home control session delivery failed during first enrollment delivery"
  | installed .. => "Home control session delivery failed during enrollment acknowledgement"

/-- The immediate failure that the Relay session writes itself. -/
def refusal (error : String) : Submission → Answer
  | remote requestId .. => .remoteResult requestId false none (some error)
  | bootstrap _ requestId .. => .bootstrapResult requestId false none [] (some error)
  | installed requestId .. => .installedAck requestId false (some error)

end Submission

namespace HomeAnswer

def requestId : HomeAnswer → Uuid
  | result requestId .. | installedAck requestId .. => requestId

/-- The stage that an answer is for, `installed` of `take_enrollment_response`. -/
def isInstalled : HomeAnswer → Bool
  | result .. => false
  | installedAck .. => true

/-- What the Relay is told of it. Only a first enrollment gets seeds. -/
def forward (bootstrap : Bool) (seedRelays : List String) : HomeAnswer → Answer
  | result requestId accepted responseJson error =>
    if bootstrap then .bootstrapResult requestId accepted responseJson seedRelays error
    else .remoteResult requestId accepted responseJson error
  | installedAck requestId accepted error => .installedAck requestId accepted error

end HomeAnswer

/-- `forwardingId` is the number of the call that put the record, and `relay` the session that gets
the answer. -/
structure PendingEnrollment where
  forwardingId : ℕ
  relayId : String
  travelId : String
  homeId : String
  relay : ℕ
  bootstrap : Bool
  installed : Bool
  expires : ℕ
deriving DecidableEq, Repr

/-- Where a submission is: it takes the locks one after the other, then awaits the queue of the
Home's session, and retires its record where that fails. -/
inductive Phase where
  | started
  | authorized
  | located (home : ℕ)
  | inserted (home : ℕ)
  | sending (home : ℕ)
  | failing (error : String)
  | refused (error : String)
  | replied (error : String)
  | delivered (home : ℕ)
deriving DecidableEq, Repr

/-- A Home session, what was said in it, and for which call it was meant. -/
structure Taken where
  home : ℕ
  answer : HomeAnswer
  origin : Option ℕ
deriving DecidableEq, Repr

/-- A call of one of the three handlers. The last two fields are for statements: what took its
record, and what was put into the queue of its Relay session for that. -/
structure Call where
  relay : ℕ
  submission : Submission
  expires : ℕ
  phase : Phase := .started
  taken : Option Taken := none
  forwarded : Option Answer := none
deriving DecidableEq, Repr

/-- An answer for a call, from a Home or from the Server itself. -/
structure Entry where
  call : ℕ
  byHome : Bool
  answer : Answer
deriving DecidableEq, Repr

/-- A session of a Relay reads nothing while a call of it runs. -/
structure RelaySession where
  relayId : String
  running : Bool := true
  call : Option ℕ := none
  queue : List Entry := []
  written : List Entry := []
deriving DecidableEq, Repr

/-- A record that was taken for an answer. The message to the Relay is made next. -/
structure Completion where
  record : PendingEnrollment
  answer : HomeAnswer
  origin : Option ℕ
  message : Option Answer := none
deriving DecidableEq, Repr

/-- A session of a Home reads nothing while an answer of it is completed. `listening` tells that the
receiver of its queue is there. `said` and `answered` are for statements: its answers, and the calls
that they were meant for. -/
structure HomeSession where
  homeId : String
  running : Bool := true
  listening : Bool := true
  queue : List ℕ := []
  received : List ℕ := []
  completing : Option Completion := none
  said : List HomeAnswer := []
  answered : List ℕ := []
  torn : Bool := false
deriving DecidableEq, Repr

structure Sys where
  now : ℕ := 0
  senders : Table String ℕ := ∅
  directory : List String := []
  pending : Table Uuid PendingEnrollment := ∅
  relays : List RelaySession := []
  homes : List HomeSession := []
  calls : List Call := []

/-- `result` of `authorize` is what `authorize_travel` and `validate_install_acknowledgement` say.
`origin` of `answer` is the call that the Home means, if any. -/
inductive Action where
  | connectRelay (relayId : String)
  | submit (r : ℕ) (submission : Submission)
  | authorize (c : ℕ) (result : Except String Unit)
  | locate (c : ℕ)
  | insert (c : ℕ)
  | beginSend (c : ℕ)
  | deliver (c : ℕ)
  | sendFails (c : ℕ)
  | retire (c : ℕ)
  | reply (c : ℕ)
  | write (r : ℕ)
  | endRelay (r : ℕ)
  | connectHome (homeId : String)
  | stopWriter (h : ℕ)
  | receive (h : ℕ)
  | answer (h : ℕ) (answer : HomeAnswer) (origin : Option ℕ)
  | compose (h : ℕ)
  | forward (h : ℕ)
  | forwardFails (h : ℕ)
  | endHome (h : ℕ)
  | clearHome (h : ℕ)
  | publish (directory : List String)
  | cleanup
  | tick (now : ℕ)

def Call.record (forwardingId : ℕ) (relayId : String) (call : Call) : PendingEnrollment where
  forwardingId
  relayId
  travelId := call.submission.travelId
  homeId := call.submission.homeId
  relay := call.relay
  bootstrap := call.submission.isBootstrap
  installed := call.submission.isInstalled
  expires := call.expires

/-- Why a record under the same request id stands in the way. -/
def conflict (relayId : String) (submission : Submission) (existing : PendingEnrollment) : String :=
  match submission with
  | .remote .. => "remote enrollment request is already in flight"
  | .installed .. => "remote enrollment acknowledgement is already in flight"
  | .bootstrap .. =>
    if existing.relayId ≠ relayId ∨ existing.travelId ≠ submission.travelId ∨
        existing.homeId ≠ submission.homeId ∨ existing.bootstrap = false then
      "conflicting first enrollment request is already in flight"
    else "first enrollment request is already in flight"

/-- An error of `send_control_until` after its first check. A closed queue is noticed first. -/
def sendError (listening : Bool) (expires now : ℕ) : Option String :=
  if listening = false then some "control session queue closed"
  else if expires ≤ now then some "control queue admission timed out: deadline has elapsed"
  else none

namespace Sys
variable (config : Config) (s : Sys)

def setCall (c : ℕ) (call : Call) : Sys := { s with calls := s.calls.set c call }

def setRelay (r : ℕ) (relay : RelaySession) : Sys := { s with relays := s.relays.set r relay }

def setHome (h : ℕ) (home : HomeSession) : Sys := { s with homes := s.homes.set h home }

def submit (r : ℕ) (submission : Submission) : Option Sys :=
  match s.relays[r]? with
  | some relay =>
    if relay.running ∧ relay.call = none then
      some { s.setRelay r { relay with call := some s.calls.length } with
        calls := s.calls ++ [{ relay := r, submission, expires := s.now + config.lifetime }] }
    else none
  | none => none

def authorize (c : ℕ) (result : Except String Unit) : Option Sys :=
  match s.calls[c]? with
  | some call =>
    if call.phase = .started then
      match call.submission.check with
      | .error error => some (s.setCall c { call with phase := .refused error })
      | .ok () =>
        if call.submission.isBootstrap then some (s.setCall c { call with phase := .authorized })
        else
          match result with
          | .error error => some (s.setCall c { call with phase := .refused error })
          | .ok () => some (s.setCall c { call with phase := .authorized })
    else none
  | none => none

/-- `HomeRegistry::sender`. -/
def locate (c : ℕ) : Option Sys :=
  match s.calls[c]? with
  | some call =>
    if call.phase = .authorized then
      match s.senders.lookup call.submission.homeId with
      | some home => some (s.setCall c { call with phase := .located home })
      | none => some (s.setCall c { call with phase := .refused "target Home is unavailable" })
    else none
  | none => none

def insert (c : ℕ) : Option Sys :=
  match s.calls[c]? with
  | some call =>
    match call.phase, s.relays[call.relay]? with
    | .located home, some relay =>
      if config.maxPendingWork ≤ s.pending.len then
        some (s.setCall c { call with phase := .refused "Server pending enrollment limit reached" })
      else
        match s.pending.lookup call.submission.requestId with
        | some existing => some (s.setCall c { call with
            phase := .refused (conflict relay.relayId call.submission existing) })
        | none => some { s.setCall c { call with phase := .inserted home } with
            pending := s.pending.insert call.submission.requestId (call.record c relay.relayId) }
    | _, _ => none
  | none => none

/-- The first check of `send_control_until`. -/
def beginSend (c : ℕ) : Option Sys :=
  match s.calls[c]? with
  | some call =>
    match call.phase with
    | .inserted home =>
      if call.expires ≤ s.now then
        some (s.setCall c { call with
          phase := .failing "control request deadline expired before queue admission" })
      else some (s.setCall c { call with phase := .sending home })
    | _ => none
  | none => none

/-- The call returns nothing, and its Relay session goes on. -/
def deliver (c : ℕ) : Option Sys :=
  match s.calls[c]? with
  | some call =>
    match call.phase with
    | .sending h =>
      match s.homes[h]?, s.relays[call.relay]? with
      | some home, some relay =>
        if home.listening ∧ home.queue.length < 32 then
          some (((s.setHome h { home with queue := home.queue ++ [c] }).setRelay call.relay
            { relay with call := none }).setCall c { call with phase := .delivered h })
        else none
      | _, _ => none
    | _ => none
  | none => none

def sendFails (c : ℕ) : Option Sys :=
  match s.calls[c]? with
  | some call =>
    match call.phase with
    | .sending h =>
      match s.homes[h]? with
      | some home => (sendError home.listening call.expires s.now).map fun error =>
          s.setCall c { call with phase := .failing error }
      | none => none
    | _ => none
  | none => none

/-- A record goes only if it is that of the call. -/
def retire (c : ℕ) : Option Sys :=
  match s.calls[c]? with
  | some call =>
    match call.phase with
    | .failing error =>
      let next := s.setCall c { call with
        phase := .refused (call.submission.deliveryContext ++ ": " ++ error) }
      match s.pending.lookup call.submission.requestId with
      | some record =>
        if record.forwardingId = c then
          some { next with pending := s.pending.erase call.submission.requestId }
        else some next
      | none => some next
    | _ => none
  | none => none

/-- The Relay session writes the immediate failure. -/
def reply (c : ℕ) : Option Sys :=
  match s.calls[c]? with
  | some call =>
    match call.phase, s.relays[call.relay]? with
    | .refused error, some relay =>
      if relay.running then
        let entry : Entry := ⟨c, false, call.submission.refusal error⟩
        some ((s.setRelay call.relay { relay with
          call := none, written := relay.written ++ [entry] }).setCall c
            { call with phase := .replied error })
      else none
    | _, _ => none
  | none => none

def write (r : ℕ) : Option Sys :=
  match s.relays[r]? with
  | some relay =>
    match relay.queue with
    | entry :: queue =>
      if relay.running ∧ relay.call = none then
        some (s.setRelay r { relay with queue, written := relay.written ++ [entry] })
      else none
    | [] => none
  | none => none

/-- A call is awaited to its end, but writing its failure may end the session. -/
def mayEnd (relay : RelaySession) : Bool :=
  match relay.call with
  | none => true
  | some c =>
    match (s.calls[c]?).map Call.phase with
    | some (.refused _) => true
    | _ => false

def endRelay (r : ℕ) : Option Sys :=
  match s.relays[r]? with
  | some relay =>
    if relay.running ∧ s.mayEnd relay then
      some (s.setRelay r { relay with running := false, call := none, queue := [] })
    else none
  | none => none

def connectHome (homeId : String) : Sys :=
  { s with
    senders := s.senders.insert homeId s.homes.length
    homes := s.homes ++ [{ homeId }] }

def stopWriter (h : ℕ) : Option Sys :=
  match s.homes[h]? with
  | some home => some (s.setHome h { home with listening := false, queue := [] })
  | none => none

def receive (h : ℕ) : Option Sys :=
  match s.homes[h]? with
  | some home =>
    match home.queue with
    | c :: queue => some (s.setHome h { home with queue, received := home.received ++ [c] })
    | [] => none
  | none => none

/-- `take_enrollment_response`, for an answer that the session has read. Where it fails, so does the
session. An answer that nobody waits for, or that comes too late, is dropped. -/
def answer (h : ℕ) (answer : HomeAnswer) (origin : Option ℕ) : Option Sys :=
  match s.homes[h]? with
  | some home =>
    if home.running ∧ home.completing = none then
      let home := { home with
        said := home.said ++ [answer], answered := home.answered ++ origin.toList }
      match s.pending.lookup answer.requestId with
      | none => some (s.setHome h home)
      | some record =>
        if record.homeId ≠ home.homeId ∨ record.installed ≠ answer.isInstalled then
          some (s.setHome h { home with
            running := false, listening := false, queue := [], torn := true })
        else
          let next := { s with
            pending := s.pending.erase answer.requestId
            calls := s.calls.modify record.forwardingId fun call =>
              { call with taken := some ⟨h, answer, origin⟩ } }
          if record.expires ≤ s.now then some (next.setHome h home)
          else some (next.setHome h { home with completing := some { record, answer, origin } })
    else none
  | none => none

/-- The message to the Relay, and the first check of `send_control_until`. -/
def compose (h : ℕ) : Option Sys :=
  match s.homes[h]? with
  | some home =>
    match home.completing with
    | some completion =>
      if completion.message.isSome then none
      else if completion.record.expires ≤ s.now then
        some (s.setHome h { home with completing := none })
      else
        let message := completion.answer.forward completion.record.bootstrap s.directory
        some (s.setHome h { home with
          completing := some { completion with message := some message } })
    | none => none
  | none => none

def forward (h : ℕ) : Option Sys :=
  match s.homes[h]? with
  | some home =>
    match home.completing with
    | some ⟨record, _, _, some message⟩ =>
      match s.relays[record.relay]? with
      | some relay =>
        if relay.running ∧ relay.queue.length < 64 then
          let entry : Entry := ⟨record.forwardingId, true, message⟩
          some { (s.setRelay record.relay { relay with queue := relay.queue ++ [entry] }).setHome h
              { home with completing := none } with
            calls := s.calls.modify record.forwardingId fun call =>
              { call with forwarded := some message } }
        else none
      | none => none
    | _ => none
  | none => none

/-- The answer is lost, and the session of the Home goes on. -/
def forwardFails (h : ℕ) : Option Sys :=
  match s.homes[h]? with
  | some home =>
    match home.completing with
    | some ⟨record, _, _, some _⟩ =>
      match s.relays[record.relay]? with
      | some relay =>
        if (sendError relay.running record.expires s.now).isSome then
          some (s.setHome h { home with completing := none })
        else none
      | none => none
    | _ => none
  | none => none

def endHome (h : ℕ) : Option Sys :=
  match s.homes[h]? with
  | some home =>
    if home.running ∧ home.completing = none then
      some (s.setHome h { home with running := false, listening := false, queue := [] })
    else none
  | none => none

/-- `clear_home_session`. -/
def clearHome (h : ℕ) : Option Sys :=
  match s.homes[h]? with
  | some home =>
    if home.running = false ∧ s.senders.lookup home.homeId = some h then
      some { s with senders := s.senders.erase home.homeId }
    else none
  | none => none

def step : Action → Option Sys
  | .connectRelay relayId => some { s with relays := s.relays ++ [{ relayId }] }
  | .submit r submission => s.submit config r submission
  | .authorize c result => s.authorize c result
  | .locate c => s.locate c
  | .insert c => s.insert config c
  | .beginSend c => s.beginSend c
  | .deliver c => s.deliver c
  | .sendFails c => s.sendFails c
  | .retire c => s.retire c
  | .reply c => s.reply c
  | .write r => s.write r
  | .endRelay r => s.endRelay r
  | .connectHome homeId => some (s.connectHome homeId)
  | .stopWriter h => s.stopWriter h
  | .receive h => s.receive h
  | .answer h answer origin => s.answer h answer origin
  | .compose h => s.compose h
  | .forward h => s.forward h
  | .forwardFails h => s.forwardFails h
  | .endHome h => s.endHome h
  | .clearHome h => s.clearHome h
  | .publish directory => some { s with directory }
  | .cleanup => some { s with pending := s.pending.retain fun _ record => s.now < record.expires }
  | .tick now => if now < s.now then none else some { s with now }

end Sys

def machine (config : Config) : Machine Sys Action where
  start := {}
  step := Sys.step config

/-- The call has yet to put its record. -/
def Phase.early : Phase → Bool
  | .started | .authorized | .located _ => true
  | _ => false

/-- What has come to a Relay session, written or not. -/
def RelaySession.answers (relay : RelaySession) : List Entry := relay.written ++ relay.queue

/-- No answer comes to a Relay session. -/
def Quiet (relays relays' : List RelaySession) : Prop :=
  ∀ (r : ℕ) (relay' : RelaySession), relays'[r]? = some relay' → relay'.answers = [] ∨
    ∃ relay, relays[r]? = some relay ∧ relay'.answers.Sublist relay.answers

variable {config : Config} {s s' : Sys} {calls : List Call} {relays : List RelaySession}
  {homes : List HomeSession} {call call' : Call} {relay relay' : RelaySession}
  {home home' : HomeSession} {record : PendingEnrollment} {id : Uuid} {c r h now : ℕ}

theorem Quiet.refl (relays : List RelaySession) : Quiet relays relays :=
  fun _ relay hrelay => .inr ⟨relay, hrelay, List.Sublist.refl _⟩

theorem Quiet.set (hrelay : relays[r]? = some relay)
    (hsub : relay'.answers.Sublist relay.answers) : Quiet relays (relays.set r relay') := by
  intro i new hnew
  rcases Cells.getElem?_set_cases hrelay hnew with ⟨rfl, rfl⟩ | ⟨-, hnew⟩
  · exact .inr ⟨relay, hrelay, hsub⟩
  · exact .inr ⟨new, hnew, List.Sublist.refl _⟩

theorem Quiet.append (hempty : relay.answers = []) : Quiet relays (relays ++ [relay]) := by
  intro i new hnew
  rcases Cells.getElem?_append_cases hnew with ⟨-, rfl⟩ | ⟨-, hnew⟩
  · exact .inl hempty
  · exact .inr ⟨new, hnew, List.Sublist.refl _⟩

/-- How a call moves on while no lock changes anything for it. -/
inductive Call.Moves (s : Sys) (c : ℕ) (call : Call) : Phase → Prop where
  | authorized (h : call.phase = .started) : Moves s c call .authorized
  | located {home : ℕ} (h : call.phase = .authorized)
      (hsender : s.senders.lookup call.submission.homeId = some home) :
      Moves s c call (.located home)
  | refused {error : String} (h : call.phase.early = true) : Moves s c call (.refused error)
  | sending {home : ℕ} (h : call.phase = .inserted home) : Moves s c call (.sending home)
  | failing {home : ℕ} {error : String}
      (h : call.phase = .inserted home ∨ call.phase = .sending home) :
      Moves s c call (.failing error)
  | retired {error error' : String} (h : call.phase = .failing error)
      (hrecord : ∀ record, s.pending.lookup call.submission.requestId = some record →
        record.forwardingId ≠ c) : Moves s c call (.refused error')

/-- A session of a Home goes on without taking a record. -/
structure HomeSession.Later (home home' : HomeSession) : Prop where
  homeId : home'.homeId = home.homeId
  said : ∀ answer ∈ home.said, answer ∈ home'.said
  answered : ∀ c ∈ home.answered, c ∈ home'.answered
  running : home'.running = true → home.running = true
  torn : home'.torn = home.torn
  completing : home'.completing = none ∨ home'.completing = home.completing
  carried : ∀ c ∈ home'.received ++ home'.queue, c ∈ home.received ++ home.queue

/-- What a step can do. -/
inductive Effect (config : Config) (s : Sys) : Action → Sys → Prop where
  | submits {r : ℕ} {relay : RelaySession} {submission : Submission}
      (hrelay : s.relays[r]? = some relay) :
      Effect config s (.submit r submission)
        { s.setRelay r { relay with call := some s.calls.length } with
          calls := s.calls ++ [{ relay := r, submission, expires := s.now + config.lifetime }] }
  | moves {a : Action} {c : ℕ} {call : Call} {phase : Phase} (hcall : s.calls[c]? = some call)
      (hmoves : call.Moves s c phase) : Effect config s a (s.setCall c { call with phase })
  | retires {a : Action} {c : ℕ} {call : Call} {error error' : String} {record : PendingEnrollment}
      (hcall : s.calls[c]? = some call) (hphase : call.phase = .failing error)
      (hrecord : s.pending.lookup call.submission.requestId = some record)
      (hown : record.forwardingId = c) :
      Effect config s a { s.setCall c { call with phase := .refused error' } with
        pending := s.pending.erase call.submission.requestId }
  | inserts {c located : ℕ} {call : Call} {relay : RelaySession} (hcall : s.calls[c]? = some call)
      (hphase : call.phase = .located located) (hroom : s.pending.len < config.maxPendingWork)
      (hnone : s.pending.lookup call.submission.requestId = none) :
      Effect config s (.insert c) { s.setCall c { call with phase := .inserted located } with
        pending := s.pending.insert call.submission.requestId (call.record c relay.relayId) }
  | delivers {a : Action} {c h : ℕ} {call : Call} {home : HomeSession} {relay : RelaySession}
      (hcall : s.calls[c]? = some call) (hphase : call.phase = .sending h)
      (hhome : s.homes[h]? = some home) (hrelay : s.relays[call.relay]? = some relay) :
      Effect config s a (((s.setHome h { home with queue := home.queue ++ [c] }).setRelay
        call.relay { relay with call := none }).setCall c { call with phase := .delivered h })
  | replies {a : Action} {c : ℕ} {call : Call} {relay : RelaySession} {error : String}
      (hcall : s.calls[c]? = some call) (hphase : call.phase = .refused error)
      (hrelay : s.relays[call.relay]? = some relay) :
      Effect config s a ((s.setRelay call.relay { relay with
        call := none
        written := relay.written ++ [⟨c, false, call.submission.refusal error⟩] }).setCall c
          { call with phase := .replied error })
  | relays {a : Action} {relays : List RelaySession} (hquiet : Quiet s.relays relays)
      (hcall : ∀ (r : ℕ) relay', relays[r]? = some relay' → ∀ c ∈ relay'.call,
        ∃ relay, s.relays[r]? = some relay ∧ relay.call = some c) :
      Effect config s a { s with relays }
  | homes {a : Action} {h : ℕ} {home home' : HomeSession} (hhome : s.homes[h]? = some home)
      (hlater : home.Later home') : Effect config s a (s.setHome h home')
  | connects {a : Action} {homeId : String} : Effect config s a (s.connectHome homeId)
  | tears {h : ℕ} {home home' : HomeSession} {answer : HomeAnswer} {origin : Option ℕ}
      {record : PendingEnrollment} (hhome : s.homes[h]? = some home)
      (hrunning : home.running = true)
      (hrecord : s.pending.lookup answer.requestId = some record)
      (hwrong : record.homeId ≠ home.homeId ∨ record.installed ≠ answer.isInstalled)
      (hlater : home.Later { home' with torn := home.torn }) :
      Effect config s (.answer h answer origin) (s.setHome h home')
  | takes {h : ℕ} {home home' : HomeSession} {answer : HomeAnswer} {origin : Option ℕ}
      {record : PendingEnrollment} (hhome : s.homes[h]? = some home)
      (hrunning : home.running = true)
      (hrecord : s.pending.lookup answer.requestId = some record)
      (hid : record.homeId = home.homeId) (hinstalled : record.installed = answer.isInstalled)
      (hsaid : home'.said = home.said ++ [answer])
      (hcompleting : home'.completing = none ∨ home'.completing = some { record, answer, origin })
      (hlater : home.Later { home' with completing := none }) :
      Effect config s (.answer h answer origin) { s with
        pending := s.pending.erase answer.requestId
        calls := s.calls.modify record.forwardingId fun call =>
          { call with taken := some ⟨h, answer, origin⟩ }
        homes := s.homes.set h home' }
  | composes {a : Action} {h : ℕ} {home : HomeSession} {completion : Completion}
      (hhome : s.homes[h]? = some home) (hcompleting : home.completing = some completion) :
      Effect config s a (s.setHome h { home with completing := some { completion with
        message := some (completion.answer.forward completion.record.bootstrap s.directory) } })
  | forwards {a : Action} {h : ℕ} {home : HomeSession} {relay : RelaySession}
      {record : PendingEnrollment} {answer : HomeAnswer} {origin : Option ℕ} {message : Answer}
      (hhome : s.homes[h]? = some home)
      (hcompleting : home.completing = some ⟨record, answer, origin, some message⟩)
      (hrelay : s.relays[record.relay]? = some relay) :
      Effect config s a { (s.setRelay record.relay { relay with
          queue := relay.queue ++ [⟨record.forwardingId, true, message⟩] }).setHome h
            { home with completing := none } with
        calls := s.calls.modify record.forwardingId fun call =>
          { call with forwarded := some message } }
  | clears {a : Action} {homeId : String} :
      Effect config s a { s with senders := s.senders.erase homeId }
  | publishes {a : Action} {directory : List String} : Effect config s a { s with directory }
  | cleans {a : Action} :
      Effect config s a { s with
        pending := s.pending.retain fun _ record => s.now < record.expires }
  | ticks {a : Action} {now : ℕ} (h : s.now ≤ now) : Effect config s a { s with now }

namespace Effect

theorem of_submit {submission : Submission} (h : s.submit config r submission = some s') :
    Effect config s (.submit r submission) s' := by
  unfold Sys.submit at h
  cases hrelay : s.relays[r]? with
  | none => simp [hrelay] at h
  | some relay =>
    simp only [hrelay] at h
    split_ifs at h with hfree
    obtain rfl := Option.some.inj h
    exact .submits hrelay

theorem of_authorize {result : Except String Unit} (h : s.authorize c result = some s') :
    Effect config s (.authorize c result) s' := by
  unfold Sys.authorize at h
  cases hcall : s.calls[c]? with
  | none => simp [hcall] at h
  | some call =>
    simp only [hcall] at h
    by_cases hphase : call.phase = .started
    · rw [if_pos hphase] at h
      have hearly : call.phase.early = true := by rw [hphase]; rfl
      cases hcheck : call.submission.check with
      | error error =>
        simp only [hcheck] at h
        obtain rfl := Option.some.inj h
        exact .moves hcall (.refused hearly)
      | ok =>
        simp only [hcheck] at h
        by_cases hbootstrap : call.submission.isBootstrap = true
        · rw [if_pos hbootstrap] at h
          obtain rfl := Option.some.inj h
          exact .moves hcall (.authorized hphase)
        · rw [if_neg hbootstrap] at h
          cases result with
          | error error =>
            obtain rfl := Option.some.inj h
            exact .moves hcall (.refused hearly)
          | ok =>
            obtain rfl := Option.some.inj h
            exact .moves hcall (.authorized hphase)
    · rw [if_neg hphase] at h
      cases h

theorem of_locate (h : s.locate c = some s') : Effect config s (.locate c) s' := by
  unfold Sys.locate at h
  cases hcall : s.calls[c]? with
  | none => simp [hcall] at h
  | some call =>
    simp only [hcall] at h
    by_cases hphase : call.phase = .authorized
    · rw [if_pos hphase] at h
      cases hsender : s.senders.lookup call.submission.homeId with
      | none =>
        simp only [hsender] at h
        obtain rfl := Option.some.inj h
        exact .moves hcall (.refused (by rw [hphase]; rfl))
      | some home =>
        simp only [hsender] at h
        obtain rfl := Option.some.inj h
        exact .moves hcall (.located hphase hsender)
    · rw [if_neg hphase] at h
      cases h

theorem of_insert (h : s.insert config c = some s') : Effect config s (.insert c) s' := by
  unfold Sys.insert at h
  cases hcall : s.calls[c]? with
  | none => simp [hcall] at h
  | some call =>
    simp only [hcall] at h
    cases hrelay : s.relays[call.relay]? with
    | none => cases hphase : call.phase <;> simp [hphase, hrelay] at h
    | some relay =>
      cases hphase : call.phase with
      | located home =>
        have hearly : call.phase.early = true := by rw [hphase]; rfl
        simp only [hphase, hrelay] at h
        by_cases hfull : config.maxPendingWork ≤ s.pending.len
        · rw [if_pos hfull] at h
          obtain rfl := Option.some.inj h
          exact .moves hcall (.refused hearly)
        · rw [if_neg hfull] at h
          cases hlookup : s.pending.lookup call.submission.requestId with
          | some existing =>
            simp only [hlookup] at h
            obtain rfl := Option.some.inj h
            exact .moves hcall (.refused hearly)
          | none =>
            simp only [hlookup] at h
            obtain rfl := Option.some.inj h
            exact .inserts hcall hphase (by omega) hlookup
      | started | authorized | inserted _ | sending _ | failing _ | refused _ | replied _
      | delivered _ => simp [hphase] at h

theorem of_beginSend (h : s.beginSend c = some s') : Effect config s (.beginSend c) s' := by
  unfold Sys.beginSend at h
  cases hcall : s.calls[c]? with
  | none => simp [hcall] at h
  | some call =>
    simp only [hcall] at h
    cases hphase : call.phase with
    | inserted home =>
      simp only [hphase] at h
      split_ifs at h with hlate
      · obtain rfl := Option.some.inj h
        exact .moves hcall (.failing (.inl hphase))
      · obtain rfl := Option.some.inj h
        exact .moves hcall (.sending hphase)
    | started | authorized | located _ | sending _ | failing _ | refused _ | replied _
    | delivered _ => simp [hphase] at h

theorem of_deliver (h : s.deliver c = some s') : Effect config s (.deliver c) s' := by
  unfold Sys.deliver at h
  cases hcall : s.calls[c]? with
  | none => simp [hcall] at h
  | some call =>
    simp only [hcall] at h
    cases hphase : call.phase with
    | sending i =>
      simp only [hphase] at h
      cases hhome : s.homes[i]? with
      | none => simp [hhome] at h
      | some home =>
        cases hrelay : s.relays[call.relay]? with
        | none => simp [hhome, hrelay] at h
        | some relay =>
          simp only [hhome, hrelay] at h
          split_ifs at h with hroom
          obtain rfl := Option.some.inj h
          exact .delivers hcall hphase hhome hrelay
    | started | authorized | located _ | inserted _ | failing _ | refused _ | replied _
    | delivered _ => simp [hphase] at h

theorem of_sendFails (h : s.sendFails c = some s') : Effect config s (.sendFails c) s' := by
  unfold Sys.sendFails at h
  cases hcall : s.calls[c]? with
  | none => simp [hcall] at h
  | some call =>
    simp only [hcall] at h
    cases hphase : call.phase with
    | sending i =>
      simp only [hphase] at h
      cases hhome : s.homes[i]? with
      | none => simp [hhome] at h
      | some home =>
        simp only [hhome] at h
        obtain ⟨error, -, rfl⟩ := Option.map_eq_some_iff.mp h
        exact .moves hcall (.failing (.inr hphase))
    | started | authorized | located _ | inserted _ | failing _ | refused _ | replied _
    | delivered _ => simp [hphase] at h

theorem of_retire (h : s.retire c = some s') : Effect config s (.retire c) s' := by
  unfold Sys.retire at h
  cases hcall : s.calls[c]? with
  | none => simp [hcall] at h
  | some call =>
    simp only [hcall] at h
    cases hphase : call.phase with
    | failing error =>
      simp only [hphase] at h
      cases hlookup : s.pending.lookup call.submission.requestId with
      | none =>
        simp only [hlookup] at h
        obtain rfl := Option.some.inj h
        exact .moves hcall (.retired hphase (by simp [hlookup]))
      | some record =>
        simp only [hlookup] at h
        by_cases hown : record.forwardingId = c
        · rw [if_pos hown] at h
          obtain rfl := Option.some.inj h
          exact .retires hcall hphase hlookup hown
        · rw [if_neg hown] at h
          obtain rfl := Option.some.inj h
          refine .moves hcall (.retired hphase ?_)
          intro record' hrecord'
          rw [hlookup] at hrecord'
          rw [← Option.some.inj hrecord']
          exact hown
    | started | authorized | located _ | inserted _ | sending _ | refused _ | replied _
    | delivered _ => simp [hphase] at h

theorem of_reply (h : s.reply c = some s') : Effect config s (.reply c) s' := by
  unfold Sys.reply at h
  cases hcall : s.calls[c]? with
  | none => simp [hcall] at h
  | some call =>
    simp only [hcall] at h
    cases hrelay : s.relays[call.relay]? with
    | none => cases hphase : call.phase <;> simp [hphase, hrelay] at h
    | some relay =>
      cases hphase : call.phase with
      | refused error =>
        simp only [hphase, hrelay] at h
        split_ifs at h with hrunning
        obtain rfl := Option.some.inj h
        exact .replies hcall hphase hrelay
      | started | authorized | located _ | inserted _ | sending _ | failing _ | replied _
      | delivered _ => simp [hphase] at h

/-- A Relay session is replaced by one that has got no more, and runs the same call or none. -/
theorem of_setRelay {a : Action} (hrelay : s.relays[r]? = some relay)
    (hsub : relay'.answers.Sublist relay.answers) (hcall : ∀ c ∈ relay'.call, relay.call = some c) :
    Effect config s a (s.setRelay r relay') := by
  apply Effect.relays (Quiet.set hrelay hsub)
  intro i new hnew c hc
  rcases Cells.getElem?_set_cases hrelay hnew with ⟨rfl, rfl⟩ | ⟨-, hnew⟩
  · exact ⟨relay, hrelay, hcall c hc⟩
  · exact ⟨new, hnew, hc⟩

theorem of_write (h : s.write r = some s') : Effect config s (.write r) s' := by
  unfold Sys.write at h
  cases hrelay : s.relays[r]? with
  | none => simp [hrelay] at h
  | some relay =>
    simp only [hrelay] at h
    cases hqueue : relay.queue with
    | nil => simp [hqueue] at h
    | cons entry queue =>
      simp only [hqueue] at h
      split_ifs at h with hfree
      obtain rfl := Option.some.inj h
      apply of_setRelay hrelay
      · simp [RelaySession.answers, hqueue]
      · exact fun c hc => hc

theorem of_endRelay (h : s.endRelay r = some s') : Effect config s (.endRelay r) s' := by
  unfold Sys.endRelay at h
  cases hrelay : s.relays[r]? with
  | none => simp [hrelay] at h
  | some relay =>
    simp only [hrelay] at h
    split_ifs at h with hend
    obtain rfl := Option.some.inj h
    apply of_setRelay hrelay
    · simp [RelaySession.answers]
    · intro c hc
      cases hc

theorem of_connectRelay {a : Action} {relayId : String} :
    Effect config s a { s with relays := s.relays ++ [{ relayId }] } := by
  apply Effect.relays (Quiet.append rfl)
  intro i new hnew c hc
  rcases Cells.getElem?_append_cases hnew with ⟨-, rfl⟩ | ⟨-, hnew⟩
  · cases hc
  · exact ⟨new, hnew, hc⟩

theorem of_stopWriter (hstep : s.stopWriter h = some s') :
    Effect config s (.stopWriter h) s' := by
  unfold Sys.stopWriter at hstep
  cases hhome : s.homes[h]? with
  | none => simp [hhome] at hstep
  | some home =>
    simp only [hhome] at hstep
    obtain rfl := Option.some.inj hstep
    refine .homes hhome ⟨rfl, fun _ h => h, fun _ h => h, fun h => h, rfl, .inr rfl, ?_⟩
    intro c hc
    exact List.mem_append_left _ (by simpa using hc)

theorem of_receive (hstep : s.receive h = some s') : Effect config s (.receive h) s' := by
  unfold Sys.receive at hstep
  cases hhome : s.homes[h]? with
  | none => simp [hhome] at hstep
  | some home =>
    simp only [hhome] at hstep
    cases hqueue : home.queue with
    | nil => simp [hqueue] at hstep
    | cons c queue =>
      simp only [hqueue] at hstep
      obtain rfl := Option.some.inj hstep
      refine .homes hhome ⟨rfl, fun _ h => h, fun _ h => h, fun h => h, rfl, .inr rfl, ?_⟩
      intro c' hc'
      simpa [hqueue] using hc'

theorem of_endHome (hstep : s.endHome h = some s') : Effect config s (.endHome h) s' := by
  unfold Sys.endHome at hstep
  cases hhome : s.homes[h]? with
  | none => simp [hhome] at hstep
  | some home =>
    simp only [hhome] at hstep
    split_ifs at hstep with hend
    obtain rfl := Option.some.inj hstep
    refine .homes hhome ⟨rfl, fun _ h => h, fun _ h => h, fun _ => hend.1, rfl, .inr rfl, ?_⟩
    intro c hc
    exact List.mem_append_left _ (by simpa using hc)

theorem of_answer {answer : HomeAnswer} {origin : Option ℕ}
    (hstep : s.answer h answer origin = some s') :
    Effect config s (.answer h answer origin) s' := by
  unfold Sys.answer at hstep
  cases hhome : s.homes[h]? with
  | none => simp [hhome] at hstep
  | some home =>
    simp only [hhome] at hstep
    by_cases hfree : home.running = true ∧ home.completing = none
    · rw [if_pos hfree] at hstep
      have hsaid : ∀ a ∈ home.said, a ∈ home.said ++ [answer] :=
        fun a ha => List.mem_append_left _ ha
      have hanswered : ∀ c ∈ home.answered, c ∈ home.answered ++ origin.toList :=
        fun c hc => List.mem_append_left _ hc
      cases hlookup : s.pending.lookup answer.requestId with
      | none =>
        simp only [hlookup] at hstep
        obtain rfl := Option.some.inj hstep
        exact .homes hhome ⟨rfl, hsaid, hanswered, fun h => h, rfl, .inr rfl, fun _ h => h⟩
      | some record =>
        simp only [hlookup] at hstep
        by_cases hwrong : record.homeId ≠ home.homeId ∨ record.installed ≠ answer.isInstalled
        · rw [if_pos hwrong] at hstep
          obtain rfl := Option.some.inj hstep
          refine .tears hhome hfree.1 hlookup hwrong
            ⟨rfl, hsaid, hanswered, fun _ => hfree.1, rfl, .inr rfl, ?_⟩
          intro c hc
          exact List.mem_append_left _ (by simpa using hc)
        · rw [if_neg hwrong] at hstep
          have hright : record.homeId = home.homeId ∧ record.installed = answer.isInstalled := by
            obtain ⟨hid, hinstalled⟩ := not_or.mp hwrong
            exact ⟨not_not.mp hid, not_not.mp hinstalled⟩
          split_ifs at hstep with hlate
          · obtain rfl := Option.some.inj hstep
            exact .takes hhome hfree.1 hlookup hright.1 hright.2 rfl (.inl hfree.2)
              ⟨rfl, hsaid, hanswered, fun h => h, rfl, .inl rfl, fun _ h => h⟩
          · obtain rfl := Option.some.inj hstep
            exact .takes hhome hfree.1 hlookup hright.1 hright.2 rfl (.inr rfl)
              ⟨rfl, hsaid, hanswered, fun h => h, rfl, .inl rfl, fun _ h => h⟩
    · rw [if_neg hfree] at hstep
      cases hstep

theorem of_release {a : Action} (hhome : s.homes[h]? = some home) :
    Effect config s a (s.setHome h { home with completing := none }) :=
  .homes hhome ⟨rfl, fun _ h => h, fun _ h => h, fun h => h, rfl, .inl rfl, fun _ h => h⟩

theorem of_compose (hstep : s.compose h = some s') : Effect config s (.compose h) s' := by
  unfold Sys.compose at hstep
  cases hhome : s.homes[h]? with
  | none => simp [hhome] at hstep
  | some home =>
    simp only [hhome] at hstep
    cases hcompleting : home.completing with
    | none => simp [hcompleting] at hstep
    | some completion =>
      simp only [hcompleting] at hstep
      split_ifs at hstep with hmade hlate
      · obtain rfl := Option.some.inj hstep
        exact of_release hhome
      · obtain rfl := Option.some.inj hstep
        exact .composes hhome hcompleting

theorem of_forward (hstep : s.forward h = some s') : Effect config s (.forward h) s' := by
  unfold Sys.forward at hstep
  cases hhome : s.homes[h]? with
  | none => simp [hhome] at hstep
  | some home =>
    simp only [hhome] at hstep
    cases hcompleting : home.completing with
    | none => simp [hcompleting] at hstep
    | some completion =>
      obtain ⟨record, answer, origin, message⟩ := completion
      cases message with
      | none => simp [hcompleting] at hstep
      | some message =>
        simp only [hcompleting] at hstep
        cases hrelay : s.relays[record.relay]? with
        | none => simp [hrelay] at hstep
        | some relay =>
          simp only [hrelay] at hstep
          split_ifs at hstep with hroom
          obtain rfl := Option.some.inj hstep
          exact .forwards hhome hcompleting hrelay

theorem of_forwardFails (hstep : s.forwardFails h = some s') :
    Effect config s (.forwardFails h) s' := by
  unfold Sys.forwardFails at hstep
  cases hhome : s.homes[h]? with
  | none => simp [hhome] at hstep
  | some home =>
    simp only [hhome] at hstep
    cases hcompleting : home.completing with
    | none => simp [hcompleting] at hstep
    | some completion =>
      obtain ⟨record, answer, origin, message⟩ := completion
      cases message with
      | none => simp [hcompleting] at hstep
      | some message =>
        simp only [hcompleting] at hstep
        cases hrelay : s.relays[record.relay]? with
        | none => simp [hrelay] at hstep
        | some relay =>
          simp only [hrelay] at hstep
          split_ifs at hstep with hfails
          obtain rfl := Option.some.inj hstep
          exact of_release hhome

theorem of_clearHome (hstep : s.clearHome h = some s') : Effect config s (.clearHome h) s' := by
  unfold Sys.clearHome at hstep
  cases hhome : s.homes[h]? with
  | none => simp [hhome] at hstep
  | some home =>
    simp only [hhome] at hstep
    split_ifs at hstep with hcurrent
    obtain rfl := Option.some.inj hstep
    exact .clears

theorem of_step {a : Action} (h : s.step config a = some s') : Effect config s a s' := by
  cases a with
  | connectRelay relayId =>
    obtain rfl := Option.some.inj h
    exact of_connectRelay
  | submit r submission => exact of_submit h
  | authorize c result => exact of_authorize h
  | locate c => exact of_locate h
  | insert c => exact of_insert h
  | beginSend c => exact of_beginSend h
  | deliver c => exact of_deliver h
  | sendFails c => exact of_sendFails h
  | retire c => exact of_retire h
  | reply c => exact of_reply h
  | write r => exact of_write h
  | endRelay r => exact of_endRelay h
  | connectHome homeId =>
    obtain rfl := Option.some.inj h
    exact .connects
  | stopWriter i => exact of_stopWriter h
  | receive i => exact of_receive h
  | answer i answer origin => exact of_answer h
  | compose i => exact of_compose h
  | forward i => exact of_forward h
  | forwardFails i => exact of_forwardFails h
  | endHome i => exact of_endHome h
  | clearHome i => exact of_clearHome h
  | publish directory =>
    obtain rfl := Option.some.inj h
    exact .publishes
  | cleanup =>
    obtain rfl := Option.some.inj h
    exact .cleans
  | tick now =>
    simp only [Sys.step] at h
    split_ifs at h with hback
    obtain rfl := Option.some.inj h
    exact .ticks (by omega)

end Effect

end FlowSplice.Server.Enrollments
