import Mathlib.Data.List.Sort
import FlowSplice.Lib.Keyed
import FlowSplice.Lib.Machine
import FlowSplice.Issuance.Validation

/-! The enrollment outbox of a Travel and the messages of its control session that concern it:
`run_catalog_session`, `poll_remote_enrollment` and what they call in
`flowsplice-travel-core/src/lib.rs`, with the creation and the installation of enrollments. The
files of an enrollment are left out. -/
namespace FlowSplice.EnrollmentOutbox

def remoteEnrollmentVersion : ℕ := 1
def maxRemoteEnrollmentOutboxRecords : ℕ := 64
def remoteEnrollmentInstalledRetentionSecs : ℕ := 24 * 60 * 60

structure RemoteEnrollmentOutboxRecord where
  version : ℕ := remoteEnrollmentVersion
  homeId : String
  request : TravelEnrollmentRequest
  response : Option TravelEnrollmentResponse := none
  createdAtUnixSecs : ℕ
  lastAttemptUnixSecs : Option ℕ := none
  restartRequired : Bool := false
  installedCredentialId : Option Uuid := none
  installedAtUnixSecs : Option ℕ := none
deriving DecidableEq, Repr

inductive ControlMessage where
  | travelEnrollmentSubmit (requestId : Uuid) (travelId : String) (travelSessionId : Uuid)
      (homeId : String) (requestJson : List UInt8)
  | remoteEnrollmentInstalled (requestId : Uuid) (travelId : String) (travelSessionId : Uuid)
      (credentialId : Uuid) (homeId : String)
  | remoteEnrollmentResult (requestId : Uuid) (accepted : Bool) (responseJson : Option (List UInt8))
      (error : Option String)
  | remoteEnrollmentInstalledAck (requestId : Uuid) (accepted : Bool) (error : Option String)
deriving DecidableEq, Repr

def ControlMessage.requestId : ControlMessage → Uuid
  | .travelEnrollmentSubmit requestId _ _ _ _ => requestId
  | .remoteEnrollmentInstalled requestId _ _ _ _ => requestId
  | .remoteEnrollmentResult requestId _ _ _ => requestId
  | .remoteEnrollmentInstalledAck requestId _ _ => requestId

/-- What the Travel is configured with, how it reads JSON and PEM, and the one response that the
Home gives to a request. An enrollment response has one certificate where `identity_from_certificate_pem`
takes the first. -/
structure Env where
  codec : EnrollmentCodec
  deploymentRootPublicKey : String
  travelId : String
  firstCertificate : (pem : String) → Option String
  firstCertificate_eq : ∀ pem certificate, codec.certificate pem = some certificate →
    firstCertificate pem = some certificate
  encode : TravelEnrollmentRequest → List UInt8
  decode : List UInt8 → Option TravelEnrollmentResponse
  answer : TravelEnrollmentRequest → Option TravelEnrollmentResponse
  answer_request : ∀ request response, answer request = some response →
    response.approval.request = request

/-- What changes with a restart: the identity in use and the session id. -/
structure Process where
  managementSpkiSha256 : String
  sessionId : Uuid
deriving DecidableEq, Repr

def Env.identityFromCertificatePem (env : Env) (pem : String) : Option PeerIdentity :=
  (env.firstCertificate pem).bind env.codec.peerIdentity

def Env.validate (env : Env) (response : TravelEnrollmentResponse) (now : ℕ) :
    Option (TravelCredential × DeploymentTrust) :=
  validateEnrollmentResponse env.codec response env.deploymentRootPublicKey now

def remoteEnrollmentOutboxExpired (createdAtUnixSecs : ℕ) (installedAtUnixSecs : Option ℕ)
    (now : ℕ) : Bool :=
  match installedAtUnixSecs with
  | none => decide (maxRequestAgeSecs ≤ now - createdAtUnixSecs)
  | some installedAt => decide (remoteEnrollmentInstalledRetentionSecs ≤ now - installedAt)

def remoteEnrollmentCapacityAvailable (current maximum : ℕ) : Bool := decide (current < maximum)

namespace RemoteEnrollmentOutboxRecord

def expired (record : RemoteEnrollmentOutboxRecord) (now : ℕ) : Bool :=
  remoteEnrollmentOutboxExpired record.createdAtUnixSecs record.installedAtUnixSecs now

def attempted (record : RemoteEnrollmentOutboxRecord) (now : ℕ) : Bool :=
  record.lastAttemptUnixSecs.any fun attempt => decide (now - attempt < 10)

/-- The message a record waits to send, if any. No answer at all is a certificate without an
identity. -/
def message (env : Env) (process : Process) (record : RemoteEnrollmentOutboxRecord) :
    Option (Option ControlMessage) :=
  match record.response, record.installedCredentialId with
  | some response, some credentialId => do
    let identity ← env.identityFromCertificatePem response.managementCertificatePem
    if identity.spkiSha256 ≠ process.managementSpkiSha256 then return none
    else return some (.remoteEnrollmentInstalled record.request.requestId env.travelId
      process.sessionId credentialId record.homeId)
  | none, _ =>
    if record.restartRequired then return none
    else return some (.travelEnrollmentSubmit record.request.requestId env.travelId
      process.sessionId record.homeId (env.encode record.request))
  | some _, none => return none

end RemoteEnrollmentOutboxRecord

/-- The stored rows. A malformed one is `none`. -/
abbrev Outbox := Table Uuid (Option RemoteEnrollmentOutboxRecord)

namespace Outbox

def get (outbox : Outbox) (requestId : Uuid) : Option RemoteEnrollmentOutboxRecord :=
  (outbox.lookup requestId).join

/-- `scan_prefix` of the whole table, in the order of the keys. -/
def scan (outbox : Outbox) : List (Sigma fun _ : Uuid => Option RemoteEnrollmentOutboxRecord) :=
  outbox.entries.insertionSort fun left right => left.1 ≤ right.1

/-- `prune_remote_enrollment_outbox`. -/
def prune (outbox : Outbox) (now : ℕ) : Outbox :=
  outbox.retain fun _ row => row.all fun record => !record.expired now

end Outbox

/-- What the loop over the rows has found. -/
structure Scan where
  batch : List (Uuid × Option (Option RemoteEnrollmentOutboxRecord)) := []
  pending : Bool := false
  selected : Option (Uuid × ControlMessage) := none

structure EnrollmentOutboxPoll where
  message : Option (Uuid × ControlMessage)
  pending : Bool

def Scan.visit (env : Env) (process : Process) (now : ℕ) (scan : Scan)
    (row : Sigma fun _ : Uuid => Option RemoteEnrollmentOutboxRecord) : Option Scan :=
  match row.2 with
  | none => some scan
  | some record =>
    if record.expired now then some { scan with batch := scan.batch ++ [(row.1, none)] }
    else if record.version ≠ remoteEnrollmentVersion then some scan
    else do
      match ← record.message env process with
      | none => return scan
      | some message =>
        if scan.selected.isSome || record.attempted now then return { scan with pending := true }
        else return {
          batch := scan.batch ++ [(row.1, some (some { record with lastAttemptUnixSecs := some now }))]
          pending := true
          selected := some (record.request.requestId, message) }

def nextRemoteEnrollmentMessage (env : Env) (process : Process) (outbox : Outbox) (now : ℕ) :
    Option (Outbox × EnrollmentOutboxPoll) := do
  let scan ← outbox.scan.foldlM (Scan.visit env process now) {}
  return (outbox.writeAll scan.batch, ⟨scan.selected, scan.pending⟩)

def enrollmentOutboxScanNeeded (knownPending : Bool) (currentGeneration checkedGeneration : ℕ)
    (inFlight : Bool) : Bool :=
  !inFlight && (knownPending || currentGeneration != checkedGeneration)

/-- The answer tells whether the outbox is marked as changed. -/
def applyRemoteEnrollmentResult (env : Env) (outbox : Outbox) (requestId : Uuid) (accepted : Bool)
    (responseJson : Option (List UInt8)) (now : ℕ) : Option (Outbox × Bool) :=
  if !accepted then some (outbox, false)
  else match responseJson with
  | none => some (outbox, false)
  | some responseJson => do
    let response ← env.decode responseJson
    ensure (response.approval.request.requestId == requestId)
    let _ ← env.validate response now
    let record ← outbox.get requestId
    ensure (record.request == response.approval.request)
    match record.response with
    | some existing =>
      ensure (existing == response)
      return (outbox, true)
    | none => return (outbox.insert requestId (some { record with response := some response }), true)

def acknowledgeRemoteEnrollmentInstall (outbox : Outbox) (requestId : Uuid) :
    Option (Outbox × Bool) := do
  let record ← outbox.get requestId
  ensure record.installedCredentialId.isSome
  return (outbox.erase requestId, true)

/-- The arms of `run_catalog_session` for enrollment messages. -/
def receive (env : Env) (outbox : Outbox) (now : ℕ) : ControlMessage → Option (Outbox × Bool)
  | .remoteEnrollmentResult requestId accepted responseJson _ =>
    applyRemoteEnrollmentResult env outbox requestId accepted responseJson now
  | .remoteEnrollmentInstalledAck requestId accepted _ =>
    if accepted then acknowledgeRemoteEnrollmentInstall outbox requestId else some (outbox, false)
  | _ => none

/-- The variables of a session. Instants are in milliseconds. -/
structure Session where
  inFlight : Option (Uuid × ℕ) := none
  pending : Bool
  checkedGeneration : ℕ := 0
deriving DecidableEq, Repr

/-- The start of `poll_remote_enrollment`, which gives up an answer after thirty seconds. -/
def Session.timeout (session : Session) (instant : ℕ) : Session :=
  { session with
    inFlight := session.inFlight.filter fun inFlight => decide (instant - inFlight.2 ≤ 30 * 1000) }

/-- A poll goes on to scan the outbox. -/
def Session.scans (session : Session) (generation : ℕ) : Bool :=
  enrollmentOutboxScanNeeded session.pending generation session.checkedGeneration
    session.inFlight.isSome

structure Delivery where
  message : ControlMessage
  before : Outbox
  after : Outbox

/-- A Travel with what it has sent, what was delivered to it, whether a session ended over that, and
which record was sent while which other one waited. An installation holds the record it has read. -/
structure Sys where
  outbox : Outbox
  process : Process
  generation : ℕ
  session : Option Session := none
  installing : Option (Uuid × RemoteEnrollmentOutboxRecord) := none
  submitted : List TravelEnrollmentRequest
  confirmed : List Uuid
  ended : Bool := false
  delivered : List Delivery := []
  passed : List (Uuid × Uuid) := []
  overtaken : Bool := false

inductive Action where
  | restart (process : Process)
  | connect
  | disconnect
  | deliver (message : ControlMessage) (now : ℕ)
  | tick (instant now : ℕ)
  | create (request : TravelEnrollmentRequest) (homeId : String) (now : ℕ)
  | installRead (requestId : Uuid)
  | installWrite (ok : Bool) (now installedAt : ℕ)
deriving DecidableEq, Repr

/-- The record is to be sent now. -/
def RemoteEnrollmentOutboxRecord.due (env : Env) (process : Process) (now : ℕ)
    (record : RemoteEnrollmentOutboxRecord) : Bool :=
  !record.expired now && record.version == remoteEnrollmentVersion &&
    (record.message env process).join.isSome && !record.attempted now

/-- The records that are to be sent now, in the order of the scan. -/
def dueRecords (env : Env) (process : Process) (now : ℕ)
    (rows : List (Sigma fun _ : Uuid => Option RemoteEnrollmentOutboxRecord)) :
    List (Uuid × RemoteEnrollmentOutboxRecord) :=
  rows.filterMap fun row => (row.2.filter (·.due env process now)).map (row.1, ·)

namespace Sys

def due (env : Env) (s : Sys) (now : ℕ) : List (Uuid × RemoteEnrollmentOutboxRecord) :=
  dueRecords env s.process now s.outbox.scan

/-- `has_enrollment_outbox_work` of a new process. -/
def initialGeneration (outbox : Outbox) : ℕ := if outbox.entries.isEmpty then 0 else 1

def restart (s : Sys) (process : Process) : Sys :=
  { s with
    process
    generation := initialGeneration s.outbox
    session := none
    installing := none }

def connect (s : Sys) : Option Sys :=
  match s.session with
  | some _ => none
  | none => some { s with session := some { pending := s.generation != 0 } }

def disconnect (s : Sys) : Option Sys := s.session.map fun _ => { s with session := none }

/-- An error of an enrollment message or of a poll. -/
def fail (s : Sys) : Sys := { s with session := none, ended := true }

def deliver (env : Env) (s : Sys) (message : ControlMessage) (now : ℕ) : Option Sys :=
  s.session.map fun session =>
    match receive env s.outbox now message with
    | none => { s.fail with delivered := s.delivered ++ [⟨message, s.outbox, s.outbox⟩] }
    | some (outbox, changed) =>
      { s with
        outbox
        generation := s.generation + changed.toNat
        session := some { session with
          inFlight := session.inFlight.filter fun inFlight => inFlight.1 != message.requestId }
        delivered := s.delivered ++ [⟨message, s.outbox, outbox⟩] }

/-- What is noted of a message that is sent for the first of the records that are due. -/
def note (s : Sys) (message : ControlMessage) (first : Uuid × RemoteEnrollmentOutboxRecord)
    (rest : List (Uuid × RemoteEnrollmentOutboxRecord)) : Sys :=
  let waiting := rest.map Prod.fst
  { s with
    submitted := match message with
      | .travelEnrollmentSubmit .. => first.2.request :: s.submitted
      | _ => s.submitted
    confirmed := match message with
      | .remoteEnrollmentInstalled .. => first.1 :: s.confirmed
      | _ => s.confirmed
    passed := (s.passed.filter fun pair => waiting.contains pair.1) ++ waiting.map (·, first.1)
    overtaken := s.overtaken || (first.2.lastAttemptUnixSecs.isSome &&
      waiting.any fun key => s.passed.contains (key, first.1)) }

/-- `poll_remote_enrollment`. -/
def poll (env : Env) (s : Sys) (session : Session) (instant now : ℕ) : Sys :=
  let session := session.timeout instant
  if !session.scans s.generation then { s with session := some session }
  else match nextRemoteEnrollmentMessage env s.process s.outbox now with
  | none => s.fail
  | some (outbox, poll) =>
    let session := { session with
      pending := poll.pending
      checkedGeneration := if poll.pending then session.checkedGeneration else s.generation }
    match poll.message, s.due env now with
    | some (requestId, message), first :: rest =>
      { s.note message first rest with
        outbox
        session := some { session with inFlight := some (requestId, instant) } }
    | _, _ => { s with outbox, session := some session }

/-- `create_remote_enrollment`, whose request id is new. -/
def create (s : Sys) (request : TravelEnrollmentRequest) (homeId : String) (now : ℕ) : Option Sys :=
  if s.installing.isSome ∨ request.requestId ∈ s.outbox ∨ request.requestId ∈ s.confirmed ∨
      request.requestId ∈ s.submitted.map (·.requestId) then none
  else
    let outbox := s.outbox.prune now
    if remoteEnrollmentCapacityAvailable outbox.len maxRemoteEnrollmentOutboxRecords then
      some { s with
        outbox := outbox.insert request.requestId (some { homeId, request, createdAtUnixSecs := now })
        generation := s.generation + 1 }
    else some { s with outbox }

/-- `install_remote_enrollment` reads the record. -/
def installRead (s : Sys) (requestId : Uuid) : Option Sys :=
  if s.installing.isSome then none
  else some { s with
    installing := ((s.outbox.get requestId).filter (·.response.isSome)).map (requestId, ·) }

/-- It writes what it has installed from the record. -/
def installWrite (env : Env) (s : Sys) (ok : Bool) (now installedAt : ℕ) : Option Sys :=
  s.installing.map fun (requestId, record) =>
    match (record.response.bind (env.validate · now)).filter fun _ => ok with
    | none => { s with installing := none }
    | some (credential, _) =>
      { s with
        outbox := s.outbox.insert requestId (some { record with
          restartRequired := true
          installedCredentialId := some credential.credentialId
          installedAtUnixSecs := some installedAt
          lastAttemptUnixSecs := none })
        generation := s.generation + 1
        installing := none }

def step (env : Env) (s : Sys) : Action → Option Sys
  | .restart process => some (s.restart process)
  | .connect => s.connect
  | .disconnect => s.disconnect
  | .deliver message now => s.deliver env message now
  | .tick instant now => s.session.map fun session => s.poll env session instant now
  | .create request homeId now => s.create request homeId now
  | .installRead requestId => s.installRead requestId
  | .installWrite ok now installedAt => s.installWrite env ok now installedAt

/-- What an honest Server delivers: results of requests that were submitted, with the response of
the Home, and acknowledgements of installations that were confirmed. -/
def honest (env : Env) (s : Sys) : Action → Bool
  | .deliver (.remoteEnrollmentResult requestId accepted responseJson _) _ =>
    s.submitted.any fun request => request.requestId == requestId &&
      (!accepted || responseJson.all fun responseJson =>
        (env.decode responseJson).isSome && env.decode responseJson == env.answer request)
  | .deliver (.remoteEnrollmentInstalledAck requestId _ _) _ => s.confirmed.contains requestId
  | .deliver _ _ => false
  | _ => true

/-- A record that is sent again leaves behind none that was due already when it was sent before, or
that has never been sent and has waited since. -/
def inOrder (s : Sys) : List (Uuid × RemoteEnrollmentOutboxRecord) → Bool
  | [] => true
  | first :: rest => first.2.lastAttemptUnixSecs.all fun attempt =>
      rest.all fun other => match other.2.lastAttemptUnixSecs with
        | some attempt' => decide (attempt < attempt' + 10)
        | none => !s.passed.contains (other.1, first.1)

/-- An accepted acknowledgement of the installation was delivered. -/
def acknowledged (s : Sys) (requestId : Uuid) : Bool :=
  s.delivered.any fun delivery => match delivery.message with
    | .remoteEnrollmentInstalledAck acknowledged accepted _ => acknowledged == requestId && accepted
    | _ => false

/-- A response or an accepted acknowledgement finds the record, and the response is valid; polls go
in order; and an installation writes no record that was acknowledged. -/
def timely (env : Env) (s : Sys) : Action → Bool
  | .deliver (.remoteEnrollmentResult requestId true (some responseJson) _) now =>
    (s.outbox.get requestId).isSome &&
      (env.decode responseJson).any fun response => (env.validate response now).isSome
  | .deliver (.remoteEnrollmentInstalledAck requestId true _) _ => (s.outbox.get requestId).isSome
  | .tick instant now =>
    s.session.all fun session =>
      !(session.timeout instant).scans s.generation || s.inOrder (s.due env now)
  | .installWrite true _ _ => s.installing.all fun (requestId, _) => !s.acknowledged requestId
  | _ => true

end Sys

/-- A process that begins with this outbox, after these requests and confirmations were sent. -/
def machine (env : Env) (process : Process) (outbox : Outbox)
    (submitted : List TravelEnrollmentRequest) (confirmed : List Uuid) : Machine Sys Action where
  start := { outbox, process, submitted, confirmed, generation := Sys.initialGeneration outbox }
  step := Sys.step env

end FlowSplice.EnrollmentOutbox
