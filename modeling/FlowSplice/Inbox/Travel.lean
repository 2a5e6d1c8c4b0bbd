import Mathlib.Data.List.Chain
import FlowSplice.Lib.Machine
import FlowSplice.Lib.Slots
import FlowSplice.Issuance.Publish

/-! The inbox of a Home for the enrollment requests of Travels, at one request id: what
`homeagent/src/main.rs` reads and writes of its record, with each store access a step of its own.
What the operations answer is left out. -/
namespace FlowSplice.Inbox

def remoteEnrollmentVersion : ℕ := 1
def maxRemoteEnrollmentInboxRecords : ℕ := 1024
def remoteEnrollmentPendingRetentionSecs : ℕ := 7 * 24 * 60 * 60
def remoteEnrollmentInstalledRetentionSecs : ℕ := 24 * 60 * 60

structure RemoteEnrollmentInboxRecord where
  version : ℕ := remoteEnrollmentVersion
  travelId : String
  homeId : String
  receivedAtUnixSecs : ℕ
  request : TravelRequestEnvelope
  response : Option TravelResponseEnvelope := none
  bootstrapTokenSha256 : Option String := none
  verificationCode : Option String := none
  installedCredentialId : Option Uuid := none
  installedAtUnixSecs : Option ℕ := none
deriving DecidableEq, Repr

/-- `remote_enrollment_inbox_expired`. -/
def remoteEnrollmentInboxExpired (receivedAtUnixSecs : ℕ) (installedAtUnixSecs : Option ℕ)
    (now : ℕ) : Bool :=
  match installedAtUnixSecs with
  | none => decide (remoteEnrollmentPendingRetentionSecs ≤ now - receivedAtUnixSecs)
  | some installedAt => decide (remoteEnrollmentInstalledRetentionSecs ≤ now - installedAt)

/-- `remote_enrollment_capacity_available`. -/
def remoteEnrollmentCapacityAvailable (current maximum : ℕ) : Bool := decide (current < maximum)

/-- What the Home takes from elsewhere: its id, how JSON is read, which requests are valid at a
time (the checks of the request itself and of the issuer it needs), and digests. -/
structure Env where
  id : String
  decode : List UInt8 → Option TravelRequestEnvelope
  valid : TravelRequestEnvelope → ℕ → Bool
  sha256 : List UInt8 → String
  bootstrapVerificationCode : (requestJson token : List UInt8) → String

/-- The arguments of `persist_remote_enrollment_request`, without the request id. -/
structure Submission where
  travelId : String
  homeId : String
  requestJson : List UInt8
  bootstrapToken : Option (List UInt8) := none
deriving DecidableEq, Repr

/-- The checks of `persist_remote_enrollment_request` before it comes to the store. -/
def Submission.check (env : Env) (requestId : Uuid) (submission : Submission) (now : ℕ) :
    Option TravelRequestEnvelope :=
  if requestId = 0 ∨ submission.requestJson = [] ∨
      512 * 1024 < submission.requestJson.length then none
  else if submission.homeId ≠ env.id then none
  else
    (env.decode submission.requestJson).filter fun request =>
      request.request.requestId == requestId && request.request.travelId == submission.travelId &&
        submission.bootstrapToken.all (·.length == 32) && env.valid request now

/-- The record that a submission puts. -/
def Submission.record (env : Env) (submission : Submission) (request : TravelRequestEnvelope)
    (now : ℕ) : RemoteEnrollmentInboxRecord where
  travelId := submission.travelId
  homeId := submission.homeId
  receivedAtUnixSecs := now
  request := request
  bootstrapTokenSha256 := submission.bootstrapToken.map env.sha256
  verificationCode :=
    submission.bootstrapToken.map (env.bootstrapVerificationCode submission.requestJson)

namespace RemoteEnrollmentInboxRecord

def expired (record : RemoteEnrollmentInboxRecord) (now : ℕ) : Bool :=
  remoteEnrollmentInboxExpired record.receivedAtUnixSecs record.installedAtUnixSecs now

/-- The record that `approve_remote_enrollment` writes. -/
def approve (record : RemoteEnrollmentInboxRecord) (enrollment : TravelResponseEnvelope) :
    RemoteEnrollmentInboxRecord :=
  { record with response := some enrollment }

/-- The record that `acknowledge_remote_enrollment_installed` writes, if any. -/
def acknowledge (env : Env) (requestId : Uuid) (record : RemoteEnrollmentInboxRecord)
    (travelId : String) (credentialId : Uuid) (homeId : String) (now : ℕ) :
    Option RemoteEnrollmentInboxRecord :=
  if homeId ≠ env.id ∨ record.travelId ≠ travelId ∨ record.homeId ≠ homeId then none
  else if record.installedCredentialId.isSome then none
  else
    match record.response with
    | none => none
    | some response =>
      let approval := response.response.approval
      if approval.request.requestId ≠ requestId ∨ approval.request.travelId ≠ travelId ∨
          approval.credentialId ≠ credentialId then none
      else some { record with
        response := none
        verificationCode := none
        installedCredentialId := some credentialId
        installedAtUnixSecs := some now }

/-- Pending, approved, installed. -/
def stage (record : RemoteEnrollmentInboxRecord) : ℕ :=
  if record.installedCredentialId.isSome then 3 else if record.response.isSome then 2 else 1

end RemoteEnrollmentInboxRecord

/-- What an operation writes its record for. -/
inductive Cause where
  | submission
  | approval
  | acknowledgement
deriving DecidableEq, Repr

/-- Where an operation is between two accesses of the store. -/
inductive Op where
  | pruning (expired : Bool) (next : Option (Submission × TravelRequestEnvelope × ℕ))
  | reading (submission : Submission) (request : TravelRequestEnvelope) (now : ℕ)
  | counting (record : RemoteEnrollmentInboxRecord)
  | approving (copy : RemoteEnrollmentInboxRecord)
  | writing (cause : Cause) (record : RemoteEnrollmentInboxRecord)
deriving DecidableEq, Repr

/-- An operation, and how often the record had been pruned when it was read. -/
structure Pending where
  op : Op
  since : ℕ
deriving DecidableEq, Repr

/-- The durable record, with the values it had and whether an operation that had read the record
before it was pruned has written it since. -/
structure Sys where
  record : Option RemoteEnrollmentInboxRecord
  pruned : ℕ := 0
  ops : Slots Pending := {}
  past : List (Option RemoteEnrollmentInboxRecord)
  revived : Bool := false
deriving DecidableEq, Repr

inductive Action where
  | submit (submission : Submission) (validated now : ℕ)
  | tick (now : ℕ)
  | delete (i : ℕ) (ok : Bool)
  | get (i : ℕ)
  | count (i records : ℕ)
  | approve
  | issue (i : ℕ) (issued : Option TravelResponseEnvelope)
  | acknowledge (travelId : String) (credentialId : Uuid) (homeId : String) (now : ℕ)
  | write (i : ℕ) (ok : Bool)
  | drop (i : ℕ)
deriving DecidableEq, Repr

namespace Sys

def spawn (s : Sys) (op : Op) : Sys := { s with ops := s.ops.push ⟨op, s.pruned⟩ }

/-- Operation `i` goes on to `op`, or ends. -/
def goOn (s : Sys) (i : ℕ) (op : Option Pending) : Sys := { s with ops := s.ops.set i op }

/-- The first access of `prune_remote_enrollment_inbox_store`, alone or in a submission. -/
def scan (s : Sys) (next : Option (Submission × TravelRequestEnvelope × ℕ)) (now : ℕ) : Sys :=
  s.spawn (.pruning (s.record.any (·.expired now)) next)

def store (s : Sys) (record : Option RemoteEnrollmentInboxRecord) : Sys :=
  { s with record, past := s.past ++ [record] }

def submit (env : Env) (requestId : Uuid) (s : Sys) (submission : Submission)
    (validated now : ℕ) : Sys :=
  match submission.check env requestId validated with
  | none => s
  | some request => s.scan (some (submission, request, now)) now

/-- The batch of a prune, which goes on with its submission. -/
def delete (s : Sys) (i : ℕ) (ok : Bool) : Option Sys :=
  match s.ops.get i with
  | some ⟨.pruning expired next, since⟩ =>
    let after := next.map fun (submission, request, now) =>
      Pending.mk (.reading submission request now) since
    if !ok then some (s.goOn i none)
    else if expired && s.record.isSome then
      some ({ s.store none with pruned := s.pruned + 1 }.goOn i after)
    else some (s.goOn i after)
  | _ => none

def get (env : Env) (s : Sys) (i : ℕ) : Option Sys :=
  match s.ops.get i with
  | some ⟨.reading submission request now, _⟩ =>
    if s.record.isSome then some (s.goOn i none)
    else some (s.goOn i (some ⟨.counting (submission.record env request now), s.pruned⟩))
  | _ => none

def count (s : Sys) (i records : ℕ) : Option Sys :=
  match s.ops.get i with
  | some ⟨.counting record, since⟩ =>
    if remoteEnrollmentCapacityAvailable records maxRemoteEnrollmentInboxRecords then
      some (s.goOn i (some ⟨.writing .submission record, since⟩))
    else some (s.goOn i none)
  | _ => none

/-- `approve_remote_enrollment` reads the record. -/
def approve (env : Env) (s : Sys) : Sys :=
  match s.record with
  | none => s
  | some record =>
    if record.travelId ≠ record.request.request.travelId ∨ record.homeId ≠ env.id then s
    else s.spawn (.approving record)

/-- `issue_from_home_with_password` answers. -/
def issue (s : Sys) (i : ℕ) (issued : Option TravelResponseEnvelope) : Option Sys :=
  match s.ops.get i with
  | some ⟨.approving copy, since⟩ =>
    some (s.goOn i (issued.map fun enrollment =>
      ⟨.writing .approval (copy.approve enrollment), since⟩))
  | _ => none

def acknowledge (env : Env) (requestId : Uuid) (s : Sys) (travelId : String)
    (credentialId : Uuid) (homeId : String) (now : ℕ) : Sys :=
  match s.record.bind (·.acknowledge env requestId travelId credentialId homeId now) with
  | none => s
  | some updated => s.spawn (.writing .acknowledgement updated)

def write (s : Sys) (i : ℕ) (ok : Bool) : Option Sys :=
  match s.ops.get i with
  | some ⟨.writing _ record, since⟩ =>
    if ok then
      some ({ s.store (some record) with
        revived := s.revived || since != s.pruned }.goOn i none)
    else some (s.goOn i none)
  | _ => none

def step (env : Env) (requestId : Uuid) (s : Sys) : Action → Option Sys
  | .submit submission validated now => some (s.submit env requestId submission validated now)
  | .tick now => some (s.scan none now)
  | .delete i ok => s.delete i ok
  | .get i => s.get env i
  | .count i records => s.count i records
  | .approve => some (s.approve env)
  | .issue i issued => s.issue i issued
  | .acknowledge travelId credentialId homeId now =>
    some (s.acknowledge env requestId travelId credentialId homeId now)
  | .write i ok => s.write i ok
  | .drop i => (s.ops.get i).map fun _ => s.goOn i none

/-- A write comes in time: its record was not pruned since it was read, and is not approved yet
(for a submission), not installed (for an approval), or not installed for another credential
(for an acknowledgement). -/
def timely (s : Sys) : Action → Bool
  | .write i true =>
    match s.ops.get i with
    | some ⟨.writing cause record, since⟩ =>
      since == s.pruned &&
        match cause with
        | .submission => s.record.all (·.stage ≤ 1)
        | .approval => s.record.all (·.installedCredentialId.isNone)
        | .acknowledgement => s.record.all fun now =>
            now.installedCredentialId.isNone ||
              now.installedCredentialId == record.installedCredentialId
    | _ => true
  | _ => true

end Sys

/-- The inbox from the record that it has at first. -/
def machine (env : Env) (requestId : Uuid) (record : Option RemoteEnrollmentInboxRecord) :
    Machine Sys Action where
  start := { record, past := [record] }
  step := Sys.step env requestId

/-- A record moves forward: absent, pending, approved, installed, pruned. Once installed it is
installed for one credential and has no response. -/
def Forward : (before after : Option RemoteEnrollmentInboxRecord) → Prop
  | none, none => True
  | none, some record => record.stage = 1
  | some _, none => True
  | some record, some record' =>
    record.stage ≤ record'.stage ∧ record'.stage ≤ record.stage + 1 ∧
      ∀ credentialId, record.installedCredentialId = some credentialId →
        record'.installedCredentialId = some credentialId ∧ record'.response = none

namespace RemoteEnrollmentInboxRecord
variable {record copy updated : RemoteEnrollmentInboxRecord}

theorem stage_pos (record : RemoteEnrollmentInboxRecord) : 1 ≤ record.stage := by
  unfold stage
  split_ifs <;> omega

theorem stage_le (record : RemoteEnrollmentInboxRecord) : record.stage ≤ 3 := by
  unfold stage
  split_ifs <;> omega

theorem stage_le_two (h : record.installedCredentialId = none) : record.stage ≤ 2 := by
  unfold stage
  rw [h]
  split_ifs with hinstalled
  · cases hinstalled
  · omega
  · omega

theorem not_installed_of_stage (h : record.stage ≤ 2) : record.installedCredentialId = none := by
  unfold stage at h
  split_ifs at h with hinstalled
  · omega
  · simpa using hinstalled
  · simpa using hinstalled

theorem stage_installed (h : record.installedCredentialId.isSome) : record.stage = 3 := by
  unfold stage
  rw [if_pos h]

theorem stage_approve (h : record.installedCredentialId = none)
    (enrollment : TravelResponseEnvelope) : (record.approve enrollment).stage = 2 := by
  unfold stage approve
  simp [h]

/-- An acknowledgement installs what was approved. -/
theorem acknowledge_cases {env : Env} {requestId credentialId : Uuid} {travelId homeId : String}
    {now : ℕ}
    (h : record.acknowledge env requestId travelId credentialId homeId now = some updated) :
    record.stage = 2 ∧ updated.installedCredentialId = some credentialId ∧
      updated.response = none := by
  unfold acknowledge at h
  split_ifs at h with hidentity hinstalled
  cases hresponse : record.response with
  | none => simp [hresponse] at h
  | some response =>
    simp only [hresponse] at h
    split_ifs at h with happroval
    obtain rfl := Option.some.inj h
    refine ⟨?_, rfl, rfl⟩
    unfold stage
    rw [if_neg hinstalled, hresponse]
    rfl

end RemoteEnrollmentInboxRecord

/-- The record has come as far as the copy, or farther. -/
structure Behind (copy record : RemoteEnrollmentInboxRecord) : Prop where
  stage_le : copy.stage ≤ record.stage
  installed : ∀ credentialId, copy.installedCredentialId = some credentialId →
    record.installedCredentialId = some credentialId

/-- What holds of an operation whose record was not pruned since it was read. -/
def Op.Fits (record : Option RemoteEnrollmentInboxRecord) : Op → Prop
  | .approving copy => ∃ now, record = some now ∧ Behind copy now
  | .writing .approval updated =>
    ∃ now copy enrollment, record = some now ∧ Behind copy now ∧ updated = copy.approve enrollment
  | .writing .acknowledgement updated =>
    ∃ now, record = some now ∧ 2 ≤ now.stage ∧ updated.installedCredentialId.isSome ∧
      updated.response = none
  | .writing .submission updated => updated.stage = 1
  | .counting updated => updated.stage = 1
  | _ => True

/-- Operations keep up with a record that moves forward. -/
theorem Op.Fits.forward {op : Op} {before after : RemoteEnrollmentInboxRecord}
    (h : op.Fits (some before)) (hforward : Forward (some before) (some after)) :
    op.Fits (some after) := by
  obtain ⟨hle, -, hinstalled⟩ := hforward
  have hbehind : ∀ copy, Behind copy before → Behind copy after := by
    intro copy hcopy
    constructor
    · exact hcopy.stage_le.trans hle
    · intro credentialId hid
      exact (hinstalled credentialId (hcopy.installed credentialId hid)).1
  cases op with
  | approving copy =>
    obtain ⟨now, heq, hcopy⟩ := h
    obtain rfl := Option.some.inj heq
    exact ⟨after, rfl, hbehind copy hcopy⟩
  | writing cause updated =>
    cases cause with
    | submission => exact h
    | approval =>
      obtain ⟨now, copy, enrollment, heq, hcopy, hupdated⟩ := h
      obtain rfl := Option.some.inj heq
      exact ⟨after, copy, enrollment, rfl, hbehind copy hcopy, hupdated⟩
    | acknowledgement =>
      obtain ⟨now, heq, hstage, hupdated⟩ := h
      obtain rfl := Option.some.inj heq
      exact ⟨after, rfl, hstage.trans hle, hupdated⟩
  | counting updated => exact h
  | _ => trivial

/-- No copy of a record is left when there is none. -/
theorem Op.Fits.of_none {op : Op} (h : op.Fits none)
    (record : Option RemoteEnrollmentInboxRecord) : op.Fits record := by
  cases op with
  | approving copy =>
    obtain ⟨now, heq, -⟩ := h
    cases heq
  | writing cause updated =>
    cases cause with
    | submission => exact h
    | approval =>
      obtain ⟨now, copy, enrollment, heq, -⟩ := h
      cases heq
    | acknowledgement =>
      obtain ⟨now, heq, -⟩ := h
      cases heq
  | counting updated => exact h
  | _ => trivial

/-- The record moved forward so far, and the operations keep up with it. -/
structure Inv (s : Sys) : Prop where
  last : ∃ before, s.past = before ++ [s.record]
  forward : s.past.IsChain Forward
  revived : s.revived = false
  since_le : ∀ i p, s.ops.get i = some p → p.since ≤ s.pruned
  fits : ∀ i p, s.ops.get i = some p → p.since = s.pruned → p.op.Fits s.record

namespace Inv
variable {env : Env} {requestId : Uuid} {s s' : Sys} {a : Action} {i : ℕ}

theorem spawn {op : Op} (h : Inv s) (hop : op.Fits s.record) : Inv (s.spawn op) := by
  refine ⟨h.last, h.forward, h.revived, ?_, ?_⟩
  · intro j p hp
    rcases Slots.get_push_cases hp with ⟨-, rfl⟩ | ⟨-, hold⟩
    · exact le_rfl
    · exact h.since_le j p hold
  · intro j p hp hsince
    rcases Slots.get_push_cases hp with ⟨-, rfl⟩ | ⟨-, hold⟩
    · exact hop
    · exact h.fits j p hold hsince

theorem goOn {after : Option Pending} (h : Inv s)
    (hafter : ∀ p, after = some p → p.since ≤ s.pruned ∧ (p.since = s.pruned → p.op.Fits s.record)) :
    Inv (s.goOn i after) := by
  refine ⟨h.last, h.forward, h.revived, ?_, ?_⟩
  · intro j p hp
    rcases Slots.get_set_cases hp with ⟨-, hnew, -⟩ | ⟨-, hold⟩
    · exact (hafter p hnew).1
    · exact h.since_le j p hold
  · intro j p hp hsince
    rcases Slots.get_set_cases hp with ⟨-, hnew, -⟩ | ⟨-, hold⟩
    · exact (hafter p hnew).2 hsince
    · exact h.fits j p hold hsince

theorem finish (h : Inv s) : Inv (s.goOn i none) :=
  h.goOn fun _ hp => by cases hp

/-- The durable values stay a chain. -/
theorem isChain_store (h : Inv s) {record : Option RemoteEnrollmentInboxRecord}
    (hforward : Forward s.record record) : (s.past ++ [record]).IsChain Forward := by
  obtain ⟨before, hlast⟩ := h.last
  have hchain := h.forward
  rw [hlast] at hchain ⊢
  rw [List.append_assoc]
  exact (List.isChain_append_cons_cons).mpr ⟨hchain, hforward, List.isChain_singleton record⟩

/-- The record is written. -/
theorem store {record : RemoteEnrollmentInboxRecord} (h : Inv s)
    (hforward : Forward s.record (some record)) : Inv (s.store (some record)) := by
  refine ⟨⟨s.past, rfl⟩, h.isChain_store hforward, h.revived, h.since_le, ?_⟩
  intro j p hp hsince
  have hfits := h.fits j p hp hsince
  show p.op.Fits (some record)
  cases hbefore : s.record with
  | none =>
    rw [hbefore] at hfits
    exact hfits.of_none _
  | some before =>
    rw [hbefore] at hfits hforward
    exact hfits.forward hforward

/-- The record is pruned. -/
theorem prune (h : Inv s) : Inv { s.store none with pruned := s.pruned + 1 } := by
  have hforward : Forward s.record none := by
    cases s.record <;> trivial
  refine ⟨⟨s.past, rfl⟩, h.isChain_store hforward, h.revived, ?_, ?_⟩
  · intro j p hp
    exact (h.since_le j p hp).trans (Nat.le_succ _)
  · intro j p hp hsince
    have hle := h.since_le j p hp
    have hsince : p.since = s.pruned + 1 := hsince
    omega

theorem scan (h : Inv s) (next : Option (Submission × TravelRequestEnvelope × ℕ)) (now : ℕ) :
    Inv (s.scan next now) :=
  h.spawn trivial

theorem delete {ok : Bool} (h : Inv s) (hs : s.delete i ok = some s') : Inv s' := by
  unfold Sys.delete at hs
  split at hs
  case h_2 => cases hs
  next expired next since hget =>
  have hle := h.since_le i _ hget
  have hafter : ∀ p, (next.map fun (submission, request, now) =>
      Pending.mk (.reading submission request now) since) = some p →
        p.since = since ∧ ∀ record, p.op.Fits record := by
    intro p hp
    obtain ⟨n, -, rfl⟩ := Option.map_eq_some_iff.mp hp
    exact ⟨rfl, fun _ => trivial⟩
  split_ifs at hs with hok hexpired
  · obtain rfl := Option.some.inj hs
    exact h.finish
  · obtain rfl := Option.some.inj hs
    apply h.prune.goOn
    intro p hp
    obtain ⟨hsince, hfits⟩ := hafter p hp
    rw [hsince]
    exact ⟨hle.trans (Nat.le_succ _), fun _ => hfits _⟩
  · obtain rfl := Option.some.inj hs
    apply h.goOn
    intro p hp
    obtain ⟨hsince, hfits⟩ := hafter p hp
    rw [hsince]
    exact ⟨hle, fun _ => hfits _⟩

theorem get (h : Inv s) (hs : s.get env i = some s') : Inv s' := by
  unfold Sys.get at hs
  split at hs
  case h_2 => cases hs
  split_ifs at hs with hsome
  · obtain rfl := Option.some.inj hs
    exact h.finish
  · obtain rfl := Option.some.inj hs
    apply h.goOn
    intro p hp
    obtain rfl := Option.some.inj hp
    exact ⟨le_rfl, fun _ => rfl⟩

theorem count {records : ℕ} (h : Inv s) (hs : s.count i records = some s') : Inv s' := by
  unfold Sys.count at hs
  split at hs
  case h_2 => cases hs
  next record since hget =>
  split_ifs at hs with hroom
  · obtain rfl := Option.some.inj hs
    apply h.goOn
    intro p hp
    obtain rfl := Option.some.inj hp
    have hle := h.since_le i _ hget
    have hfits := h.fits i _ hget
    exact ⟨hle, hfits⟩
  · obtain rfl := Option.some.inj hs
    exact h.finish

theorem approve (h : Inv s) : Inv (s.approve env) := by
  unfold Sys.approve
  split
  · exact h
  · next record hrecord =>
    split_ifs
    · exact h
    · exact h.spawn ⟨record, hrecord, le_rfl, fun _ hid => hid⟩

theorem issue {issued : Option TravelResponseEnvelope} (h : Inv s)
    (hs : s.issue i issued = some s') : Inv s' := by
  unfold Sys.issue at hs
  split at hs
  case h_2 => cases hs
  next copy since hget =>
  obtain rfl := Option.some.inj hs
  apply h.goOn
  intro p hp
  obtain ⟨enrollment, -, rfl⟩ := Option.map_eq_some_iff.mp hp
  have hle := h.since_le i _ hget
  refine ⟨hle, fun hsince => ?_⟩
  obtain ⟨now, hnow, hbehind⟩ := h.fits i _ hget hsince
  exact ⟨now, copy, enrollment, hnow, hbehind, rfl⟩

theorem acknowledge {travelId homeId : String} {credentialId : Uuid} {now : ℕ} (h : Inv s) :
    Inv (s.acknowledge env requestId travelId credentialId homeId now) := by
  unfold Sys.acknowledge
  split
  · exact h
  · next updated hupdated =>
    obtain ⟨record, hrecord, hacknowledge⟩ := Option.bind_eq_some_iff.mp hupdated
    obtain ⟨hstage, hinstalled, hresponse⟩ :=
      RemoteEnrollmentInboxRecord.acknowledge_cases hacknowledge
    refine h.spawn ⟨record, hrecord, hstage.ge, ?_, hresponse⟩
    rw [hinstalled]
    rfl

/-- What a write in time puts lies ahead. -/
theorem forward_write {cause : Cause} {record : RemoteEnrollmentInboxRecord} {since : ℕ}
    (h : Inv s) (hget : s.ops.get i = some ⟨.writing cause record, since⟩)
    (hok : s.timely (.write i true) = true) :
    since = s.pruned ∧ Forward s.record (some record) := by
  simp only [Sys.timely, hget, Bool.and_eq_true, beq_iff_eq] at hok
  obtain ⟨hsince, hok⟩ := hok
  refine ⟨hsince, ?_⟩
  have hfits := h.fits i _ hget hsince
  cases cause with
  | submission =>
    have hstage : record.stage = 1 := hfits
    cases hnow : s.record with
    | none => exact hstage
    | some now =>
      have hle : now.stage ≤ 1 := by simpa [hnow] using hok
      have hpos := now.stage_pos
      refine ⟨by omega, by omega, fun credentialId hid => ?_⟩
      have hlow : now.stage ≤ 2 := by omega
      have hnone := RemoteEnrollmentInboxRecord.not_installed_of_stage hlow
      rw [hnone] at hid
      cases hid
  | approval =>
    obtain ⟨now, copy, enrollment, hnow, hbehind, rfl⟩ := hfits
    rw [hnow] at hok ⊢
    have hnone : now.installedCredentialId = none := by simpa using hok
    have hcopy : copy.installedCredentialId = none := by
      cases hid : copy.installedCredentialId with
      | none => rfl
      | some credentialId =>
        rw [hbehind.installed credentialId hid] at hnone
        cases hnone
    have hstage := RemoteEnrollmentInboxRecord.stage_approve hcopy enrollment
    have hle := RemoteEnrollmentInboxRecord.stage_le_two hnone
    have hpos := now.stage_pos
    refine ⟨by omega, by omega, fun credentialId hid => ?_⟩
    rw [hnone] at hid
    cases hid
  | acknowledgement =>
    obtain ⟨now, hnow, hstage, hinstalled, hresponse⟩ := hfits
    rw [hnow] at hok ⊢
    have hthree := RemoteEnrollmentInboxRecord.stage_installed hinstalled
    have hle := now.stage_le
    refine ⟨by omega, by omega, fun credentialId hid => ⟨?_, hresponse⟩⟩
    simp only [Option.all_some, hid] at hok
    have heq : some credentialId = record.installedCredentialId := by simpa using hok
    exact heq.symm

theorem write {ok : Bool} (h : Inv s) (hok : s.timely (.write i ok) = true)
    (hs : s.write i ok = some s') : Inv s' := by
  unfold Sys.write at hs
  split at hs
  case h_2 => cases hs
  next cause record since hget =>
  split_ifs at hs with htrue
  · subst htrue
    obtain rfl := Option.some.inj hs
    obtain ⟨hsince, hforward⟩ := h.forward_write hget hok
    have hstored := h.store hforward
    have hsame : { s.store (some record) with revived := s.revived || since != s.pruned } =
        s.store (some record) := by
      rw [hsince]
      simp [Sys.store]
    rw [hsame]
    exact hstored.finish
  · obtain rfl := Option.some.inj hs
    exact h.finish

theorem step (h : Inv s) (hok : s.timely a = true) (hs : s.step env requestId a = some s') :
    Inv s' := by
  cases a with
  | submit submission validated now =>
    obtain rfl := Option.some.inj hs
    unfold Sys.submit
    split
    · exact h
    · exact h.scan _ _
  | tick now =>
    obtain rfl := Option.some.inj hs
    exact h.scan none now
  | delete i ok => exact h.delete hs
  | get i => exact h.get hs
  | count i records => exact h.count hs
  | approve =>
    obtain rfl := Option.some.inj hs
    exact h.approve
  | issue i issued => exact h.issue hs
  | acknowledge travelId credentialId homeId now =>
    obtain rfl := Option.some.inj hs
    exact h.acknowledge
  | write i ok => exact h.write hok hs
  | drop i =>
    obtain ⟨p, -, rfl⟩ := Option.map_eq_some_iff.mp hs
    exact h.finish

end Inv

variable {env : Env} {requestId : Uuid} {record : Option RemoteEnrollmentInboxRecord} {s : Sys}

/-- A record moves only forward, and no operation writes it back after it was pruned, as long as
every write comes in time. -/
theorem forward_of_timely
    (h : (machine env requestId record).ReachableWhere (fun s a => s.timely a = true) s) :
    s.past.IsChain Forward ∧ s.revived = false := by
  have hinv : Inv s := by
    refine h.invariant ?_ fun s a s' _ hinv hok hs => hinv.step hok hs
    refine ⟨⟨[], rfl⟩, List.isChain_singleton record, rfl, ?_, ?_⟩
    · intro i p hp
      simp [machine] at hp
    · intro i p hp
      simp [machine] at hp
  exact ⟨hinv.forward, hinv.revived⟩

/-! A request with one issuance. -/

def sampleEnv : Env where
  id := "home-1"
  decode _ := some (.legacy Issuance.sampleRequest)
  valid _ _ := true
  sha256 _ := samplePin '1'
  bootstrapVerificationCode _ _ := "code"

def sampleEnrollment : TravelResponseEnvelope :=
  Issuance.issueTravel (.legacy Issuance.sampleRequest) Issuance.sampleIntent
    (Issuance.sampleSigning 1)

/-- The request is submitted. -/
def submitted : List Action :=
  [.submit ⟨"travel-1", "home-1", [123, 125], none⟩ 1000 1000, .delete 0 true, .get 0, .count 0 0,
    .write 0 true]

/-- It is approved twice, one after the other, installed and pruned. -/
def repeatedApproval : List Action :=
  submitted ++ [.approve, .issue 1 (some sampleEnrollment), .write 1 true, .approve,
    .issue 2 (some sampleEnrollment), .write 2 true, .acknowledge "travel-1" 1 "home-1" 2000,
    .write 3 true, .tick 88400, .delete 4 true]

/-- A second approval has read the record and writes it after the Travel was installed. -/
def lateApproval : List Action :=
  submitted ++ [.approve, .approve, .issue 1 (some sampleEnrollment), .write 1 true,
    .acknowledge "travel-1" 1 "home-1" 2000, .write 3 true, .issue 2 (some sampleEnrollment),
    .write 2 true]

/-- The values that the record had, as their stages. -/
def Sys.stages (s : Sys) : List (Option ℕ) := s.past.map fun record => record.map (·.stage)

theorem stages_of_forward {before after : Option RemoteEnrollmentInboxRecord}
    (h : Forward before after) :
    ∀ m ∈ before.map (·.stage), ∀ n ∈ after.map (·.stage), m ≤ n := by
  intro m hm n hn
  obtain ⟨record, rfl, rfl⟩ := Option.map_eq_some_iff.mp hm
  obtain ⟨record', rfl, rfl⟩ := Option.map_eq_some_iff.mp hn
  exact h.1

theorem forward_of_timely_repeatedApproval :
    ∃ s, (machine sampleEnv 1 none).execWhere (fun s a => s.timely a = true)
      repeatedApproval = some s ∧
      s.stages = [none, some 1, some 2, some 2, some 3, none] ∧
      s.past.IsChain Forward ∧ s.revived = false := by
  have hrun : ((machine sampleEnv 1 none).execWhere (fun s a => s.timely a = true)
      repeatedApproval).map (·.stages) = some [none, some 1, some 2, some 2, some 3, none] := by
    decide
  obtain ⟨s, hs, hstages⟩ := Option.map_eq_some_iff.mp hrun
  exact ⟨s, hs, hstages, forward_of_timely (Machine.reachableWhere_of_execWhere hs)⟩

/-- The installed record becomes an approved one again. -/
theorem not_forward_of_reachable :
    (∃ s, (machine sampleEnv 1 none).exec lateApproval = some s ∧
      s.stages = [none, some 1, some 2, some 3, some 2]) ∧
    ¬ ∀ s, (machine sampleEnv 1 none).Reachable s → s.past.IsChain Forward := by
  have hrun : ((machine sampleEnv 1 none).exec lateApproval).map (·.stages) =
      some [none, some 1, some 2, some 3, some 2] := by
    decide
  obtain ⟨s, hs, hstages⟩ := Option.map_eq_some_iff.mp hrun
  refine ⟨⟨s, hs, hstages⟩, fun hall => ?_⟩
  have hchain := hall s (Machine.reachable_of_exec hs)
  have hstep : s.stages.IsChain fun before after => ∀ m ∈ before, ∀ n ∈ after, m ≤ n := by
    unfold Sys.stages
    rw [List.isChain_map]
    exact hchain.imp fun before after => stages_of_forward
  rw [hstages] at hstep
  revert hstep
  decide

end FlowSplice.Inbox
