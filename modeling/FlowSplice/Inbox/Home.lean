import FlowSplice.Inbox.Travel
import FlowSplice.Issuance.HomeEnvelope

/-! The inbox of a global Home for the enrollment requests of new Homes, at one request id, with
each store access a step of its own: `homeagent/src/main.rs`. -/
namespace FlowSplice.Inbox.Home

structure HomeEnrollmentInboxRecord where
  version : ℕ := homeEnrollmentVersion
  homeId : String
  receivedAtUnixSecs : ℕ
  request : HomeRequestEnvelope
  response : Option HomeResponseEnvelope := none
  retrievalTokenSha256 : String
  verificationCode : String
deriving DecidableEq, Repr

/-- The retention of `prune_remote_enrollment_inbox_store` for these records. -/
def HomeEnrollmentInboxRecord.expired (record : HomeEnrollmentInboxRecord) (now : ℕ) : Bool :=
  let retention :=
    if record.response.isSome then remoteEnrollmentInstalledRetentionSecs
    else remoteEnrollmentPendingRetentionSecs
  decide (retention ≤ now - record.receivedAtUnixSecs)

/-- What the Home takes from elsewhere: how JSON is read, `parse_home_enrollment_request`, digests,
signed payloads and its configuration. -/
structure Env where
  decode : List UInt8 → Option HomeRequestEnvelope
  parse : HomeEnrollmentRequest → ℕ → Bool
  sha256 : List UInt8 → String
  bootstrapVerificationCode : (requestJson token : List UInt8) → String
  codec : Codec
  homeEnrollmentAuthority : Option String
  defaultValidDays : ℕ
  allowUnencryptedTestKeys : Bool := false

/-- `HomeRequestEnvelope::validate`. -/
def Env.valid (env : Env) (request : HomeRequestEnvelope) (now : ℕ) : Bool :=
  match request with
  | .business request =>
    request.version == businessVersion && request.objectType == "flowsplice.business_home_request" &&
      validateServices request.services && env.parse request.request now
  | .legacy request => env.parse request now

/-- The arguments of `persist_home_enrollment_request`, without the request id. -/
structure Submission where
  homeId : String
  retrievalToken : List UInt8
  requestJson : List UInt8
deriving DecidableEq, Repr

/-- The checks of `persist_home_enrollment_request` before it comes to the store. -/
def Submission.check (env : Env) (requestId : Uuid) (submission : Submission) (now : ℕ) :
    Option HomeRequestEnvelope :=
  if requestId = 0 ∨ submission.homeId.isEmpty ∨ submission.retrievalToken.length ≠ 32 ∨
      submission.requestJson = [] ∨ 512 * 1024 < submission.requestJson.length then none
  else
    (env.decode submission.requestJson).filter fun request =>
      request.request.requestId == requestId && request.request.homeId == submission.homeId &&
        env.valid request now

/-- The record that a submission puts. -/
def Submission.record (env : Env) (submission : Submission) (request : HomeRequestEnvelope)
    (now : ℕ) : HomeEnrollmentInboxRecord where
  homeId := submission.homeId
  receivedAtUnixSecs := now
  request := request
  retrievalTokenSha256 := env.sha256 submission.retrievalToken
  verificationCode :=
    env.bootstrapVerificationCode submission.requestJson submission.retrievalToken

/-- What a submission is answered where a record is: nothing when it is in conflict with it. -/
def Submission.retrieve (env : Env) (submission : Submission) (request : HomeRequestEnvelope)
    (existing : HomeEnrollmentInboxRecord) : Option HomeResponseEnvelope :=
  if existing.version ≠ homeEnrollmentVersion ∨ existing.homeId ≠ submission.homeId ∨
      existing.request ≠ request ∨
      existing.retrievalTokenSha256 ≠ env.sha256 submission.retrievalToken then none
  else existing.response

/-- `ApproveHomeEnrollmentRequest`, without the request id. -/
structure ApproveRequest where
  profile : HomeEnrollmentProfile
  validDays : Option ℕ := none
  password : String
  services : Option (List String) := none
deriving DecidableEq, Repr

/-- The services that an approval selects of those requested. -/
def ApproveRequest.approvedServices (approve : ApproveRequest) (request : HomeRequestEnvelope) :
    Option (Option (List BusinessService)) :=
  match request with
  | .business request =>
    if approve.profile ≠ .servingOnly then none
    else
      match approve.services with
      | none => none
      | some selected =>
        if selected = [] ∨ ¬ selected.Nodup then none
        else
          (selected.mapM fun id => request.services.find? (·.serviceId == id)).map some
  | .legacy _ => if approve.services.isSome then none else some none

/-- Whether a response that is there already grants the same. -/
def confirms (env : Env) (existing : HomeResponseEnvelope) (profile : HomeEnrollmentProfile)
    (services : Option (List BusinessService)) (trust : Option DeploymentTrust) (now : ℕ) : Bool :=
  existing.response.approval.profile == profile &&
    match existing with
    | .business existing =>
      (trust.bind fun trust => existing.grant.verify env.codec trust
        existing.response.signedEndpointCredential now).any fun grant =>
          services == some grant.services
    | .legacy _ => true

/-- `prepare_home_enrollment_approval`. -/
def prepareHomeEnrollmentApproval (env : Env) (request : HomeEnrollmentRequest)
    (validForSecs : ℕ) (authorityId : String) (profile : HomeEnrollmentProfile) (now : ℕ)
    (credentialId : Uuid) : Option HomeEnrollmentApproval :=
  if !env.parse request now ∨ authorityId.isEmpty ∨ validForSecs = 0 ∨
      maxValidDays * 86400 < validForSecs ∨ 2 ^ 64 ≤ now + validForSecs then none
  else some {
    credentialId := credentialId
    authorityId := authorityId
    profile := profile
    request := request
    notBeforeUnixSecs := now - 300
    notAfterUnixSecs := now + validForSecs }

/-- What signing a Home draws and makes. -/
structure Signing where
  deploymentTrust : SignedDeploymentTrust
  managementCertificatePem : String
  businessCertificatePem : String
  signedEndpointCredential : SignedHomeEndpointCredential
  issuerBundle : Option HomeIssuerBundle := none
  grant : SignedHomeServiceGrant
deriving DecidableEq, Repr

/-- The grant is signed for these services. -/
def Signing.signs (codec : Codec) (signing : Signing) (request : HomeRequestEnvelope)
    (services : Option (List BusinessService)) : Bool :=
  match request with
  | .business _ =>
    (codec.grant signing.grant.payloadHex).any fun grant => grant.services == services.getD []
  | .legacy _ => true

/-- `issue_business_home` or `issue_home_enrollment`. -/
def issueHome (request : HomeRequestEnvelope) (approval : HomeEnrollmentApproval)
    (signing : Signing) : HomeResponseEnvelope :=
  let response : HomeEnrollmentResponse :=
    { approval := approval
      deploymentTrust := signing.deploymentTrust
      managementCertificatePem := signing.managementCertificatePem
      businessCertificatePem := signing.businessCertificatePem
      signedEndpointCredential := signing.signedEndpointCredential
      issuerBundle := signing.issuerBundle }
  match request with
  | .business request =>
    .business { request := request, response := response, grant := signing.grant }
  | .legacy _ => .legacy response

/-- An approval that goes on to issue. -/
structure Approving where
  copy : HomeEnrollmentInboxRecord
  approval : HomeEnrollmentApproval
  services : Option (List BusinessService)
deriving DecidableEq, Repr

/-- Where an operation is between two accesses of the store. -/
inductive Op where
  | pruning (expired : Bool)
  | reading (submission : Submission) (request : HomeRequestEnvelope)
  | counting (record : HomeEnrollmentInboxRecord)
  | putting (record : HomeEnrollmentInboxRecord)
  | ready (approving : Approving)
  | issuing (approving : Approving)
  | approved (approving : Approving) (response : HomeResponseEnvelope)
deriving DecidableEq, Repr

/-- The durable record and `sensitive_operation`, with the responses that were stored, those that
were returned, what approvals reported to have granted, and whether a response was pruned or written
over by a submission. -/
structure Sys where
  record : Option HomeEnrollmentInboxRecord
  permit : Option ℕ := none
  ops : Slots Op := {}
  stored : List HomeResponseEnvelope := []
  returned : List HomeResponseEnvelope := []
  reports : List (HomeEnrollmentProfile × Option (List BusinessService)) := []
  forgotten : Bool := false
deriving DecidableEq, Repr

inductive Action where
  | submit (submission : Submission) (now : ℕ)
  | get (i now : ℕ)
  | count (i records : ℕ)
  | tick (now : ℕ)
  | delete (i : ℕ) (ok : Bool)
  | approve (request : ApproveRequest) (trust : Option DeploymentTrust) (now : ℕ)
      (credentialId : Uuid)
  | acquire (i : ℕ) (free : Bool)
  | issue (i : ℕ) (signing : Option Signing)
  | write (i : ℕ) (ok : Bool)
  | drop (i : ℕ)
  | detach (i : ℕ)

namespace Sys

def spawn (s : Sys) (op : Op) : Sys := { s with ops := s.ops.push op }

/-- Operation `i` goes on to `op`, or ends. -/
def goOn (s : Sys) (i : ℕ) (op : Option Op) : Sys := { s with ops := s.ops.set i op }

/-- The permit of an operation is released when it ends. -/
def release (s : Sys) (i : ℕ) : Sys :=
  { s with permit := if s.permit = some i then none else s.permit }

def submit (env : Env) (requestId : Uuid) (s : Sys) (submission : Submission) (now : ℕ) : Sys :=
  match submission.check env requestId now with
  | none => s
  | some request => s.spawn (.reading submission request)

def get (env : Env) (s : Sys) (i now : ℕ) : Option Sys :=
  match s.ops.get i with
  | some (.reading submission request) =>
    match s.record with
    | some existing =>
      some { s.goOn i none with
        returned := s.returned ++ (submission.retrieve env request existing).toList }
    | none => some (s.goOn i (some (.counting (submission.record env request now))))
  | _ => none

def count (s : Sys) (i records : ℕ) : Option Sys :=
  match s.ops.get i with
  | some (.counting record) =>
    if maxRemoteEnrollmentInboxRecords ≤ records then some (s.goOn i none)
    else some (s.goOn i (some (.putting record)))
  | _ => none

/-- `prune_remote_enrollment_inbox_store` scans the table. -/
def scan (s : Sys) (now : ℕ) : Sys := s.spawn (.pruning (s.record.any (·.expired now)))

/-- A record without a response takes the place of the one that is there, or none does. -/
def replace (s : Sys) (record : Option HomeEnrollmentInboxRecord) : Sys :=
  { s with record, forgotten := s.forgotten || s.record.any (·.response.isSome) }

/-- The batch of a prune. -/
def delete (s : Sys) (i : ℕ) (ok : Bool) : Option Sys :=
  match s.ops.get i with
  | some (.pruning expired) =>
    if ok && expired && s.record.isSome then some ((s.replace none).goOn i none)
    else some (s.goOn i none)
  | _ => none

/-- `approve_home_enrollment` up to its permit. -/
def approve (env : Env) (s : Sys) (request : ApproveRequest) (trust : Option DeploymentTrust)
    (now : ℕ) (credentialId : Uuid) : Sys :=
  match env.homeEnrollmentAuthority, s.record with
  | some authorityId, some record =>
    match request.approvedServices record.request with
    | none => s
    | some services =>
      match record.response with
      | some existing =>
        if confirms env existing request.profile services trust now then
          { s with reports := s.reports ++ [(request.profile, services)] }
        else s
      | none =>
        let validDays := request.validDays.getD env.defaultValidDays
        if validDays = 0 ∨ maxValidDays < validDays ∨
            (request.password.isEmpty ∧ !env.allowUnencryptedTestKeys) then s
        else
          match prepareHomeEnrollmentApproval env record.request.request (validDays * 86400)
              authorityId request.profile now credentialId with
          | none => s
          | some approval => s.spawn (.ready ⟨record, approval, services⟩)
  | _, _ => s

/-- The approval takes the permit, unless it or another issuer operation is busy. -/
def acquire (s : Sys) (i : ℕ) (free : Bool) : Option Sys :=
  match s.ops.get i with
  | some (.ready approving) =>
    if free && s.permit.isNone then
      some ({ s with permit := some i }.goOn i (some (.issuing approving)))
    else some (s.goOn i none)
  | _ => none

/-- The approval signs what it grants. -/
def issue (env : Env) (s : Sys) (i : ℕ) (signing : Option Signing) : Option Sys :=
  match s.ops.get i with
  | some (.issuing approving) =>
    match signing.filter (·.signs env.codec approving.copy.request approving.services) with
    | none => some ((s.release i).goOn i none)
    | some signing =>
      let response := issueHome approving.copy.request approving.approval signing
      some (s.goOn i (some (.approved approving response)))
  | _ => none

/-- The copy that the approval has read is written, with the response. -/
def store (s : Sys) (approving : Approving) (response : HomeResponseEnvelope) : Sys :=
  { s with
    record := some { approving.copy with response := some response }
    stored := s.stored ++ [response]
    reports := s.reports ++ [(approving.approval.profile, approving.services)] }

def write (s : Sys) (i : ℕ) (ok : Bool) : Option Sys :=
  match s.ops.get i with
  | some (.putting record) =>
    if ok then some ((s.replace (some record)).goOn i none) else some (s.goOn i none)
  | some (.approved approving response) =>
    if ok then some (((s.store approving response).release i).goOn i none)
    else some ((s.release i).goOn i none)
  | _ => none

def step (env : Env) (requestId : Uuid) (s : Sys) : Action → Option Sys
  | .submit submission now => some (s.submit env requestId submission now)
  | .get i now => s.get env i now
  | .count i records => s.count i records
  | .tick now => some (s.scan now)
  | .delete i ok => s.delete i ok
  | .approve request trust now credentialId => some (s.approve env request trust now credentialId)
  | .acquire i free => s.acquire i free
  | .issue i signing => s.issue env i signing
  | .write i ok => s.write i ok
  | .drop i => (s.ops.get i).map fun _ => (s.release i).goOn i none
  | .detach i => (s.ops.get i).map fun _ => s.release i

/-- An approval does not write over a response, nor after one was pruned or written over. -/
def inTurn (s : Sys) : Action → Bool
  | .write i true =>
    match s.ops.get i with
    | some (.approved _ _) => s.record.all (·.response.isNone) && !s.forgotten
    | _ => true
  | _ => true

end Sys

/-- The inbox from the record that it has at first. -/
def machine (env : Env) (requestId : Uuid) (record : Option HomeEnrollmentInboxRecord) :
    Machine Sys Action where
  start := { record, stored := (record.bind (·.response)).toList }
  step := Sys.step env requestId

/-- The response is for this profile and these services. -/
def Grants (codec : Codec) (response : HomeResponseEnvelope) (profile : HomeEnrollmentProfile)
    (services : Option (List BusinessService)) : Prop :=
  response.response.approval.profile = profile ∧
    match response with
    | .business response =>
      ∃ grant, codec.grant response.grant.payloadHex = some grant ∧ services = some grant.services
    | .legacy _ => True

/-- At most one response was ever stored; it is what every retrieval returned, and what every
approval that succeeded had granted. -/
structure Once (codec : Codec) (s : Sys) : Prop where
  stored : ∀ r ∈ s.stored, ∀ r' ∈ s.stored, r = r'
  returned : ∀ r ∈ s.returned, r ∈ s.stored
  reports : ∀ report ∈ s.reports, ∃ r ∈ s.stored, Grants codec r report.1 report.2

variable {env : Env} {requestId : Uuid} {s s' : Sys} {a : Action} {i : ℕ}

/-- Which services an approval selects depends on the kind of the request. -/
theorem approvedServices_some {approve : ApproveRequest} {request : BusinessHomeRequest}
    {services : Option (List BusinessService)}
    (h : approve.approvedServices (.business request) = some services) : services.isSome := by
  unfold ApproveRequest.approvedServices at h
  dsimp only at h
  split_ifs at h with hprofile
  split at h
  · cases h
  · split_ifs at h
    obtain ⟨selected, -, rfl⟩ := Option.map_eq_some_iff.mp h
    rfl

theorem grants_of_confirms {existing : HomeResponseEnvelope} {profile : HomeEnrollmentProfile}
    {services : Option (List BusinessService)} {trust : Option DeploymentTrust} {now : ℕ}
    (h : confirms env existing profile services trust now = true) :
    Grants env.codec existing profile services := by
  unfold confirms at h
  rw [Bool.and_eq_true, beq_iff_eq] at h
  refine ⟨h.1, ?_⟩
  cases existing with
  | legacy existing => trivial
  | business existing =>
    obtain ⟨grant, hgrant, heq⟩ := (Option.any_eq_true _ _).mp h.2
    obtain ⟨trust, -, hverify⟩ := Option.bind_eq_some_iff.mp hgrant
    exact ⟨grant, SignedHomeServiceGrant.payload_of_verify hverify, by simpa using heq⟩

theorem grants_issueHome {approving : Approving} {signing : Signing}
    (hservices : ∀ request, approving.copy.request = .business request → approving.services.isSome)
    (hsigns : signing.signs env.codec approving.copy.request approving.services = true) :
    Grants env.codec (issueHome approving.copy.request approving.approval signing)
      approving.approval.profile approving.services := by
  unfold Signing.signs at hsigns
  cases hrequest : approving.copy.request with
  | legacy request => exact ⟨rfl, trivial⟩
  | business request =>
    rw [hrequest] at hsigns
    obtain ⟨grant, hgrant, heq⟩ := (Option.any_eq_true _ _).mp hsigns
    obtain ⟨services, hsome⟩ := Option.isSome_iff_exists.mp (hservices request hrequest)
    refine ⟨rfl, grant, hgrant, ?_⟩
    rw [hsome] at heq ⊢
    have heq : grant.services = services := by simpa using heq
    rw [heq]

/-- What an operation is about to do. -/
def Op.Fits (codec : Codec) : Op → Prop
  | .counting record | .putting record => record.response = none
  | .ready approving | .issuing approving =>
    ∀ request, approving.copy.request = .business request → approving.services.isSome
  | .approved approving response =>
    Grants codec response approving.approval.profile approving.services
  | _ => True

/-- The response that was stored is in the record, unless it was pruned or written over. -/
structure Inv (codec : Codec) (s : Sys) : Prop where
  once : Once codec s
  held : ∀ r ∈ s.stored, s.forgotten = true ∨
    ∃ record, s.record = some record ∧ record.response = some r
  kept : ∀ record, s.record = some record → ∀ r, record.response = some r → r ∈ s.stored
  fits : ∀ i op, s.ops.get i = some op → op.Fits codec

namespace Inv
variable {codec : Codec}

/-- Where no response is and none is forgotten, none was stored. -/
theorem stored_eq_nil (h : Inv codec s) (hnone : s.record.all (·.response.isNone) = true)
    (hkept : s.forgotten = false) : s.stored = [] := by
  rw [List.eq_nil_iff_forall_not_mem]
  intro r hr
  rcases h.held r hr with hforgotten | ⟨record, hrecord, hresponse⟩
  · rw [hforgotten] at hkept
    cases hkept
  · rw [hrecord, Option.all_some, hresponse] at hnone
    cases hnone

theorem spawn {op : Op} (h : Inv codec s) (hfits : op.Fits codec) : Inv codec (s.spawn op) := by
  refine ⟨⟨h.once.stored, h.once.returned, h.once.reports⟩, h.held, h.kept, ?_⟩
  intro j op hop
  rcases Slots.get_push_cases hop with ⟨-, rfl⟩ | ⟨-, hold⟩
  · exact hfits
  · exact h.fits j op hold

theorem goOn {after : Option Op} (h : Inv codec s)
    (hafter : ∀ op, after = some op → op.Fits codec) : Inv codec (s.goOn i after) := by
  refine ⟨⟨h.once.stored, h.once.returned, h.once.reports⟩, h.held, h.kept, ?_⟩
  intro j op hop
  rcases Slots.get_set_cases hop with ⟨-, hnew, -⟩ | ⟨-, hold⟩
  · exact hafter op hnew
  · exact h.fits j op hold

theorem finish (h : Inv codec s) : Inv codec (s.goOn i none) :=
  h.goOn fun _ hop => by cases hop

theorem release (h : Inv codec s) : Inv codec (s.release i) :=
  ⟨⟨h.once.stored, h.once.returned, h.once.reports⟩, h.held, h.kept, h.fits⟩

theorem get {now : ℕ} (h : Inv codec s) (hs : s.get env i now = some s') : Inv codec s' := by
  unfold Sys.get at hs
  split at hs
  case h_2 => cases hs
  next submission request hget =>
  split at hs
  · next existing hrecord =>
    obtain rfl := Option.some.inj hs
    have hfinish : Inv codec (s.goOn i none) := h.finish
    refine ⟨⟨h.once.stored, ?_, h.once.reports⟩, h.held, h.kept, hfinish.fits⟩
    intro r hr
    rcases List.mem_append.mp hr with hr | hr
    · exact h.once.returned r hr
    · have hretrieve := Option.mem_toList.mp hr
      unfold Submission.retrieve at hretrieve
      split_ifs at hretrieve
      exact h.kept existing hrecord r hretrieve
  · obtain rfl := Option.some.inj hs
    apply h.goOn
    intro op hop
    obtain rfl := Option.some.inj hop
    rfl

theorem count {records : ℕ} (h : Inv codec s) (hs : s.count i records = some s') :
    Inv codec s' := by
  unfold Sys.count at hs
  split at hs
  case h_2 => cases hs
  next record hget =>
  split_ifs at hs with hroom
  · obtain rfl := Option.some.inj hs
    exact h.finish
  · obtain rfl := Option.some.inj hs
    have hfits : record.response = none := h.fits i _ hget
    apply h.goOn
    intro op hop
    obtain rfl := Option.some.inj hop
    exact hfits

/-- Whatever response was there is forgotten. -/
theorem replace {record : Option HomeEnrollmentInboxRecord} (h : Inv codec s)
    (hnone : ∀ r, record = some r → r.response = none) : Inv codec (s.replace record) := by
  refine ⟨⟨h.once.stored, h.once.returned, h.once.reports⟩, ?_, ?_, h.fits⟩
  · intro r hr
    apply Or.inl
    show (s.forgotten || s.record.any (·.response.isSome)) = true
    rcases h.held r hr with hforgotten | ⟨old, hold, hresponse⟩
    · rw [hforgotten]
      rfl
    · rw [hold, Option.any_some, hresponse]
      simp
  · intro now hnow r hr
    rw [hnone now hnow] at hr
    cases hr

theorem delete {ok : Bool} (h : Inv codec s) (hs : s.delete i ok = some s') : Inv codec s' := by
  unfold Sys.delete at hs
  split at hs
  case h_2 => cases hs
  split_ifs at hs
  · obtain rfl := Option.some.inj hs
    have hreplaced : Inv codec (s.replace none) := h.replace fun _ hnone => by cases hnone
    exact hreplaced.finish
  · obtain rfl := Option.some.inj hs
    exact h.finish

theorem approve {request : ApproveRequest} {trust : Option DeploymentTrust} {now : ℕ}
    {credentialId : Uuid} (h : Inv env.codec s) :
    Inv env.codec (s.approve env request trust now credentialId) := by
  unfold Sys.approve
  split
  case h_2 => exact h
  next authorityId record hauthority hrecord =>
  split
  · exact h
  next services hservices =>
  split
  · next existing hexisting =>
    split_ifs with hconfirms
    · refine ⟨⟨h.once.stored, h.once.returned, ?_⟩, h.held, h.kept, h.fits⟩
      intro report hreport
      rcases List.mem_append.mp hreport with hreport | hreport
      · exact h.once.reports report hreport
      · rw [List.mem_singleton.mp hreport]
        exact ⟨existing, h.kept record hrecord existing hexisting, grants_of_confirms hconfirms⟩
    · exact h
  · dsimp only
    split_ifs
    · exact h
    · split
      · exact h
      · apply h.spawn
        intro business hbusiness
        have hbusiness : record.request = .business business := hbusiness
        rw [hbusiness] at hservices
        exact approvedServices_some hservices

theorem acquire {free : Bool} (h : Inv codec s) (hs : s.acquire i free = some s') :
    Inv codec s' := by
  unfold Sys.acquire at hs
  split at hs
  case h_2 => cases hs
  next approving hget =>
  split_ifs at hs with hfree
  · obtain rfl := Option.some.inj hs
    have hfits := h.fits i _ hget
    have hpermit : Inv codec { s with permit := some i } :=
      ⟨⟨h.once.stored, h.once.returned, h.once.reports⟩, h.held, h.kept, h.fits⟩
    apply hpermit.goOn
    intro op hop
    obtain rfl := Option.some.inj hop
    exact hfits
  · obtain rfl := Option.some.inj hs
    exact h.finish

theorem issue {signing : Option Signing} (h : Inv env.codec s)
    (hs : s.issue env i signing = some s') : Inv env.codec s' := by
  unfold Sys.issue at hs
  split at hs
  case h_2 => cases hs
  next approving hget =>
  have hfits := h.fits i _ hget
  split at hs
  · obtain rfl := Option.some.inj hs
    exact h.release.finish
  · next signed hsigned =>
    obtain rfl := Option.some.inj hs
    have hsigns := (Option.filter_eq_some_iff.mp hsigned).2
    apply h.goOn
    intro op hop
    obtain rfl := Option.some.inj hop
    exact grants_issueHome hfits hsigns

/-- The first response is stored. -/
theorem store {approving : Approving} {response : HomeResponseEnvelope} (h : Inv codec s)
    (hgrants : Grants codec response approving.approval.profile approving.services)
    (hnil : s.stored = []) : Inv codec (s.store approving response) := by
  have hstored : (s.store approving response).stored = [response] := by
    show s.stored ++ [response] = [response]
    rw [hnil]
    rfl
  refine ⟨⟨?_, ?_, ?_⟩, ?_, ?_, h.fits⟩
  · intro r hr r' hr'
    rw [hstored, List.mem_singleton] at hr hr'
    rw [hr, hr']
  · intro r hr
    have hr := h.once.returned r hr
    rw [hnil] at hr
    cases hr
  · intro report hreport
    rw [hstored]
    rcases List.mem_append.mp hreport with hreport | hreport
    · obtain ⟨r, hr, -⟩ := h.once.reports report hreport
      rw [hnil] at hr
      cases hr
    · rw [List.mem_singleton.mp hreport]
      exact ⟨response, List.mem_singleton_self response, hgrants⟩
  · intro r hr
    rw [hstored, List.mem_singleton] at hr
    exact .inr ⟨_, rfl, congrArg some hr.symm⟩
  · intro record hrecord r hr
    obtain rfl := Option.some.inj hrecord
    have hr : some response = some r := hr
    rw [hstored, Option.some.inj hr]
    exact List.mem_singleton_self r

theorem write {ok : Bool} (h : Inv codec s) (hok : s.inTurn (.write i ok) = true)
    (hs : s.write i ok = some s') : Inv codec s' := by
  unfold Sys.write at hs
  split at hs
  case h_3 => cases hs
  · next record hget =>
    split_ifs at hs with htrue
    · obtain rfl := Option.some.inj hs
      have hfits : record.response = none := h.fits i _ hget
      have hreplaced : Inv codec (s.replace (some record)) := by
        apply h.replace
        intro r hr
        rw [← Option.some.inj hr]
        exact hfits
      exact hreplaced.finish
    · obtain rfl := Option.some.inj hs
      exact h.finish
  · next approving response hget =>
    split_ifs at hs with htrue
    · subst htrue
      obtain rfl := Option.some.inj hs
      simp only [Sys.inTurn, hget, Bool.and_eq_true, Bool.not_eq_true'] at hok
      exact (h.store (h.fits i _ hget) (h.stored_eq_nil hok.1 hok.2)).release.finish
    · obtain rfl := Option.some.inj hs
      exact h.release.finish

theorem step (h : Inv env.codec s) (hok : s.inTurn a = true)
    (hs : s.step env requestId a = some s') : Inv env.codec s' := by
  cases a with
  | submit submission now =>
    obtain rfl := Option.some.inj hs
    unfold Sys.submit
    split
    · exact h
    · exact h.spawn trivial
  | get i now => exact h.get hs
  | count i records => exact h.count hs
  | tick now =>
    obtain rfl := Option.some.inj hs
    exact h.spawn trivial
  | delete i ok => exact h.delete hs
  | approve request trust now credentialId =>
    obtain rfl := Option.some.inj hs
    exact h.approve
  | acquire i free => exact h.acquire hs
  | issue i signing => exact h.issue hs
  | write i ok => exact h.write hok hs
  | drop i =>
    obtain ⟨p, -, rfl⟩ := Option.map_eq_some_iff.mp hs
    exact h.release.finish
  | detach i =>
    obtain ⟨p, -, rfl⟩ := Option.map_eq_some_iff.mp hs
    exact h.release

end Inv

variable {record : Option HomeEnrollmentInboxRecord}

/-- A request is approved at most once, as long as its approvals write in turn. -/
theorem once_of_inTurn
    (h : (machine env requestId record).ReachableWhere (fun s a => s.inTurn a = true) s) :
    Once env.codec s := by
  have hinv : Inv env.codec s := by
    refine h.invariant ?_ fun s a s' _ hinv hok hs => hinv.step hok hs
    have hstored : ∀ r, r ∈ (machine env requestId record).start.stored →
        record.bind (·.response) = some r := fun r hr => Option.mem_toList.mp hr
    refine ⟨⟨?_, ?_, ?_⟩, ?_, ?_, ?_⟩
    · intro r hr r' hr'
      have hr := hstored r hr
      rw [hstored r' hr'] at hr
      exact (Option.some.inj hr).symm
    · intro r hr
      cases hr
    · intro report hreport
      cases hreport
    · intro r hr
      obtain ⟨existing, hrecord, hresponse⟩ := Option.bind_eq_some_iff.mp (hstored r hr)
      exact .inr ⟨existing, hrecord, hresponse⟩
    · intro existing hrecord r hresponse
      apply Option.mem_toList.mpr
      exact Option.bind_eq_some_iff.mpr ⟨existing, hrecord, hresponse⟩
    · intro i op hop
      simp [machine] at hop
  exact hinv.once

/-! A request of a Home that any profile may be approved for. -/

def sampleRequest : HomeEnrollmentRequest where
  requestId := 1
  nonce := "aa"
  homeId := "home-2"
  createdAtUnixSecs := 1000
  managementCsrPem := "management"
  businessCsrPem := "business"

def sampleEnv : Env where
  decode _ := some (.legacy sampleRequest)
  parse _ _ := true
  sha256 _ := samplePin '1'
  bootstrapVerificationCode _ _ := "code"
  codec := sampleCodec
  homeEnrollmentAuthority := some "enrollment-1"
  defaultValidDays := 365

def sampleSubmission : Submission := ⟨"home-2", List.replicate 32 7, [123, 125]⟩

def sampleSigning : Signing where
  deploymentTrust := ⟨"7b7d", "0"⟩
  managementCertificatePem := "management"
  businessCertificatePem := "business"
  signedEndpointCredential := ⟨"enrollment-1", "cc", "b"⟩
  grant := ⟨"enrollment-1", "dd", "b"⟩

/-- The request is submitted. -/
def submitted : List Action :=
  [.submit sampleSubmission 1000, .get 0 1000, .count 0 0, .write 0 true]

/-- An operator approves the request for a profile. -/
def sampleApprove (profile : HomeEnrollmentProfile) (credentialId : Uuid) : Action :=
  .approve { profile := profile, password := "password" } none 2000 credentialId

/-- It is approved, approved again for the same profile and for another, and retrieved. -/
def repeatedApproval : List Action :=
  submitted ++ [sampleApprove .servingOnly 1, .acquire 1 true, .issue 1 (some sampleSigning),
    .write 1 true, sampleApprove .servingOnly 2, sampleApprove .globalIssuer 3,
    .submit sampleSubmission 3000, .get 2 3000]

/-- Two approvals have read the pending record; the second one takes the permit after the first. -/
def overlappingApprovals : List Action :=
  submitted ++ [sampleApprove .servingOnly 1, sampleApprove .globalIssuer 2, .acquire 1 true,
    .issue 1 (some sampleSigning), .write 1 true, .submit sampleSubmission 3000, .get 3 3000,
    .acquire 2 true, .issue 2 (some sampleSigning), .write 2 true, .submit sampleSubmission 4000,
    .get 4 4000]

/-- The credentials that were stored and returned, and the profiles that were reported. -/
def Sys.credentials (s : Sys) : List Uuid × List Uuid × List HomeEnrollmentProfile :=
  (s.stored.map (·.response.approval.credentialId),
    s.returned.map (·.response.approval.credentialId), s.reports.map (·.1))

theorem once_of_inTurn_repeatedApproval :
    ∃ s, (machine sampleEnv 1 none).execWhere (fun s a => s.inTurn a = true)
      repeatedApproval = some s ∧
      s.credentials = ([1], [1], [.servingOnly, .servingOnly]) ∧ Once sampleEnv.codec s := by
  have hrun : ((machine sampleEnv 1 none).execWhere (fun s a => s.inTurn a = true)
      repeatedApproval).map (·.credentials) =
        some ([1], [1], [.servingOnly, .servingOnly]) := by
    decide
  obtain ⟨s, hs, hcredentials⟩ := Option.map_eq_some_iff.mp hrun
  exact ⟨s, hs, hcredentials, once_of_inTurn (Machine.reachableWhere_of_execWhere hs)⟩

/-- The Home is handed two identities, one after the other. -/
theorem not_once_of_reachable :
    (∃ s, (machine sampleEnv 1 none).exec overlappingApprovals = some s ∧
      s.credentials = ([1, 2], [1, 2], [.servingOnly, .globalIssuer])) ∧
    ¬ ∀ s, (machine sampleEnv 1 none).Reachable s → Once sampleEnv.codec s := by
  have hrun : ((machine sampleEnv 1 none).exec overlappingApprovals).map (·.credentials) =
      some ([1, 2], [1, 2], [.servingOnly, .globalIssuer]) := by
    decide
  obtain ⟨s, hs, hcredentials⟩ := Option.map_eq_some_iff.mp hrun
  refine ⟨⟨s, hs, hcredentials⟩, fun hall => ?_⟩
  have honce := hall s (Machine.reachable_of_exec hs)
  have hstored : s.stored.map (·.response.approval.credentialId) = [1, 2] :=
    congrArg Prod.fst hcredentials
  obtain ⟨r, hr, hone⟩ := List.mem_map.mp (hstored ▸ List.mem_cons_self : 1 ∈ _)
  obtain ⟨r', hr', htwo⟩ := List.mem_map.mp
    (hstored ▸ List.mem_cons_of_mem 1 (List.mem_singleton_self 2) : 2 ∈ _)
  rw [honce.stored r hr r' hr', htwo] at hone
  cases hone

end FlowSplice.Inbox.Home
