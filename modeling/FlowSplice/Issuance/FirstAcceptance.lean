import FlowSplice.Issuance.FirstRequest
import FlowSplice.Issuance.HomeBinding

/-! What a Travel accepts for a first enrollment and what its Home then checks of it differ in three
characters of a label and in the size of the request: the Home keeps a request that it may then find
too long to approve. -/
namespace FlowSplice

theorem SignedHomeEndpointCredential.verify_later {codec : Codec}
    {signed : SignedHomeEndpointCredential} {trust : DeploymentTrust}
    {endpoint : HomeEndpointCredential} {now later : ℕ}
    (h : signed.verify codec trust now = some endpoint) (hle : now ≤ later)
    (hlt : later < endpoint.notAfterUnixSecs) :
    signed.verify codec trust later = some endpoint := by
  unfold verify at h ⊢
  obtain ⟨hbinding, htime⟩ := Option.filter_eq_some_iff.mp h
  simp only [HomeEndpointCredential.validateTime, Bool.and_eq_true, decide_eq_true_eq] at htime
  have hbegun : endpoint.notBeforeUnixSecs ≤ later + maxClockSkewSecs := by omega
  rw [Option.filter_eq_some_iff]
  exact ⟨hbinding, by simp [HomeEndpointCredential.validateTime, hbegun, hlt]⟩

/-- A grant that verifies does so until it expires, which is not after its endpoint and its trust
do. -/
theorem SignedHomeServiceGrant.verify_later {codec : Codec} {signed : SignedHomeServiceGrant}
    {trust : DeploymentTrust} {endpoint : SignedHomeEndpointCredential} {grant : HomeServiceGrant}
    {now later : ℕ} (h : signed.verify codec trust endpoint now = some grant) (hle : now ≤ later) :
    signed.verify codec trust endpoint later =
        (if later < grant.notAfterUnixSecs then some grant else none) ∧
      grant.notAfterUnixSecs ≤ trust.notAfterUnixSecs := by
  have hsigned := h
  unfold verify at h ⊢
  obtain ⟨payload, hendpoint, h⟩ := Option.bind_eq_some_iff.mp h
  obtain ⟨hbinding, htime⟩ := Option.filter_eq_some_iff.mp h
  simp only [Bool.and_eq_true, decide_eq_true_eq] at htime
  obtain ⟨authority, hgrants⟩ := SignedHomeServiceGrant.exists_grants hsigned hendpoint
  have hbound : grant.notAfterUnixSecs ≤ payload.notAfterUnixSecs := hgrants.notAfter
  have hpayload := (Option.filter_eq_some_iff.mp hendpoint).1
  have htrust : payload.notAfterUnixSecs ≤ trust.notAfterUnixSecs :=
    (SignedHomeEndpointCredential.verifyTrustBinding_spec hpayload).2.2
  refine ⟨?_, hbound.trans htrust⟩
  by_cases hlt : later < grant.notAfterUnixSecs
  · have hlater := SignedHomeEndpointCredential.verify_later hendpoint hle (hlt.trans_le hbound)
    have hbegun : grant.notBeforeUnixSecs ≤ later + maxClockSkewSecs := by omega
    simp [hlater, hbinding, Option.filter, hbegun, hlt]
  · rw [if_neg hlt]
    cases hlater : endpoint.verify codec trust later with
    | none => rfl
    | some _ => simp [hbinding, Option.filter, hlt]

/-- A descriptor that verifies does so until its grant expires. -/
theorem BusinessDescriptor.verify_later {codec : Codec} {descriptor : BusinessDescriptor}
    {trust : DeploymentTrust} {target : VerifiedBusinessDescriptor} {now later : ℕ}
    (h : descriptor.verify codec trust now = some target) (hle : now ≤ later) :
    ∃ grant, codec.grant descriptor.grant.payloadHex = some grant ∧
      descriptor.verify codec trust later =
        (if later < grant.notAfterUnixSecs then some target else none) ∧
      grant.notAfterUnixSecs ≤ trust.notAfterUnixSecs ∧ target.homeId = grant.homeId ∧
      target.approvingHomeId = descriptor.approvingHomeId ∧
      grant.services.find? (·.serviceId == descriptor.serviceId) = some target.service := by
  simp only [verify, Option.bind_eq_bind, Option.bind_eq_some_iff, Option.pure_def,
    Option.some.injEq, ensure_eq_some] at h
  obtain ⟨_, hversion, grant, hgrant, authority, hauthority, _, hissuer, service, hservice,
    rfl⟩ := h
  obtain ⟨hlater, hbound⟩ := SignedHomeServiceGrant.verify_later hgrant hle
  refine ⟨grant, SignedHomeServiceGrant.payload_of_verify hgrant, ?_, hbound, rfl, rfl, hservice⟩
  unfold verify
  rw [hlater]
  split
  · simp only [ensure, hversion, hauthority, hissuer, hservice, if_true, Option.bind_eq_bind,
      Option.bind_some, Option.pure_def]
  · simp only [ensure, hversion, if_true, Option.bind_eq_bind, Option.bind_some, Option.bind_none]

theorem SignedDeploymentTrust.verify_lasts {codec : Codec} {signed : SignedDeploymentTrust}
    {root : String} {trust : DeploymentTrust} {now later : ℕ}
    (h : signed.verify codec root now = some trust) (hle : now ≤ later) :
    codec.trust signed.payloadHex = some trust ∧ signed.verify codec root later =
      (if later < trust.notAfterUnixSecs then some trust else none) := by
  have hpayload := payload_of_verify h
  refine ⟨hpayload, ?_⟩
  by_cases hlt : later < trust.notAfterUnixSecs
  · rw [if_pos hlt]
    exact SignedDeploymentTrust.verify_later h hle hlt
  · have hexpired : trust.validateAt later = false := by
      simp [DeploymentTrust.validateAt, hlt]
    rw [if_neg hlt, verify, hpayload]
    simp [Option.filter, hexpired]

namespace FirstEnrollment

/-- What the Travel has verified has not expired: the trust, and the grant of a descriptor. -/
def EnrollmentIntent.lasts (codec : Codec) (signedTrust : SignedDeploymentTrust) (now : ℕ) :
    EnrollmentIntent → Bool
  | .business descriptor =>
    (codec.grant descriptor.grant.payloadHex).any fun grant => decide (now < grant.notAfterUnixSecs)
  | .serviceClass _ _ =>
    (codec.trust signedTrust.payloadHex).any fun trust => decide (now < trust.notAfterUnixSecs)

def EnrollmentIntent.requestedScope (codec : Codec) :
    EnrollmentIntent → Option TravelCredentialScope
  | .business descriptor => do
    let grant ← codec.grant descriptor.grant.payloadHex
    let service ← grant.services.find? (·.serviceId == descriptor.serviceId)
    return .service grant.homeId service.serviceId service.protocol
  | .serviceClass descriptor _ => some descriptor.scope

/-- What is relied on outside this repository: a CSR proves its key and names its Travel, and the
JSON of a request can be read back. -/
structure Faithful (codec : FirstCodec) (travelId : String) (intent : EnrollmentIntent)
    (around : Surroundings) : Prop where
  csr : ∀ key ∈ [around.fresh.managementKey, around.fresh.businessKey],
    codec.csr (codec.createCsr travelId key) =
      some ⟨key, true, [some ("flowsplice://identity/travel/" ++ travelId)], [.clientAuth]⟩
  json : ∀ request, createEnrollmentRequest codec travelId around.fresh around.createdAt =
      some request →
    codec.requestJson (intent.envelope request) ≠ [] ∧
    codec.requestOfJson (codec.requestJson (intent.envelope request)) =
      some (intent.envelope request)

/-- A Home that is asked, with its inbox and its ledger, and what its operator decides. -/
structure Visit where
  home : ApprovingHome
  existing : Option Inbox.RemoteEnrollmentInboxRecord
  records : ℕ
  ledger : Issuance.LedgerState
  decision : Decision
  credentialId : Uuid
  active : Bool

/-- The request is persisted, and passes what is checked of it up to the signing. -/
def Visit.accepts (fingerprint : TravelEnrollmentRequest → String) (codec : FirstCodec)
    (visit : Visit) (submitted : Submitted) (now : ℕ) : Bool :=
  ((persistRemoteEnrollmentRequest (visit.home.env codec) submitted visit.existing visit.records
    now).bind fun record => checkApprove fingerprint codec visit.home visit.ledger record
      visit.decision visit.credentialId visit.active now).isSome

/-- An honest approving Home with the same trust and a global issuer: its inbox has room, or has the
record of this submission; nothing was issued for the request; and its operator approves what was
requested, for a time that is allowed. -/
structure Visit.Honest (fingerprint : TravelEnrollmentRequest → String) (codec : FirstCodec)
    (visit : Visit) (root : String) (intent : EnrollmentIntent) (around : Surroundings)
    (request : TravelEnrollmentRequest) (submitted : Submitted) (now : ℕ) : Prop where
  id : visit.home.id = intent.approvingHomeId
  root : requireTrustedRoot around.deploymentRootPublicKey root =
    some visit.home.deploymentRootPublicKey
  trust : visit.home.deploymentTrust = around.deploymentTrust
  globalAuthority : ∃ authority, visit.home.globalAuthority = some authority ∧
    authority.isEmpty = false
  inbox : visit.existing = none ∧ visit.records < Inbox.maxRemoteEnrollmentInboxRecords ∨
    ∃ received, visit.existing =
      some (submitted.submission.record (visit.home.env codec) (intent.envelope request) received)
  ledger : visit.ledger.find fingerprint request = .ok none
  validity : ∃ validForSecs, requestedValiditySecs visit.decision.validDays
      visit.decision.validMinutes visit.home.defaultValidDays = some validForSecs ∧
    now + validForSecs < 2 ^ 64
  scope : intent.requestedScope codec.toCodec = some visit.decision.scope
  password : visit.decision.password.isEmpty = false

variable {fingerprint : TravelEnrollmentRequest → String} {codec : FirstCodec}
  {options : BusinessEnrollmentOptions} {intent : EnrollmentIntent} {around : Surroundings}
  {installation installation' : Installation} {submitted : Submitted}
  {request : TravelEnrollmentRequest} {visit : Visit} {now : ℕ}

/-- The trust of an honest Home verifies for as long as that of the discovery. -/
theorem Visit.Honest.loadTrust {root key : String} {trust : DeploymentTrust}
    (honest : visit.Honest fingerprint codec root intent around request submitted now)
    (hroot : requireTrustedRoot around.deploymentRootPublicKey root = some key)
    (htrust : around.deploymentTrust.verify codec.toCodec key around.discoveredAt = some trust)
    (hle : around.discoveredAt ≤ now) :
    visit.home.loadTrust codec now =
      if now < trust.notAfterUnixSecs then some trust else none := by
  have hkey : visit.home.deploymentRootPublicKey = key := by
    have hsame := honest.root
    rw [hroot] at hsame
    exact (Option.some.inj hsame).symm
  rw [ApprovingHome.loadTrust, hkey, honest.trust]
  exact (SignedDeploymentTrust.verify_lasts htrust hle).2

def sampleFirstRequest : TravelEnrollmentRequest where
  requestId := 1
  nonce := samplePin '9'
  travelId := "travel-1"
  createdAtUnixSecs := 1000
  managementCsrPem := "management"
  businessCsrPem := "business"

def sampleFirstIntent (label : String) : EnrollmentIntent :=
  .serviceClass
    { approvingHomeId := "home-1"
      applicationProtocol := "http"
      protocol := .tcp }
    label

def sampleInstallation (label : String) : Installation where
  enrollmentDirectory := true
  request := some sampleFirstRequest
  bootstrap := some
    { homeId := "home-1"
      requestId := 1
      retrievalToken := List.replicate 32 0
      intent := sampleFirstIntent label }

end FirstEnrollment
end FlowSplice
