import FlowSplice.Inbox.Travel
import FlowSplice.Issuance.Directed
import FlowSplice.Lib.SocketAddr

/-! The first enrollment of a Travel for a business or a service class, up to the request that it
submits: `flowsplice-travel-core/src/service_class.rs`, `business.rs` and `lib.rs`; and what the
Home checks of it before it signs: `homeagent/src/main.rs`. -/
namespace FlowSplice

def trim (s : String) : String :=
  String.ofList ((s.toList.dropWhile isWhitespace).reverse.dropWhile isWhitespace).reverse

def normalizedTrustedRoot (root : String) : Option String :=
  if validP256PublicKey (trim root) then
    some (String.ofList ((trim root).toList.map Char.toLower))
  else none

def requireTrustedRoot (received trusted : String) : Option String := do
  let trusted ← normalizedTrustedRoot trusted
  let received ← normalizedTrustedRoot received
  ensure (received == trusted)
  return trusted

/-- `BusinessTravelRequest::validate`. -/
def BusinessTravelRequest.validate (codec : EnrollmentCodec) (self : BusinessTravelRequest)
    (trust : DeploymentTrust) (approvingHome : String) (now : ℕ) : Bool :=
  validateKind self.version self.objectType businessTravelRequestType &&
    (parseEnrollmentRequest codec self.request now).isSome &&
    (self.descriptor.verify codec.toCodec trust now).any (·.approvingHomeId == approvingHome)

/-- `ServiceClassTravelRequest::validate`. -/
def ServiceClassTravelRequest.validate (codec : EnrollmentCodec) (self : ServiceClassTravelRequest)
    (approvingHome : String) (now : ℕ) : Bool :=
  validateKind self.version self.objectType serviceClassTravelRequestType &&
    validateClientLabel self.label && (parseEnrollmentRequest codec self.request now).isSome &&
    self.descriptor.validate && self.descriptor.approvingHomeId == approvingHome

def prepareEnrollmentApproval (codec : EnrollmentCodec) (request : TravelEnrollmentRequest)
    (validForSecs : ℕ) (authorityId : String) (scope : TravelCredentialScope) (credentialId : Uuid)
    (now : ℕ) : Option TravelEnrollmentApproval := do
  let _ ← parseEnrollmentRequest codec request now
  ensure (!authorityId.isEmpty && validForSecs != 0 &&
    decide (validForSecs ≤ maxValidDays * 24 * 60 * 60) && decide (now + validForSecs < 2 ^ 64))
  return {
    credentialId := credentialId
    authorityId := authorityId
    scope := scope
    request := request
    notBeforeUnixSecs := now - 300
    notAfterUnixSecs := now + validForSecs }

namespace FirstEnrollment

def minPrivateKeyPasswordCharacters : ℕ := 12

/-- What lies outside this repository: X.509, and the JSON of a request. -/
structure FirstCodec extends EnrollmentCodec where
  createCsr : (travelId publicKeyInfo : String) → String
  requestJson : TravelRequestEnvelope → List UInt8
  requestOfJson : List UInt8 → Option TravelRequestEnvelope
  bytesSha256 : List UInt8 → String
  bootstrapVerificationCode : (requestJson token : List UInt8) → String

/-- What a first enrollment is for. -/
inductive EnrollmentIntent where
  | business (descriptor : BusinessDescriptor)
  | serviceClass (descriptor : ServiceClassDescriptor) (label : String)
deriving DecidableEq, Repr

def EnrollmentIntent.approvingHomeId : EnrollmentIntent → String
  | .business descriptor => descriptor.approvingHomeId
  | .serviceClass descriptor _ => descriptor.approvingHomeId

def EnrollmentIntent.envelope (intent : EnrollmentIntent) (request : TravelEnrollmentRequest) :
    TravelRequestEnvelope :=
  match intent with
  | .business descriptor =>
    .business
      { objectType := businessTravelRequestType
        request := request
        descriptor := descriptor }
  | .serviceClass descriptor label =>
    .serviceClass
      { objectType := serviceClassTravelRequestType
        request := request
        descriptor := descriptor
        label := label }

/-- What is drawn at random for a request: its id, its nonce, two keys and the retrieval token. -/
structure FreshRequest where
  requestId : Uuid
  nonce : String
  managementKey : String
  businessKey : String
  token : List UInt8
  requestId_ne : requestId ≠ 0
  nonce_hex : isHexOf 32 (stringBytes nonce) = true
  keys_ne : managementKey ≠ businessKey
  token_length : token.length = 32

/-- What a call meets: the answer of the Relay to the discovery, what it draws, and the clock when
the trust is verified, when the descriptor is, and when the request is created. -/
structure Surroundings where
  deploymentRootPublicKey : String
  deploymentTrust : SignedDeploymentTrust
  fresh : FreshRequest
  discoveredAt : ℕ
  verifiedAt : ℕ
  createdAt : ℕ
  discovered_le : discoveredAt ≤ verifiedAt
  verified_le : verifiedAt ≤ createdAt

structure BootstrapEnrollmentState where
  version : ℕ := Inbox.remoteEnrollmentVersion
  homeId : String
  requestId : Uuid
  retrievalToken : List UInt8
  intent : EnrollmentIntent
deriving DecidableEq, Repr

/-- An install directory: whether it is a file, which bindings are complete, the enrollment
directory with its request, and the state that makes it resumable. -/
structure Installation where
  isFile : Bool := false
  classBinding : Bool := false
  businessBinding : Bool := false
  enrollmentDirectory : Bool := false
  request : Option TravelEnrollmentRequest := none
  bootstrap : Option BootstrapEnrollmentState := none
deriving DecidableEq, Repr

def Installation.completed (installation : Installation) : EnrollmentIntent → Bool
  | .business _ => installation.businessBinding
  | .serviceClass _ _ => installation.classBinding

def createEnrollmentRequest (codec : FirstCodec) (travelId : String) (fresh : FreshRequest)
    (now : ℕ) : Option TravelEnrollmentRequest := do
  ensure (validateIdentityId travelId)
  return {
    requestId := fresh.requestId
    nonce := fresh.nonce
    travelId := travelId
    createdAtUnixSecs := now
    managementCsrPem := codec.createCsr travelId fresh.managementKey
    businessCsrPem := codec.createCsr travelId fresh.businessKey }

/-- What `enroll_remote_intent` checks of its intent at the two ends of the discovery. -/
def EnrollmentIntent.check (codec : FirstCodec) (intent : EnrollmentIntent) (homeId : String)
    (trust : DeploymentTrust) (now : ℕ) : Bool :=
  match intent with
  | .business descriptor =>
    (descriptor.verify codec.toCodec trust now).any (·.approvingHomeId == homeId)
  | .serviceClass descriptor _ => descriptor.validate && descriptor.approvingHomeId == homeId

/-- The request and the token of an earlier call, or new ones. -/
def Installation.resume (codec : FirstCodec) (installation : Installation)
    (travelId homeId : String) (intent : EnrollmentIntent) (fresh : FreshRequest) (now : ℕ) :
    Option (Installation × TravelEnrollmentRequest × List UInt8) :=
  match installation.bootstrap with
  | some state => do
    ensure (state.version == Inbox.remoteEnrollmentVersion && state.homeId == homeId &&
      state.intent == intent)
    let request ← installation.request
    ensure (request.requestId == state.requestId && request.travelId == travelId &&
      state.retrievalToken.length == 32)
    return (installation, request, state.retrievalToken)
  | none => do
    ensure (!installation.enrollmentDirectory)
    let request ← createEnrollmentRequest codec travelId fresh now
    return ({ installation with
        enrollmentDirectory := true
        request := some request
        bootstrap := some {
          homeId := homeId
          requestId := request.requestId
          retrievalToken := fresh.token
          intent := intent } },
      request, fresh.token)

/-- What a call submits until it is answered, under its request id. -/
structure Submitted where
  requestId : Uuid
  submission : Inbox.Submission
deriving DecidableEq, Repr

/-- A Home with an issuer. -/
structure ApprovingHome where
  id : String
  deploymentRootPublicKey : String
  deploymentTrust : SignedDeploymentTrust
  services : List (String × ServiceProtocol)
  homeAuthority : String
  globalAuthority : Option String
  defaultValidDays : ℕ
  allowUnencryptedTestKeys : Bool
deriving DecidableEq, Repr

namespace ApprovingHome

/-- `load_home_trust`. -/
def loadTrust (codec : FirstCodec) (home : ApprovingHome) (now : ℕ) : Option DeploymentTrust :=
  home.deploymentTrust.verify codec.toCodec home.deploymentRootPublicKey now

/-- What `persist_remote_enrollment_request` checks of a decoded request. -/
def valid (codec : FirstCodec) (home : ApprovingHome) (request : TravelRequestEnvelope)
    (now : ℕ) : Bool :=
  match request with
  | .serviceClass request =>
    (home.loadTrust codec now).isSome && request.validate codec.toEnrollmentCodec home.id now &&
      home.globalAuthority.isSome
  | .business request =>
    (home.loadTrust codec now).any fun trust =>
      request.validate codec.toEnrollmentCodec trust home.id now && home.globalAuthority.isSome
  | .legacy request => (parseEnrollmentRequest codec.toEnrollmentCodec request now).isSome

def env (codec : FirstCodec) (home : ApprovingHome) : Inbox.Env where
  id := home.id
  decode := codec.requestOfJson
  valid := home.valid codec
  sha256 := codec.bytesSha256
  bootstrapVerificationCode := codec.bootstrapVerificationCode

end ApprovingHome

/-- `persist_remote_enrollment_request`, given the record under the id and how many there are. -/
def persistRemoteEnrollmentRequest (env : Inbox.Env) (submitted : Submitted)
    (existing : Option Inbox.RemoteEnrollmentInboxRecord) (records now : ℕ) :
    Option Inbox.RemoteEnrollmentInboxRecord := do
  let request ← submitted.submission.check env submitted.requestId now
  match existing with
  | some record =>
    ensure (record.version == Inbox.remoteEnrollmentVersion &&
      record.travelId == submitted.submission.travelId &&
      record.homeId == submitted.submission.homeId && record.request == request &&
      record.bootstrapTokenSha256 == submitted.submission.bootstrapToken.map env.sha256)
    return record
  | none =>
    ensure (Inbox.remoteEnrollmentCapacityAvailable records Inbox.maxRemoteEnrollmentInboxRecords)
    return submitted.submission.record env request now

/-- What the operator of a Home decides. -/
structure Decision where
  validDays : Option ℕ := none
  validMinutes : Option ℕ := none
  scope : TravelCredentialScope
  password : String
deriving DecidableEq, Repr

def requestedValiditySecs (validDays validMinutes : Option ℕ) (defaultValidDays : ℕ) : Option ℕ :=
  match validDays, validMinutes with
  | some _, some _ => none
  | none, some minutes =>
    if minutes = 0 ∨ maxValidDays * 24 * 60 * 60 < minutes * 60 then none else some (minutes * 60)
  | validDays, none =>
    let days := validDays.getD defaultValidDays
    if days = 0 ∨ maxValidDays < days then none else some (days * 24 * 60 * 60)

def validateRequestedScope (home : ApprovingHome) (scope : TravelCredentialScope) : Bool :=
  match scope with
  | .serviceClass _ _ => false
  | .global => home.globalAuthority.isSome
  | .home homeId => homeId == home.id
  | .service homeId serviceId protocol =>
    homeId == home.id && home.services.contains (serviceId, protocol)

/-- The authority that `issue_from_home_with_password` signs with. -/
def issuingAuthority (codec : FirstCodec) (home : ApprovingHome) (request : TravelRequestEnvelope)
    (scope : TravelCredentialScope) (now : ℕ) : Option String :=
  match request with
  | .serviceClass request => do
    let _ ← home.loadTrust codec now
    ensure (request.validate codec.toEnrollmentCodec home.id now &&
      scope == request.descriptor.scope)
    home.globalAuthority
  | .business request => do
    let trust ← home.loadTrust codec now
    ensure (request.validate codec.toEnrollmentCodec trust home.id now)
    let target ← request.descriptor.verify codec.toCodec trust now
    ensure (scope == .service target.homeId target.service.serviceId target.service.protocol)
    home.globalAuthority
  | .legacy _ => do
    ensure (validateRequestedScope home scope)
    match scope with
    | .global | .serviceClass _ _ => home.globalAuthority
    | .home _ | .service _ _ _ => some home.homeAuthority

/-- `json_digest` of a request. An envelope is encoded as the request in it. -/
def jsonDigest (codec : FirstCodec) (request : TravelRequestEnvelope) : Option String :=
  if (codec.requestJson request).length ≤ maxPayloadBytes then
    some (codec.bytesSha256 (codec.requestJson request))
  else none

/-- The digest of the request that `issue_business_travel` and `issue_service_class_travel` put into
the approval before they sign it. The descriptor is part of the request, and so is no longer. -/
def approvedDigest (codec : FirstCodec) (request : TravelRequestEnvelope) :
    Option (Option String) :=
  match request with
  | .serviceClass _ | .business _ => (jsonDigest codec request).map some
  | .legacy _ => some none

/-- `issue_from_home_with_password` up to the signing, with the approval that it then signs. A
request that is in the ledger is not signed again. -/
def checkIssue (fingerprint : TravelEnrollmentRequest → String) (codec : FirstCodec)
    (home : ApprovingHome) (ledger : Issuance.LedgerState) (request : TravelRequestEnvelope)
    (decision : Decision) (credentialId : Uuid) (active : Bool) (now : ℕ) :
    Option (Option TravelEnrollmentApproval) := do
  let validForSecs ←
    requestedValiditySecs decision.validDays decision.validMinutes home.defaultValidDays
  let authorityId ← issuingAuthority codec home request decision.scope now
  match ledger.decision fingerprint request ⟨authorityId, decision.scope, validForSecs⟩ active with
  | .refuse => none
  | .reuse _ | .publish _ => return none
  | .issue => do
    ensure (!decision.password.isEmpty || home.allowUnencryptedTestKeys)
    let approval ← prepareEnrollmentApproval codec.toEnrollmentCodec request.request validForSecs
      authorityId decision.scope credentialId now
    let _ ← approvedDigest codec request
    return some approval

/-- `approve_remote_enrollment` up to the signing. -/
def checkApprove (fingerprint : TravelEnrollmentRequest → String) (codec : FirstCodec)
    (home : ApprovingHome) (ledger : Issuance.LedgerState)
    (record : Inbox.RemoteEnrollmentInboxRecord) (decision : Decision) (credentialId : Uuid)
    (active : Bool) (now : ℕ) : Option (Option TravelEnrollmentApproval) := do
  ensure (record.travelId == record.request.request.travelId && record.homeId == home.id)
  checkIssue fingerprint codec home ledger record.request decision credentialId active now

end FirstEnrollment
end FlowSplice
