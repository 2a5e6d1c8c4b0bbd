import FlowSplice.Lib.Machine
import FlowSplice.Authorization.Credential

/-! The authorization state of the Server, which it persists before it publishes:
`server/src/authorization.rs`. -/
namespace FlowSplice

def authorizationStateVersion : ℕ := 1
def maxHomeEndpointCredentials : ℕ := 64
def maxCredentials : ℕ := 2048
def maxRevocations : ℕ := 2048
def maxStateBytes : ℕ := 900 * 1024

structure PersistentAuthorizationState where
  version : ℕ := authorizationStateVersion
  snapshot : TravelAuthorizationSnapshot := { generation := 1 }
  usedEnrollmentRequests : Finset String := ∅
  businessHomeGrants : List (String × SignedHomeServiceGrant) := []
deriving DecidableEq

/-- The state file. The legacy encoding has no Home endpoint credentials. -/
structure AuthorizationFile where
  state : PersistentAuthorizationState
  legacy : Bool := false
deriving DecidableEq

inductive AuthorizationError where
  | generationExhausted
  | snapshotInvalid
  | stateInvalid
  | tooLarge
  | notStored
  | unknownAuthority
  | foreignAuthority
  | credentialInvalid
  | credentialConflict
  | requestUsed
  | unknownCredential
  | endpointInvalid
  | endpointConflict
  | grantInvalid
  | grantConflict
  | genericHome
  | staticHome
deriving DecidableEq, Repr

/-- What `store_json_atomic` does to the file: it may fail after the file was replaced. -/
inductive StoreOutcome where
  | stored
  | replaced
  | unchanged
deriving DecidableEq, Repr

/-- The Server: its codec, its deployment trust, and the length of an encoded state. -/
structure ServerConfig where
  codec : AuthorizationCodec
  trust : DeploymentTrust
  encodedLen : PersistentAuthorizationState → ℕ

structure ServerAuthorization where
  authorities : List TrustedTravelAuthority
  snapshot : TravelAuthorizationSnapshot
  verified : VerifiedAuthorization
  usedEnrollmentRequests : Finset String
  businessHomeGrants : List (String × SignedHomeServiceGrant)

namespace TravelAuthorizationSnapshot

/-- `checked_add` on the generation. -/
def bump (snapshot : TravelAuthorizationSnapshot) :
    Except AuthorizationError TravelAuthorizationSnapshot :=
  if snapshot.generation + 1 < 2 ^ 64 then
    .ok { snapshot with generation := snapshot.generation + 1 }
  else .error .generationExhausted

end TravelAuthorizationSnapshot

def orError {ε α : Type*} (error : ε) : Option α → Except ε α
  | some a => .ok a
  | none => .error error

namespace ServerConfig
variable (config : ServerConfig)

def validateStateSize (state : PersistentAuthorizationState) : Bool :=
  decide (state.snapshot.homeEndpointCredentials.length ≤ maxHomeEndpointCredentials) &&
    decide (state.snapshot.credentials.length ≤ maxCredentials) &&
    decide (state.snapshot.revocations.length ≤ maxRevocations) &&
    decide (config.encodedLen state ≤ maxStateBytes)

def validateBusinessGrants (state : PersistentAuthorizationState) : Bool :=
  state.businessHomeGrants.all fun (homeId, grant) =>
    state.snapshot.homeEndpointCredentials.any fun endpoint =>
      (grant.verifyBinding config.codec.toCodec config.trust endpoint).any (·.homeId == homeId)

/-- The authorities that a snapshot is verified against, by the Server and by its followers. -/
def authorities (snapshot : TravelAuthorizationSnapshot) : Option (List TrustedTravelAuthority) :=
  config.trust.travelAuthoritiesWithHomeDelegations config.codec.toCodec
    snapshot.homeEndpointCredentials

def verify (snapshot : TravelAuthorizationSnapshot) (authorities : List TrustedTravelAuthority) :
    Option VerifiedAuthorization :=
  VerifiedAuthorization.verify config.codec snapshot authorities config.trust.deploymentId

def fromState (authorities : List TrustedTravelAuthority) (state : PersistentAuthorizationState) :
    Except AuthorizationError ServerAuthorization :=
  if !validateTrustedAuthorities authorities || state.version != authorizationStateVersion then
    .error .stateInvalid
  else if !config.validateStateSize state then .error .tooLarge
  else
    match config.verify state.snapshot authorities with
    | none => .error .snapshotInvalid
    | some verified =>
      if ∀ credential ∈ verified.credentials,
          credential.enrollmentRequestSha256 ∈ state.usedEnrollmentRequests then
        .ok ⟨authorities, state.snapshot, verified, state.usedEnrollmentRequests,
          state.businessHomeGrants⟩
      else .error .stateInvalid

end ServerConfig

namespace ServerAuthorization
variable (config : ServerConfig) (server : ServerAuthorization)

/-- The state that `persist_with_grants` writes. -/
def state : PersistentAuthorizationState where
  snapshot := server.snapshot
  usedEnrollmentRequests := server.usedEnrollmentRequests
  businessHomeGrants := server.businessHomeGrants

/-- `persist_with_grants`: whether it succeeds, and the file after it. -/
def persist (file : AuthorizationFile) (outcome : StoreOutcome) :
    Except AuthorizationError Unit × AuthorizationFile :=
  if !config.validateStateSize server.state then (.error .tooLarge, file)
  else match outcome with
    | .stored => (.ok (), { state := server.state })
    | .replaced => (.error .notStored, { state := server.state })
    | .unchanged => (.error .notStored, file)

/-- The Server with another snapshot, verified against these authorities. -/
def withSnapshot (snapshot : TravelAuthorizationSnapshot)
    (authorities : List TrustedTravelAuthority) :
    Except AuthorizationError ServerAuthorization :=
  match config.verify snapshot authorities with
  | some verified =>
    .ok { server with snapshot := snapshot, authorities := authorities, verified := verified }
  | none => .error .snapshotInvalid

/-- A snapshot with one more Home endpoint, verified against the authorities it delegates to. -/
def withHomeEndpoint (endpoint : SignedHomeEndpointCredential) :
    Except AuthorizationError ServerAuthorization := do
  let bumped ← server.snapshot.bump
  let proposed := { bumped with
    homeEndpointCredentials := bumped.homeEndpointCredentials ++ [endpoint] }
  let authorities ← orError .snapshotInvalid (config.authorities proposed)
  server.withSnapshot config proposed authorities

/-- `import_home_endpoint` up to its write; `none` when nothing changes. -/
def importHomeEndpoint (signed : SignedHomeEndpointCredential) (now : ℕ) :
    Except AuthorizationError (Option ServerAuthorization) := do
  let codec := config.codec.toCodec
  let endpoint ← orError .endpointInvalid (signed.verify codec config.trust now)
  if (server.businessHomeGrants.lookup endpoint.homeId).any fun grant =>
      (grant.verifyBinding codec config.trust signed).isNone then
    .error .grantInvalid
  else
    match server.snapshot.homeEndpointCredentials.find? fun existing =>
        (existing.verify codec config.trust now).any (·.homeId == endpoint.homeId) with
    | some existing => if existing = signed then pure none else .error .endpointConflict
    | none => some <$> server.withHomeEndpoint config signed

/-- `import_business_home` up to its write. -/
def importBusinessHome (endpoint : SignedHomeEndpointCredential) (grant : SignedHomeServiceGrant)
    (now : ℕ) : Except AuthorizationError (Option ServerAuthorization) := do
  let codec := config.codec.toCodec
  let approved ← orError .grantInvalid (grant.verify codec config.trust endpoint now)
  match server.businessHomeGrants.lookup approved.homeId with
  | some existing =>
    if existing ≠ grant then .error .grantConflict
    else if endpoint ∉ server.snapshot.homeEndpointCredentials then .error .endpointConflict
    else pure none
  | none =>
    if endpoint ∈ server.snapshot.homeEndpointCredentials then .error .genericHome
    else if server.snapshot.homeEndpointCredentials.any fun existing =>
        (existing.verify codec config.trust now).any (·.homeId == approved.homeId) then
      .error .endpointConflict
    else if config.trust.homeEndpoints.any (·.homeId == approved.homeId) then .error .staticHome
    else
      let next ← server.withHomeEndpoint config endpoint
      pure (some { next with
        businessHomeGrants := server.businessHomeGrants ++ [(approved.homeId, grant)] })

/-- `revoke_from_home` up to its write. -/
def revokeFromHome (credentialId : Uuid) (reason publisherHomeId : String) (now : ℕ) :
    Except AuthorizationError (Option ServerAuthorization) := do
  let credential ← orError .unknownCredential (server.verified.credential credentialId)
  let authority ← orError .unknownAuthority
    (server.authorities.find? (·.id == credential.authorityId))
  if authority.homeId ≠ some publisherHomeId then .error .foreignAuthority
  else if server.snapshot.revocations.any (·.credentialId == credentialId) then pure none
  else
    let bumped ← server.snapshot.bump
    some <$> server.withSnapshot config
      { bumped with revocations := bumped.revocations ++ [⟨credentialId, now, reason⟩] }
      server.authorities

/-- `import_credential` up to its write. -/
def importCredential (signed : SignedTravelCredential) (publisherHomeId : String) :
    Except AuthorizationError (Option ServerAuthorization) := do
  let authorityOf (signed : SignedTravelCredential) :=
    server.authorities.find? (·.id == signed.authorityId)
  let authority ← orError .unknownAuthority (authorityOf signed)
  if authority.homeId ≠ some publisherHomeId then .error .foreignAuthority
  else
    let credential ← orError .credentialInvalid (signed.verify config.codec authority)
    match server.snapshot.credentials.find? fun existing =>
        ((authorityOf existing).bind (existing.verify config.codec)).any
          (·.credentialId == credential.credentialId) with
    | some existing =>
      if existing.payloadHex = signed.payloadHex then pure none else .error .credentialConflict
    | none =>
      if credential.enrollmentRequestSha256 ∈ server.usedEnrollmentRequests then
        .error .requestUsed
      else
        let bumped ← server.snapshot.bump
        let next ← server.withSnapshot config
          { bumped with credentials := bumped.credentials ++ [signed] } server.authorities
        pure (some { next with
          usedEnrollmentRequests :=
            insert credential.enrollmentRequestSha256 server.usedEnrollmentRequests })

end ServerAuthorization

/-- `load_with_trust` up to its write. A legacy snapshot is given a new generation. -/
def loadState (config : ServerConfig) (file : AuthorizationFile) :
    Except AuthorizationError ServerAuthorization := do
  if !config.validateBusinessGrants file.state then .error .grantInvalid
  else
    let snapshot ← if file.legacy then file.state.snapshot.bump else pure file.state.snapshot
    let authorities ← orError .snapshotInvalid (config.authorities snapshot)
    config.fromState authorities { file.state with snapshot := snapshot }

/-- `load_with_trust`: what it returns, and the file after it. -/
def loadWithTrust (config : ServerConfig) (file : AuthorizationFile) (outcome : StoreOutcome) :
    Except AuthorizationError ServerAuthorization × AuthorizationFile :=
  match loadState config file with
  | .error error => (.error error, file)
  | .ok server =>
    if file.legacy then
      let (result, file) := server.persist config file outcome
      (result.map fun _ => server, file)
    else (.ok server, file)

namespace AuthorizationServer

/-- `published` logs what followers may be sent: the snapshot after a load, and after each change. -/
structure Sys where
  file : AuthorizationFile
  server : Option ServerAuthorization := none
  published : List TravelAuthorizationSnapshot := []

inductive Action where
  | load (outcome : StoreOutcome)
  | stop
  | importHomeEndpoint (signed : SignedHomeEndpointCredential) (now : ℕ) (outcome : StoreOutcome)
  | importBusinessHome (endpoint : SignedHomeEndpointCredential) (grant : SignedHomeServiceGrant)
      (now : ℕ) (outcome : StoreOutcome)
  | revokeFromHome (credentialId : Uuid) (reason publisherHomeId : String) (now : ℕ)
      (outcome : StoreOutcome)
  | importCredential (signed : SignedTravelCredential) (publisherHomeId : String)
      (outcome : StoreOutcome)

namespace Sys

def load (s : Sys) (config : ServerConfig) (outcome : StoreOutcome) : Option Sys :=
  match s.server, loadWithTrust config s.file outcome with
  | none, (.ok server, file) =>
    some { file, server := some server, published := s.published ++ [server.snapshot] }
  | none, (.error _, file) => some { s with file }
  | some _, _ => none

/-- An operation: what it proposes is persisted, and taken over once it is stored. -/
def operate (s : Sys) (config : ServerConfig)
    (propose : ServerAuthorization → Except AuthorizationError (Option ServerAuthorization))
    (outcome : StoreOutcome) : Option Sys :=
  s.server.map fun server =>
    match propose server with
    | .ok (some next) =>
      match next.persist config s.file outcome with
      | (.ok (), file) =>
        { file, server := some next, published := s.published ++ [next.snapshot] }
      | (.error _, file) => { s with file }
    | _ => s

def step (config : ServerConfig) (s : Sys) : Action → Option Sys
  | .load outcome => s.load config outcome
  | .stop => s.server.map fun _ => { s with server := none }
  | .importHomeEndpoint signed now outcome =>
    s.operate config (·.importHomeEndpoint config signed now) outcome
  | .importBusinessHome endpoint grant now outcome =>
    s.operate config (·.importBusinessHome config endpoint grant now) outcome
  | .revokeFromHome credentialId reason publisherHomeId now outcome =>
    s.operate config (·.revokeFromHome config credentialId reason publisherHomeId now) outcome
  | .importCredential signed publisherHomeId outcome =>
    s.operate config (·.importCredential config signed publisherHomeId) outcome

end Sys

/-- A Server from the state file it finds at first. -/
def machine (config : ServerConfig) (file : AuthorizationFile) : Machine Sys Action where
  start := { file }
  step := Sys.step config

end AuthorizationServer

/-! A Server that knows one credential. -/

def sampleCredential : TravelCredential where
  deploymentId := "deployment-1"
  deploymentTrustSha256 := samplePin '0'
  credentialId := 1
  authorityId := "authority-1"
  authorityEpoch := 1
  enrollmentRequestId := 1
  enrollmentNonce := samplePin '1'
  enrollmentRequestSha256 := samplePin '2'
  travelId := "travel-1"
  managementSpkiSha256 := samplePin '3'
  businessSpkiSha256 := samplePin '4'
  managementCaSha256 := samplePin '5'
  businessCaSha256 := samplePin '6'
  managementCertificateSha256 := samplePin '7'
  businessCertificateSha256 := samplePin '8'
  scope := .home "home-1"
  notBeforeUnixSecs := 1
  notAfterUnixSecs := 100000

def sampleSignedCredential : SignedTravelCredential := ⟨"authority-1", "c1", "b"⟩

/-- Digests of snapshots show their generation. -/
def sampleServer : ServerConfig where
  codec :=
    { sampleCodec with
      credential := fun payloadHex => if payloadHex = "c1" then some sampleCredential else none
      snapshotSha256 := fun snapshot =>
        String.ofList (List.replicate (snapshot.generation % 64) '1' ++
          List.replicate (64 - snapshot.generation % 64) '0') }
  trust := sampleDeployment
  encodedLen _ := 1000

end FlowSplice
