import FlowSplice.Issuance.Validation

/-! Enrollment responses for one business or one service class: `flowsplice-enrollment/src/business.rs`
and the approvals of `flowsplice-core/src/business.rs` and `business/service_class.rs`. -/
namespace FlowSplice

structure VerifiedBusinessDescriptor where
  homeId : String
  approvingHomeId : String
  service : BusinessService
  notAfterUnixSecs : ℕ
deriving DecidableEq, Repr

def BusinessDescriptor.verify (codec : Codec) (descriptor : BusinessDescriptor)
    (trust : DeploymentTrust) (now : ℕ) : Option VerifiedBusinessDescriptor := do
  ensure (descriptor.version == businessVersion)
  let grant ← descriptor.grant.verify codec trust descriptor.endpoint now
  let authority ← trust.homeEnrollmentAuthority grant.authorityId grant.authorityEpoch
  ensure (descriptor.approvingHomeId == authority.issuerHomeId)
  let service ← grant.services.find? (·.serviceId == descriptor.serviceId)
  return ⟨grant.homeId, descriptor.approvingHomeId, service, grant.notAfterUnixSecs⟩

namespace ServiceClassDescriptor

def validate (descriptor : ServiceClassDescriptor) : Bool :=
  descriptor.version == businessVersion && validateToken descriptor.approvingHomeId 128 &&
    validateToken descriptor.applicationProtocol 128

def scope (descriptor : ServiceClassDescriptor) : TravelCredentialScope :=
  .serviceClass descriptor.applicationProtocol descriptor.protocol

/-- The authority is the requested Global issuer. -/
def issuedBy (descriptor : ServiceClassDescriptor) : TrustedTravelAuthority → Bool
  | .global _ _ homeId _ => homeId == descriptor.approvingHomeId
  | .home _ _ _ _ => false

def verifyWithIssuer (codec : Codec) (descriptor : ServiceClassDescriptor)
    (trust : DeploymentTrust) (issuer : Option SignedHomeEndpointCredential) (now : ℕ) : Bool :=
  descriptor.validate && decide (trust.notBeforeUnixSecs ≤ now) &&
    decide (now < trust.notAfterUnixSecs) &&
    (trust.travelAuthoritiesWithHomeDelegations codec issuer.toList).any
      (·.any descriptor.issuedBy)

end ServiceClassDescriptor

/-- `validate` of either approval. They differ in the type and in what an authority id may be. -/
def TravelApproval.validate (objectType : String) (validAuthorityId : String → Bool)
    (approval : TravelApproval) : Bool :=
  approval.version == businessVersion && approval.objectType == objectType &&
    !approval.deploymentId.isEmpty && validAuthorityId approval.authorityId &&
    approval.authorityEpoch != 0 && approval.requestId != 0 &&
    [approval.requestSha256, approval.descriptorSha256, approval.credentialPayloadSha256].all
      validSpkiPin

/-- What a directed approval has to agree with: what the applicant asked for. -/
structure Intent where
  approvingHomeId : String
  issuedBy : TrustedTravelAuthority → Bool
  scope : TravelCredentialScope
  notAfterUnixSecs : ℕ
  requestSha256 : String
  descriptorJson : String

def BusinessDescriptor.intent (codec : EnrollmentCodec) (descriptor : BusinessDescriptor)
    (target : VerifiedBusinessDescriptor) (requestSha256 : String) : Intent where
  approvingHomeId := target.approvingHomeId
  issuedBy authority := authority.homeId == some target.approvingHomeId
  scope := .service target.homeId target.service.serviceId target.service.protocol
  notAfterUnixSecs := target.notAfterUnixSecs
  requestSha256 := requestSha256
  descriptorJson := codec.businessDescriptorJson descriptor

def ServiceClassDescriptor.intent (codec : EnrollmentCodec) (descriptor : ServiceClassDescriptor)
    (trust : DeploymentTrust) (requestSha256 : String) : Intent where
  approvingHomeId := descriptor.approvingHomeId
  issuedBy := descriptor.issuedBy
  scope := descriptor.scope
  notAfterUnixSecs := trust.notAfterUnixSecs
  requestSha256 := requestSha256
  descriptorJson := codec.serviceClassDescriptorJson descriptor

namespace SignedTravelApproval

/-- What the two `verify` have in common. -/
def verify (codec : EnrollmentCodec) (signed : SignedTravelApproval)
    (validate : TravelApproval → Bool) (trust : DeploymentTrust)
    (issuer : Option SignedHomeEndpointCredential) (intent : Intent)
    (credential : SignedTravelCredential) (now : ℕ) : Option TravelCredential := do
  let payload ← (codec.travelApproval signed.payloadHex).filter validate
  let authorities ← trust.travelAuthoritiesWithHomeDelegations codec.toCodec issuer.toList
  let authority ← authorities.find? (·.id == payload.authorityId)
  ensure (intent.issuedBy authority)
  let travel ← credential.verify codec.toAuthorizationCodec authority
  ensure (issuer.all fun issuer => (issuer.verify codec.toCodec trust now).any fun issuer =>
    issuer.homeId == intent.approvingHomeId &&
      decide (travel.notAfterUnixSecs ≤ issuer.notAfterUnixSecs))
  let descriptorSha256 ← payloadDigest codec intent.descriptorJson
  let credentialPayloadSha256 ← payloadDigest codec credential.payloadHex
  ensure (signed.authorityId == payload.authorityId && payload.authorityId == travel.authorityId &&
    payload.authorityEpoch == authority.epoch && payload.deploymentId == trust.deploymentId &&
    travel.deploymentId == trust.deploymentId && payload.requestId == travel.enrollmentRequestId &&
    payload.requestSha256 == intent.requestSha256 && payload.descriptorSha256 == descriptorSha256 &&
    payload.credentialPayloadSha256 == credentialPayloadSha256 && travel.activeAt now &&
    decide (trust.notBeforeUnixSecs ≤ travel.notBeforeUnixSecs) &&
    decide (travel.notAfterUnixSecs ≤ intent.notAfterUnixSecs) && travel.scope == intent.scope &&
    verifySignature codec signed.payloadHex signed.signatureHex authority.publicKey)
  return travel

/-- `SignedBusinessTravelApproval::verify`. -/
def verifyBusiness (codec : EnrollmentCodec) (signed : SignedTravelApproval)
    (trust : DeploymentTrust) (issuerEndpoint : Option SignedHomeEndpointCredential)
    (descriptor : BusinessDescriptor) (requestSha256 : String)
    (credential : SignedTravelCredential) (now : ℕ) : Option TravelCredential := do
  let target ← descriptor.verify codec.toCodec trust now
  signed.verify codec (TravelApproval.validate businessApprovalType (!·.isEmpty)) trust
    issuerEndpoint (descriptor.intent codec target requestSha256) credential now

/-- `SignedServiceClassApproval::verify`. -/
def verifyServiceClass (codec : EnrollmentCodec) (signed : SignedTravelApproval)
    (trust : DeploymentTrust) (issuer : Option SignedHomeEndpointCredential)
    (descriptor : ServiceClassDescriptor) (requestSha256 : String)
    (credential : SignedTravelCredential) (now : ℕ) : Option TravelCredential := do
  ensure (descriptor.verifyWithIssuer codec.toCodec trust issuer now)
  signed.verify codec (TravelApproval.validate serviceClassApprovalType (validateToken · 128)) trust
    issuer (descriptor.intent codec trust requestSha256) credential now

end SignedTravelApproval

/-- `validate_kind`. -/
def validateKind (version : ℕ) (actual expected : String) : Bool :=
  version == businessVersion && actual == expected

/-- `validate_subset`. -/
def validateSubset (requested approved : List BusinessService) : Bool :=
  validateServices requested && validateServices approved && approved.all requested.contains

/-- White space of Unicode. -/
def isWhitespace (c : Char) : Bool :=
  (9 ≤ c.toNat && c.toNat ≤ 13) || (0x2000 ≤ c.toNat && c.toNat ≤ 0x200a) ||
    [0x20, 0x85, 0xa0, 0x1680, 0x2028, 0x2029, 0x202f, 0x205f, 0x3000].contains c.toNat

/-- Control characters of Unicode, and those that change the direction of text. -/
def isControlOrBidi (c : Char) : Bool :=
  c.toNat ≤ 0x1f || (0x7f ≤ c.toNat && c.toNat ≤ 0x9f) ||
    (0x202a ≤ c.toNat && c.toNat ≤ 0x202e) || (0x2066 ≤ c.toNat && c.toNat ≤ 0x2069) ||
    [0x61c, 0x200e, 0x200f].contains c.toNat

def validateClientLabel (label : String) : Bool :=
  !label.toList.all isWhitespace && decide (label.utf8ByteSize ≤ 64) &&
    !label.toList.any isControlOrBidi

def BusinessTravelResponse.validate (codec : EnrollmentCodec) (root : String)
    (self : BusinessTravelResponse) (now : ℕ) : Option (TravelCredential × DeploymentTrust) := do
  ensure (validateKind self.version self.objectType businessTravelResponseType &&
    validateKind self.request.version self.request.objectType businessTravelRequestType &&
    self.response.approval.request == self.request.request)
  let (credential, trust) ← validateEnrollmentResponse codec self.response root now
  let requestSha256 ← payloadDigest codec (codec.businessTravelRequestJson self.request)
  let businessCredential ← self.approval.verifyBusiness codec trust
    self.response.homeEndpointCredential self.request.descriptor requestSha256
    self.response.signedCredential now
  ensure (businessCredential == credential)
  return (credential, trust)

def ServiceClassTravelResponse.validate (codec : EnrollmentCodec) (root : String)
    (self : ServiceClassTravelResponse) (now : ℕ) :
    Option (TravelCredential × DeploymentTrust) := do
  ensure (validateKind self.version self.objectType serviceClassTravelResponseType &&
    validateKind self.request.version self.request.objectType serviceClassTravelRequestType &&
    validateClientLabel self.request.label &&
    self.response.approval.request == self.request.request)
  let (credential, trust) ← validateEnrollmentResponse codec self.response root now
  let requestSha256 ← payloadDigest codec (codec.serviceClassTravelRequestJson self.request)
  let proved ← self.approval.verifyServiceClass codec trust self.response.homeEndpointCredential
    self.request.descriptor requestSha256 self.response.signedCredential now
  ensure (proved == credential)
  return (credential, trust)

def BusinessHomeRequest.validate (codec : EnrollmentCodec) (self : BusinessHomeRequest)
    (now : ℕ) : Bool :=
  validateKind self.version self.objectType businessHomeRequestType &&
    validateServices self.services && (parseHomeEnrollmentRequest codec self.request now).isSome

def BusinessHomeResponse.validate (codec : EnrollmentCodec) (root : String)
    (self : BusinessHomeResponse) (now : ℕ) : Option DeploymentTrust := do
  ensure (validateKind self.version self.objectType businessHomeResponseType &&
    self.request.validate codec self.request.request.createdAtUnixSecs &&
    self.response.approval.request == self.request.request &&
    self.response.approval.profile == .servingOnly && self.response.issuerBundle.isNone)
  let (_, trust) ← validateHomeEnrollmentResponse codec self.response root now
  let grant ← self.grant.verify codec.toCodec trust self.response.signedEndpointCredential now
  let requestSha256 ← payloadDigest codec (codec.businessHomeRequestJson self.request)
  ensure (grant.enrollmentRequestSha256 == requestSha256 &&
    validateSubset self.request.services grant.services)
  return trust

end FlowSplice
