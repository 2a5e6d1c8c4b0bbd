import Mathlib.Data.List.Nodup
import FlowSplice.Protocol

/-! What a deployment trusts: `flowsplice-core/src/deployment.rs`, with the authorities of
`authorization.rs` and the service grants of `business.rs`. -/
namespace FlowSplice

def deploymentTrustVersion : ℕ := 1
def homeEndpointCredentialVersion : ℕ := 1
def homeEndpointCredentialObjectType : String := "flowsplice.home_endpoint_credential"
def businessVersion : ℕ := 1
def homeServiceGrantType : String := "flowsplice.home_service_grant"
def maxClockSkewSecs : ℕ := 300
def maxIdBytes : ℕ := 128
def maxDisplayOrTargetBytes : ℕ := 512

/-- The bytes of a string, in UTF-8. -/
def stringBytes (s : String) : List UInt8 := s.toUTF8.data.toList

theorem stringBytes_injective : Function.Injective stringBytes := by
  intro a b h
  apply String.toByteArray_inj.mp
  apply ByteArray.ext
  exact Array.toList_inj.mp h

def isAsciiDigit (b : UInt8) : Bool := decide (48 ≤ b.toNat) && decide (b.toNat ≤ 57)

def isAsciiUppercase (b : UInt8) : Bool := decide (65 ≤ b.toNat) && decide (b.toNat ≤ 90)

def isAsciiLowercase (b : UInt8) : Bool := decide (97 ≤ b.toNat) && decide (b.toNat ≤ 122)

def isAsciiHexdigit (b : UInt8) : Bool :=
  isAsciiDigit b || (isAsciiUppercase b && decide (b.toNat ≤ 70)) ||
    (isAsciiLowercase b && decide (b.toNat ≤ 102))

def toAsciiLowercase (b : UInt8) : UInt8 := if isAsciiUppercase b then b + 32 else b

/-- Hexadecimal digits of that many bytes. -/
def isHexOf (count : ℕ) (digits : List UInt8) : Bool :=
  digits.length == 2 * count && digits.all isAsciiHexdigit

/-- `validate_spki_pin`: 32 bytes in hexadecimal. -/
def validSpkiPin (pin : String) : Bool := isHexOf 32 (stringBytes pin)

/-- `decode_p256_public_key`: an uncompressed point, 65 bytes of which the first is 4. -/
def validP256PublicKey (key : String) : Bool :=
  isHexOf 65 (stringBytes key) && (stringBytes key).take 2 == stringBytes "04"

def eqIgnoreAsciiCase (a b : String) : Bool :=
  (stringBytes a).map toAsciiLowercase == (stringBytes b).map toAsciiLowercase

inductive TrustedTravelAuthority where
  | global (id : String) (epoch : ℕ) (homeId publicKey : String)
  | home (id : String) (epoch : ℕ) (homeId publicKey : String)
deriving DecidableEq, Repr

namespace TrustedTravelAuthority

def id : TrustedTravelAuthority → String
  | .global id _ _ _ | .home id _ _ _ => id

def epoch : TrustedTravelAuthority → ℕ
  | .global _ epoch _ _ | .home _ epoch _ _ => epoch

def homeId : TrustedTravelAuthority → Option String
  | .global _ _ homeId _ | .home _ _ homeId _ => some homeId

def publicKey : TrustedTravelAuthority → String
  | .global _ _ _ publicKey | .home _ _ _ publicKey => publicKey

def validate (authority : TrustedTravelAuthority) : Bool :=
  !authority.id.isEmpty && authority.epoch != 0 && !authority.homeId.any String.isEmpty &&
    validP256PublicKey authority.publicKey

end TrustedTravelAuthority

/-- `validate_trusted_authorities`. -/
def validateTrustedAuthorities (authorities : List TrustedTravelAuthority) : Bool :=
  !authorities.isEmpty && authorities.all (·.validate) && decide (authorities.map (·.id)).Nodup

structure ServerControlKey where
  serverId : String
  epoch : ℕ
  publicKey : String
deriving DecidableEq, Repr

structure HomeEndpointTrust where
  homeId : String
  managementSpkiPins : List String
  businessSpkiPins : List String
deriving DecidableEq, Repr

structure TrustedHomeEnrollmentAuthority where
  id : String
  epoch : ℕ
  issuerHomeId : String
  publicKey : String
deriving DecidableEq, Repr

/-- The trust document, without the two CA certificates in it. -/
structure DeploymentTrust where
  version : ℕ := deploymentTrustVersion
  deploymentId : String
  generation : ℕ
  notBeforeUnixSecs : ℕ
  notAfterUnixSecs : ℕ
  serverControlKeys : List ServerControlKey
  homeEndpoints : List HomeEndpointTrust
  homeEnrollmentAuthorities : List TrustedHomeEnrollmentAuthority := []
  travelAuthorities : List TrustedTravelAuthority
deriving DecidableEq, Repr

structure SignedDeploymentTrust where
  payloadHex : String
  signatureHex : String
deriving DecidableEq, Repr

structure HomeEndpointCredential where
  version : ℕ := homeEndpointCredentialVersion
  objectType : String := homeEndpointCredentialObjectType
  deploymentId : String
  credentialId : Uuid
  authorityId : String
  authorityEpoch : ℕ
  enrollmentRequestId : Uuid
  homeId : String
  managementSpkiSha256 : String
  businessSpkiSha256 : String
  delegatedTravelAuthorities : List TrustedTravelAuthority := []
  issuerBundleSha256 : Option String := none
  notBeforeUnixSecs : ℕ
  notAfterUnixSecs : ℕ
deriving DecidableEq, Repr

structure SignedHomeEndpointCredential where
  authorityId : String
  payloadHex : String
  signatureHex : String
deriving DecidableEq, Repr

structure BusinessService where
  serviceId : String
  protocol : ServiceProtocol
  applicationProtocol : String
  capabilities : List String
deriving DecidableEq, Repr

structure HomeServiceGrant where
  version : ℕ := businessVersion
  objectType : String := homeServiceGrantType
  deploymentId : String
  authorityId : String
  authorityEpoch : ℕ
  homeId : String
  endpointPayloadSha256 : String
  enrollmentRequestSha256 : String
  services : List BusinessService
  notBeforeUnixSecs : ℕ
  notAfterUnixSecs : ℕ
deriving DecidableEq, Repr

structure SignedHomeServiceGrant where
  authorityId : String
  payloadHex : String
  signatureHex : String
deriving DecidableEq, Repr

/-- What hex, JSON, ECDSA and SHA-256 make of signed payloads. The decoders refuse what is
malformed, over the size limit of its kind, or (the trust document) has malformed certificates.
Nil uuids are zero. -/
structure Codec where
  verifies : (publicKey payloadHex signatureHex : String) → Bool
  sha256 : (payloadHex : String) → String
  trust : (payloadHex : String) → Option DeploymentTrust
  endpoint : (payloadHex : String) → Option HomeEndpointCredential
  grant : (payloadHex : String) → Option HomeServiceGrant

namespace DeploymentTrust

def validateShape (trust : DeploymentTrust) : Bool :=
  let homeIds := trust.homeEndpoints.map (·.homeId)
  trust.version == deploymentTrustVersion && !trust.deploymentId.isEmpty &&
    trust.generation != 0 && decide (trust.notBeforeUnixSecs < trust.notAfterUnixSecs) &&
    !trust.serverControlKeys.isEmpty &&
    trust.serverControlKeys.all (fun key =>
      !key.serverId.isEmpty && key.epoch != 0 && validP256PublicKey key.publicKey) &&
    decide (trust.serverControlKeys.map fun key => (key.serverId, key.epoch)).Nodup &&
    !trust.homeEndpoints.isEmpty &&
    trust.homeEndpoints.all (fun home =>
      !home.homeId.isEmpty && !home.managementSpkiPins.isEmpty && !home.businessSpkiPins.isEmpty &&
        home.managementSpkiPins.all validSpkiPin && home.businessSpkiPins.all validSpkiPin) &&
    decide homeIds.Nodup &&
    trust.homeEnrollmentAuthorities.all (fun authority =>
      !authority.id.isEmpty && authority.epoch != 0 && !authority.issuerHomeId.isEmpty &&
        homeIds.contains authority.issuerHomeId && validP256PublicKey authority.publicKey) &&
    decide (trust.homeEnrollmentAuthorities.map fun authority =>
      (authority.id, authority.epoch)).Nodup &&
    validateTrustedAuthorities trust.travelAuthorities &&
    trust.travelAuthorities.all fun authority => authority.homeId.any homeIds.contains

def validateAt (trust : DeploymentTrust) (now : ℕ) : Bool :=
  trust.validateShape && decide (trust.notBeforeUnixSecs ≤ now + maxClockSkewSecs) &&
    decide (now < trust.notAfterUnixSecs)

def serverControlKey (trust : DeploymentTrust) (serverId : String) (epoch : ℕ) : Option String :=
  (trust.serverControlKeys.find? fun key => key.serverId == serverId && key.epoch == epoch).map
    (·.publicKey)

def homeEndpoint (trust : DeploymentTrust) (homeId : String) : Option HomeEndpointTrust :=
  trust.homeEndpoints.find? (·.homeId == homeId)

def homeEnrollmentAuthority (trust : DeploymentTrust) (authorityId : String)
    (authorityEpoch : ℕ) : Option TrustedHomeEnrollmentAuthority :=
  trust.homeEnrollmentAuthorities.find? fun authority =>
    authority.id == authorityId && authority.epoch == authorityEpoch

end DeploymentTrust

namespace HomeEndpointCredential

def validateShape (endpoint : HomeEndpointCredential) : Bool :=
  endpoint.version == homeEndpointCredentialVersion &&
    endpoint.objectType == homeEndpointCredentialObjectType && !endpoint.deploymentId.isEmpty &&
    endpoint.credentialId != 0 && !endpoint.authorityId.isEmpty && endpoint.authorityEpoch != 0 &&
    endpoint.enrollmentRequestId != 0 && !endpoint.homeId.isEmpty &&
    decide (endpoint.homeId.utf8ByteSize ≤ maxIdBytes) &&
    decide (endpoint.notBeforeUnixSecs < endpoint.notAfterUnixSecs) &&
    validSpkiPin endpoint.managementSpkiSha256 && validSpkiPin endpoint.businessSpkiSha256 &&
    decide (endpoint.delegatedTravelAuthorities.length ≤ 2) &&
    (endpoint.delegatedTravelAuthorities.isEmpty ||
      validateTrustedAuthorities endpoint.delegatedTravelAuthorities &&
        endpoint.delegatedTravelAuthorities.all (·.homeId == some endpoint.homeId)) &&
    match endpoint.issuerBundleSha256 with
    | some digest => validSpkiPin digest
    | none => endpoint.delegatedTravelAuthorities.isEmpty

def validateTrustBinding (endpoint : HomeEndpointCredential) (trust : DeploymentTrust) : Bool :=
  endpoint.validateShape && endpoint.deploymentId == trust.deploymentId &&
    decide (trust.notBeforeUnixSecs ≤ endpoint.notBeforeUnixSecs) &&
    decide (endpoint.notAfterUnixSecs ≤ trust.notAfterUnixSecs)

def validateTime (endpoint : HomeEndpointCredential) (now : ℕ) : Bool :=
  decide (endpoint.notBeforeUnixSecs ≤ now + maxClockSkewSecs) &&
    decide (now < endpoint.notAfterUnixSecs)

end HomeEndpointCredential

/-- What `verify_trust_binding` reads of the payload of an endpoint credential. -/
def maxEndpointPayloadBytes : ℕ := 16 * 1024

namespace SignedHomeEndpointCredential

def verifyTrustBinding (codec : Codec) (signed : SignedHomeEndpointCredential)
    (trust : DeploymentTrust) : Option HomeEndpointCredential :=
  if signed.payloadHex.utf8ByteSize ≤ 2 * maxEndpointPayloadBytes then
    (codec.endpoint signed.payloadHex).filter fun endpoint =>
      endpoint.validateTrustBinding trust && signed.authorityId == endpoint.authorityId &&
        (trust.homeEnrollmentAuthority endpoint.authorityId endpoint.authorityEpoch).any
          fun authority => validP256PublicKey authority.publicKey &&
            codec.verifies authority.publicKey signed.payloadHex signed.signatureHex
  else none

def verify (codec : Codec) (signed : SignedHomeEndpointCredential) (trust : DeploymentTrust)
    (now : ℕ) : Option HomeEndpointCredential :=
  (signed.verifyTrustBinding codec trust).filter (·.validateTime now)

end SignedHomeEndpointCredential

namespace DeploymentTrust

/-- `resolve_home_endpoint`: a dynamic credential takes precedence over the static pins. -/
def resolveHomeEndpoint (codec : Codec) (trust : DeploymentTrust) (homeId : String)
    (credential : Option SignedHomeEndpointCredential) (now : ℕ) : Option HomeEndpointTrust :=
  match credential with
  | some credential =>
    ((credential.verify codec trust now).filter (·.homeId == homeId)).map fun verified =>
      ⟨verified.homeId, [verified.managementSpkiSha256], [verified.businessSpkiSha256]⟩
  | none => trust.homeEndpoint homeId

/-- One endpoint of `travel_authorities_with_home_delegations`. -/
def addDelegations (codec : Codec) (trust : DeploymentTrust)
    (authorities : List TrustedTravelAuthority) (signed : SignedHomeEndpointCredential) :
    Option (List TrustedTravelAuthority) :=
  (signed.verifyTrustBinding codec trust).bind fun endpoint =>
    endpoint.delegatedTravelAuthorities.foldlM (fun authorities authority =>
      if (authorities.map (·.id)).contains authority.id then none
      else some (authorities ++ [authority])) authorities

/-- `travel_authorities_with_home_delegations`. -/
def travelAuthoritiesWithHomeDelegations (codec : Codec) (trust : DeploymentTrust)
    (credentials : List SignedHomeEndpointCredential) : Option (List TrustedTravelAuthority) :=
  (credentials.foldlM (trust.addDelegations codec) trust.travelAuthorities).filter
    validateTrustedAuthorities

end DeploymentTrust

/-- `validate_token`. -/
def validateToken (value : String) (limit : ℕ) : Bool :=
  !value.isEmpty && decide (value.utf8ByteSize ≤ limit) &&
    (stringBytes value).all fun b =>
      isAsciiDigit b || isAsciiUppercase b || isAsciiLowercase b ||
        (stringBytes "._-:/").contains b

def BusinessService.validate (service : BusinessService) : Bool :=
  validateToken service.serviceId 128 && validateToken service.applicationProtocol 128 &&
    !service.capabilities.isEmpty && decide (service.capabilities.length ≤ 16) &&
    service.capabilities.all (validateToken · 64) && decide service.capabilities.Nodup

/-- `validate_services`. -/
def validateServices (services : List BusinessService) : Bool :=
  !services.isEmpty && decide (services.length ≤ 256) && services.all (·.validate) &&
    decide (services.map (·.serviceId)).Nodup

def HomeServiceGrant.validate (grant : HomeServiceGrant) : Bool :=
  grant.version == businessVersion && grant.objectType == homeServiceGrantType &&
    validateToken grant.homeId 128 && validateToken grant.authorityId 128 &&
    !grant.deploymentId.isEmpty && grant.authorityEpoch != 0 &&
    validSpkiPin grant.endpointPayloadSha256 && validSpkiPin grant.enrollmentRequestSha256 &&
    decide (grant.notBeforeUnixSecs < grant.notAfterUnixSecs) && validateServices grant.services

namespace SignedHomeServiceGrant

def verifyBinding (codec : Codec) (signed : SignedHomeServiceGrant) (trust : DeploymentTrust)
    (endpoint : SignedHomeEndpointCredential) : Option HomeServiceGrant :=
  match endpoint.verifyTrustBinding codec trust with
  | none => none
  | some endpointPayload =>
    (codec.grant signed.payloadHex).filter fun grant =>
      grant.validate && grant.deploymentId == trust.deploymentId &&
        grant.homeId == endpointPayload.homeId &&
        grant.authorityId == endpointPayload.authorityId &&
        grant.authorityEpoch == endpointPayload.authorityEpoch &&
        signed.authorityId == grant.authorityId &&
        grant.endpointPayloadSha256 == codec.sha256 endpoint.payloadHex &&
        endpointPayload.delegatedTravelAuthorities.isEmpty &&
        endpointPayload.issuerBundleSha256.isNone &&
        decide (endpointPayload.notBeforeUnixSecs ≤ grant.notBeforeUnixSecs) &&
        decide (grant.notAfterUnixSecs ≤ endpointPayload.notAfterUnixSecs) &&
        decide (signed.signatureHex.utf8ByteSize ≤ 160) &&
        (trust.homeEnrollmentAuthority grant.authorityId grant.authorityEpoch).any fun authority =>
          authority.publicKey.utf8ByteSize == 130 &&
            codec.verifies authority.publicKey signed.payloadHex signed.signatureHex

def verify (codec : Codec) (signed : SignedHomeServiceGrant) (trust : DeploymentTrust)
    (endpoint : SignedHomeEndpointCredential) (now : ℕ) : Option HomeServiceGrant :=
  (endpoint.verify codec trust now).bind fun _ =>
    (signed.verifyBinding codec trust endpoint).filter fun grant =>
      decide (grant.notBeforeUnixSecs ≤ now + maxClockSkewSecs) &&
        decide (now < grant.notAfterUnixSecs)

theorem payload_of_verify {codec : Codec} {signed : SignedHomeServiceGrant}
    {trust : DeploymentTrust} {endpoint : SignedHomeEndpointCredential} {now : ℕ}
    {grant : HomeServiceGrant} (h : signed.verify codec trust endpoint now = some grant) :
    codec.grant signed.payloadHex = some grant := by
  unfold verify at h
  obtain ⟨_, -, h⟩ := Option.bind_eq_some_iff.mp h
  have hbinding := (Option.filter_eq_some_iff.mp h).1
  unfold verifyBinding at hbinding
  split at hbinding
  · cases hbinding
  · exact (Option.filter_eq_some_iff.mp hbinding).1

end SignedHomeServiceGrant

/-! A deployment with one Home, whose payloads are told apart by their bytes. -/

def samplePin (digit : Char) : String := String.ofList (List.replicate 64 digit)

def sampleKey (digit : Char) : String := String.ofList ('0' :: '4' :: List.replicate 128 digit)

def sampleDeployment : DeploymentTrust where
  deploymentId := "deployment-1"
  generation := 1
  notBeforeUnixSecs := 0
  notAfterUnixSecs := 100000
  serverControlKeys := [⟨"server-1", 1, sampleKey 'a'⟩]
  homeEndpoints := [⟨"home-1", [samplePin '1'], [samplePin '2']⟩]
  travelAuthorities := [.home "authority-1" 1 "home-1" (sampleKey 'b')]

/-- Payloads are padded to digests, and each key signs with its last digit. -/
def sampleCodec : Codec where
  verifies publicKey _ signatureHex :=
    (stringBytes publicKey).drop 129 == stringBytes signatureHex
  sha256 payloadHex :=
    payloadHex ++ String.ofList (List.replicate (64 - payloadHex.utf8ByteSize) '0')
  trust payloadHex := if payloadHex = "7b7d" then some sampleDeployment else none
  endpoint _ := none
  grant _ := none

end FlowSplice
