import Mathlib.Data.Finset.Lattice.Lemmas
import FlowSplice.Deployment.Trust

/-! Travel credentials, their revocations, and the authorization that followers of the Server
verify and accept: `flowsplice-core/src/authorization.rs`. -/
namespace FlowSplice

def travelCredentialVersion : ℕ := 1
def travelCredentialObjectType : String := "flowsplice.travel_credential"

inductive TravelCredentialScope where
  | global
  | serviceClass (applicationProtocol : String) (protocol : ServiceProtocol)
  | home (homeId : String)
  | service (homeId serviceId : String) (protocol : ServiceProtocol)
deriving DecidableEq, Repr

namespace TravelCredentialScope

def validate : TravelCredentialScope → Bool
  | .global => true
  | .serviceClass applicationProtocol _ => validateToken applicationProtocol 128
  | .home homeId => !homeId.isEmpty
  | .service homeId serviceId _ => !homeId.isEmpty && !serviceId.isEmpty

def homeId : TravelCredentialScope → Option String
  | .global | .serviceClass _ _ => none
  | .home homeId | .service homeId _ _ => some homeId

end TravelCredentialScope

structure TravelCredential where
  version : ℕ := travelCredentialVersion
  objectType : String := travelCredentialObjectType
  deploymentId : String
  deploymentTrustSha256 : String
  credentialId : Uuid
  authorityId : String
  authorityEpoch : ℕ
  enrollmentRequestId : Uuid
  enrollmentNonce : String
  enrollmentRequestSha256 : String
  travelId : String
  managementSpkiSha256 : String
  businessSpkiSha256 : String
  managementCaSha256 : String
  businessCaSha256 : String
  managementCertificateSha256 : String
  businessCertificateSha256 : String
  scope : TravelCredentialScope
  notBeforeUnixSecs : ℕ
  notAfterUnixSecs : ℕ
deriving DecidableEq, Repr

namespace TravelCredential

def validate (credential : TravelCredential) : Bool :=
  credential.version == travelCredentialVersion &&
    credential.objectType == travelCredentialObjectType && !credential.deploymentId.isEmpty &&
    credential.credentialId != 0 && !credential.authorityId.isEmpty &&
    credential.authorityEpoch != 0 && credential.enrollmentRequestId != 0 &&
    !credential.travelId.isEmpty && credential.scope.validate &&
    [credential.managementSpkiSha256, credential.businessSpkiSha256,
      credential.deploymentTrustSha256, credential.enrollmentNonce,
      credential.enrollmentRequestSha256, credential.managementCaSha256,
      credential.businessCaSha256, credential.managementCertificateSha256,
      credential.businessCertificateSha256].all validSpkiPin &&
    decide (credential.notBeforeUnixSecs < credential.notAfterUnixSecs)

def activeAt (credential : TravelCredential) (now : ℕ) : Bool :=
  decide (credential.notBeforeUnixSecs ≤ now) && decide (now < credential.notAfterUnixSecs)

end TravelCredential

structure SignedTravelCredential where
  authorityId : String
  payloadHex : String
  signatureHex : String
deriving DecidableEq, Repr

structure TravelRevocation where
  credentialId : Uuid
  revokedAtUnixSecs : ℕ
  reason : String
deriving DecidableEq, Repr

structure TravelAuthorizationSnapshot where
  generation : ℕ
  homeEndpointCredentials : List SignedHomeEndpointCredential := []
  credentials : List SignedTravelCredential := []
  revocations : List TravelRevocation := []
deriving DecidableEq, Repr

/-- The set of credentials that a snapshot revokes. -/
def TravelAuthorizationSnapshot.revoked (snapshot : TravelAuthorizationSnapshot) : Finset Uuid :=
  (snapshot.revocations.map (·.credentialId)).toFinset

/-- The codec of what a Server publishes. -/
structure AuthorizationCodec extends Codec where
  credential : (payloadHex : String) → Option TravelCredential
  snapshotSha256 : TravelAuthorizationSnapshot → String

/-- `TrustedTravelAuthority::validate_scope`. -/
def TrustedTravelAuthority.validateScope (authority : TrustedTravelAuthority)
    (scope : TravelCredentialScope) : Bool :=
  match authority with
  | .global _ _ _ _ => true
  | .home _ _ homeId _ => scope.homeId == some homeId

namespace SignedTravelCredential

def verifyPublicKey (codec : AuthorizationCodec) (signed : SignedTravelCredential)
    (publicKey : String) : Option TravelCredential :=
  if validP256PublicKey publicKey &&
      codec.verifies publicKey signed.payloadHex signed.signatureHex then
    (codec.credential signed.payloadHex).filter (·.validate)
  else none

def verify (codec : AuthorizationCodec) (signed : SignedTravelCredential)
    (authority : TrustedTravelAuthority) : Option TravelCredential :=
  if signed.authorityId = authority.id then
    (signed.verifyPublicKey codec authority.publicKey).filter fun credential =>
      credential.authorityId == signed.authorityId &&
        credential.authorityEpoch == authority.epoch && authority.validateScope credential.scope
  else none

end SignedTravelCredential

/-- The hash maps are lists in the order of insertion; an index is a list of keys and ids. -/
structure VerifiedAuthorization where
  generation : ℕ
  snapshotSha256 : String
  credentials : List TravelCredential
  managementIndex : List ((String × List UInt8) × Uuid)
  businessIndex : List ((String × List UInt8) × Uuid)
  revokedCredentials : Finset Uuid

namespace VerifiedAuthorization

def credential (authorization : VerifiedAuthorization) (credentialId : Uuid) :
    Option TravelCredential :=
  authorization.credentials.find? (·.credentialId == credentialId)

def isActive (authorization : VerifiedAuthorization) (credentialId : Uuid) (now : ℕ) : Bool :=
  (authorization.credential credentialId).any fun credential =>
    !decide (credentialId ∈ authorization.revokedCredentials) && credential.activeAt now

/-- A travel id and a pin, to which case does not matter. -/
def indexKey (travelId spki : String) : String × List UInt8 :=
  (travelId, (stringBytes spki).map toAsciiLowercase)

/-- One signed credential of `verify`. -/
def addCredential (codec : AuthorizationCodec) (authorities : List TrustedTravelAuthority)
    (deploymentId : String) (credentials : List TravelCredential)
    (signed : SignedTravelCredential) : Option (List TravelCredential) :=
  ((authorities.find? (·.id == signed.authorityId)).bind (signed.verify codec)).bind
    fun credential =>
      if credential.deploymentId = deploymentId ∧
          credential.credentialId ∉ credentials.map (·.credentialId) then
        some (credentials ++ [credential])
      else none

/-- One revocation of `verify`. -/
def addRevocation (credentials : List TravelCredential) (revoked : Finset Uuid)
    (revocation : TravelRevocation) : Option (Finset Uuid) :=
  if revocation.revokedAtUnixSecs ≠ 0 ∧ !revocation.reason.isEmpty ∧
      revocation.reason.utf8ByteSize ≤ 256 ∧
      revocation.credentialId ∈ credentials.map (·.credentialId) ∧
      revocation.credentialId ∉ revoked then
    some (insert revocation.credentialId revoked)
  else none

/-- `VerifiedAuthorization::verify`. -/
def verify (codec : AuthorizationCodec) (snapshot : TravelAuthorizationSnapshot)
    (authorities : List TrustedTravelAuthority) (deploymentId : String) :
    Option VerifiedAuthorization :=
  if deploymentId.isEmpty || snapshot.generation == 0 ||
      !validateTrustedAuthorities authorities then none
  else
    (snapshot.credentials.foldlM (addCredential codec authorities deploymentId) []).bind
      fun credentials =>
        (snapshot.revocations.foldlM (addRevocation credentials) ∅).map fun revoked =>
          { generation := snapshot.generation
            snapshotSha256 := codec.snapshotSha256 snapshot
            credentials := credentials
            managementIndex := credentials.map fun credential =>
              (indexKey credential.travelId credential.managementSpkiSha256,
                credential.credentialId)
            businessIndex := credentials.map fun credential =>
              (indexKey credential.travelId credential.businessSpkiSha256,
                credential.credentialId)
            revokedCredentials := revoked }

theorem foldlM_addRevocation {credentials : List TravelCredential}
    {revocations : List TravelRevocation} {revoked revoked' : Finset Uuid}
    (h : revocations.foldlM (addRevocation credentials) revoked = some revoked') :
    revoked' = revoked ∪ (revocations.map (·.credentialId)).toFinset := by
  induction revocations generalizing revoked with
  | nil =>
    obtain rfl := Option.some.inj h
    simp
  | cons revocation revocations ih =>
    rw [List.foldlM_cons] at h
    obtain ⟨next, hnext, h⟩ := Option.bind_eq_some_iff.mp h
    unfold addRevocation at hnext
    split_ifs at hnext
    obtain rfl := Option.some.inj hnext
    rw [ih h, List.map_cons, List.toFinset_cons, Finset.insert_union, Finset.union_insert]

variable {codec : AuthorizationCodec} {snapshot : TravelAuthorizationSnapshot}
  {authorities : List TrustedTravelAuthority} {deploymentId : String}
  {authorization : VerifiedAuthorization}

theorem verify_spec (h : verify codec snapshot authorities deploymentId = some authorization) :
    authorization.generation = snapshot.generation ∧ snapshot.generation ≠ 0 ∧
      authorization.snapshotSha256 = codec.snapshotSha256 snapshot ∧
      authorization.revokedCredentials = snapshot.revoked := by
  unfold verify at h
  split_ifs at h with hbad
  obtain ⟨credentials, -, h⟩ := Option.bind_eq_some_iff.mp h
  obtain ⟨revoked, hrevoked, rfl⟩ := Option.map_eq_some_iff.mp h
  simp only [Bool.or_eq_true, not_or, beq_iff_eq] at hbad
  refine ⟨rfl, hbad.1.2, rfl, ?_⟩
  simpa [TravelAuthorizationSnapshot.revoked] using foldlM_addRevocation hrevoked

end VerifiedAuthorization

structure AuthorizationCache where
  generation : ℕ := 0
  snapshotSha256 : String := ""
  revokedCredentials : Finset Uuid := ∅
deriving DecidableEq

namespace AuthorizationCache

def accept (cache : AuthorizationCache) (authorization : VerifiedAuthorization) :
    Option AuthorizationCache :=
  if authorization.generation < cache.generation then none
  else if cache.generation ≠ 0 ∧ authorization.generation = cache.generation ∧
      !cache.snapshotSha256.isEmpty ∧ authorization.snapshotSha256 ≠ cache.snapshotSha256 then none
  else if cache.revokedCredentials ⊆ authorization.revokedCredentials then
    some ⟨authorization.generation, authorization.snapshotSha256, authorization.revokedCredentials⟩
  else none

end AuthorizationCache

end FlowSplice
