import FlowSplice.Deployment.Trust

/-! Signed control snapshots: `flowsplice-core/src/deployment.rs` and the types of
`flowsplice-core/src/protocol.rs` that they carry. -/
namespace FlowSplice.Control

def controlSnapshotVersion : ℕ := 1
def controlSnapshotObjectType : String := "flowsplice.control_snapshot"
def maxControlSnapshotTtlSecs : ℕ := 300
def maxRelayEndpoints : ℕ := 64
def maxCatalogHomes : ℕ := 64
def maxServicesPerHome : ℕ := 256

structure RelayEndpoint where
  id : String
  managementAddr : String
  dataPublicAddr : String
  managementSpkiSha256 : String
deriving DecidableEq, Repr

structure RelayDirectory where
  generation : ℕ := 0
  relays : List RelayEndpoint := []
deriving DecidableEq, Repr

structure Service where
  id : String
  aliasName : String
  protocol : ServiceProtocol
  target : String
deriving DecidableEq, Repr

structure HomeCatalog where
  homeId : String
  homeAlias : String
  endpointCredential : Option SignedHomeEndpointCredential := none
  serviceGrant : Option SignedHomeServiceGrant := none
  services : List Service := []
deriving DecidableEq, Repr

structure Catalog where
  generation : ℕ := 0
  homes : List HomeCatalog := []
deriving DecidableEq, Repr

structure ControlSnapshotPayload where
  version : ℕ := controlSnapshotVersion
  objectType : String := controlSnapshotObjectType
  deploymentId : String
  serverId : String
  signerEpoch : ℕ
  travelId : String
  travelManagementSpkiSha256 : String
  generation : ℕ
  issuedAtUnixSecs : ℕ
  expiresAtUnixSecs : ℕ
  relayDirectory : RelayDirectory
  catalog : Catalog
deriving DecidableEq, Repr

structure SignedControlSnapshot where
  trust : SignedDeploymentTrust
  payloadHex : String
  signatureHex : String
deriving DecidableEq, Repr

structure VerifiedControlSnapshot where
  trust : DeploymentTrust
  trustDigestSha256 : String
  payload : ControlSnapshotPayload
  digestSha256 : String
deriving DecidableEq, Repr

/-- One Travel installation. `controlSnapshot` decodes payloads of control snapshots. -/
structure Installation where
  travelId : String
  managementSpkiSha256 : String
  homes : List String
  deploymentRootPublicKey : String
  codec : Codec
  controlSnapshot : (payloadHex : String) → Option ControlSnapshotPayload

def validateRelayDirectory (directory : RelayDirectory) : Bool :=
  directory.generation != 0 && !directory.relays.isEmpty &&
    decide (directory.relays.length ≤ maxRelayEndpoints) &&
    directory.relays.all (fun relay =>
      !relay.id.isEmpty && decide (relay.id.utf8ByteSize ≤ maxIdBytes) &&
        !relay.managementAddr.isEmpty &&
        decide (relay.managementAddr.utf8ByteSize ≤ maxDisplayOrTargetBytes) &&
        !relay.dataPublicAddr.isEmpty &&
        decide (relay.dataPublicAddr.utf8ByteSize ≤ maxDisplayOrTargetBytes) &&
        validSpkiPin relay.managementSpkiSha256) &&
    decide (directory.relays.map (·.id)).Nodup &&
    decide (directory.relays.map (·.managementAddr)).Nodup

def validateCatalog (catalog : Catalog) : Bool :=
  decide (catalog.homes.length ≤ maxCatalogHomes) &&
    catalog.homes.all (fun home =>
      !home.homeId.isEmpty && decide (home.homeId.utf8ByteSize ≤ maxIdBytes) &&
        !home.homeAlias.isEmpty &&
        decide (home.homeAlias.utf8ByteSize ≤ maxDisplayOrTargetBytes) &&
        decide (home.services.length ≤ maxServicesPerHome) &&
        home.services.all (fun service =>
          !service.id.isEmpty && decide (service.id.utf8ByteSize ≤ maxIdBytes) &&
            !service.aliasName.isEmpty &&
            decide (service.aliasName.utf8ByteSize ≤ maxDisplayOrTargetBytes) &&
            !service.target.isEmpty &&
            decide (service.target.utf8ByteSize ≤ maxDisplayOrTargetBytes)) &&
        decide (home.services.map fun service => (service.id, service.protocol)).Nodup) &&
    decide (catalog.homes.map (·.homeId)).Nodup

/-- `validate_at` of a payload. -/
def ControlSnapshotPayload.validateAt (payload : ControlSnapshotPayload) (now : ℕ) : Bool :=
  payload.version == controlSnapshotVersion && payload.objectType == controlSnapshotObjectType &&
    !payload.deploymentId.isEmpty && !payload.serverId.isEmpty && payload.signerEpoch != 0 &&
    !payload.travelId.isEmpty && payload.generation != 0 &&
    validSpkiPin payload.travelManagementSpkiSha256 &&
    decide (payload.issuedAtUnixSecs < payload.expiresAtUnixSecs) &&
    decide (payload.expiresAtUnixSecs - payload.issuedAtUnixSecs ≤ maxControlSnapshotTtlSecs) &&
    decide (payload.issuedAtUnixSecs ≤ now + maxClockSkewSecs) &&
    decide (now < payload.expiresAtUnixSecs) &&
    validateRelayDirectory payload.relayDirectory && validateCatalog payload.catalog

namespace Installation
variable (env : Installation)

/-- What a trust document says, whenever it is read, and its digest. -/
def trustDocument (signed : SignedDeploymentTrust) : Option (DeploymentTrust × String) :=
  if validP256PublicKey env.deploymentRootPublicKey &&
      env.codec.verifies env.deploymentRootPublicKey signed.payloadHex signed.signatureHex then
    (env.codec.trust signed.payloadHex).map fun trust =>
      (trust, env.codec.sha256 signed.payloadHex)
  else none

/-- `SignedDeploymentTrust::verify`. -/
def verifyTrust (signed : SignedDeploymentTrust) (now : ℕ) : Option (DeploymentTrust × String) :=
  (env.trustDocument signed).filter fun p => p.1.validateAt now

/-- What a snapshot says, whenever it is read. -/
def contents (snapshot : SignedControlSnapshot) : Option VerifiedControlSnapshot :=
  match env.trustDocument snapshot.trust, env.controlSnapshot snapshot.payloadHex with
  | some (trust, trustDigest), some payload =>
    if payload.deploymentId == trust.deploymentId &&
        (trust.serverControlKey payload.serverId payload.signerEpoch).any fun publicKey =>
          validP256PublicKey publicKey &&
            env.codec.verifies publicKey snapshot.payloadHex snapshot.signatureHex then
      some ⟨trust, trustDigest, payload, env.codec.sha256 snapshot.payloadHex⟩
    else none
  | _, _ => none

/-- `SignedControlSnapshot::verify`. -/
def verify (snapshot : SignedControlSnapshot) (now : ℕ) : Option VerifiedControlSnapshot :=
  (env.contents snapshot).filter fun verified =>
    verified.trust.validateAt now && verified.payload.validateAt now

/-- `SignedControlSnapshot::verify_at_issuance_for_migration`. -/
def verifyAtIssuance (snapshot : SignedControlSnapshot) : Option VerifiedControlSnapshot :=
  (env.controlSnapshot snapshot.payloadHex).bind fun payload =>
    env.verify snapshot payload.issuedAtUnixSecs

end Installation

/-- `require_control_snapshot_subject`. -/
def requireSubject (env : Installation) (verified : VerifiedControlSnapshot) : Bool :=
  verified.payload.travelId == env.travelId &&
    eqIgnoreAsciiCase verified.payload.travelManagementSpkiSha256 env.managementSpkiSha256

/-- `configured_homes_are_trusted`. -/
def configuredHomesAreTrusted (env : Installation) (trust : DeploymentTrust) (catalog : Catalog)
    (now : ℕ) : Bool :=
  env.homes.all fun home =>
    (trust.resolveHomeEndpoint env.codec home
      ((catalog.homes.find? (·.homeId == home)).bind (·.endpointCredential)) now).isSome

/-- `require_authenticated_relay_in_snapshot`. -/
def requireAuthenticatedRelay (verified : VerifiedControlSnapshot) (relayId relaySpki : String) :
    Bool :=
  match verified.payload.relayDirectory.relays.find? (·.id == relayId) with
  | some endpoint => eqIgnoreAsciiCase endpoint.managementSpkiSha256 relaySpki
  | none => false

theorem Installation.contents_of_verify {env : Installation} {snapshot : SignedControlSnapshot}
    {now : ℕ} {v : VerifiedControlSnapshot} (h : env.verify snapshot now = some v) :
    env.contents snapshot = some v :=
  (Option.filter_eq_some_iff.mp h).1

end FlowSplice.Control
