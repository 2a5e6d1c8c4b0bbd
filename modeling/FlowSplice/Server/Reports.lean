import FlowSplice.Lib.SocketAddr
import FlowSplice.Server.Reads

/-! What the Server accepts from its Relays and Homes one report at a time, and the snapshots that it
signs of all of it: `read_relay_endpoint`, `handle_home` and `ControlSigner::sign` of
`server/src/main.rs`. -/
namespace FlowSplice.Server.Travels

open Control (RelayEndpoint RelayDirectory HomeCatalog Catalog Service ControlSnapshotPayload
  SignedControlSnapshot)

structure RelayAdvertisement where
  managementAddr : String
  dataPublicAddr : String
deriving DecidableEq, Repr

inductive AdvertisementError where
  | tooLong (label : String)
  | notLiteral (label : String)
  | notConnectable (label : String)
deriving DecidableEq, Repr

def validateAdvertisedAddr (label address : String) : Except AdvertisementError Unit :=
  if 512 < address.utf8ByteSize then .error (.tooLong label)
  else
    match SocketAddr.parse (stringBytes address) with
    | none => .error (.notLiteral label)
    | some addr =>
      if addr.port == 0 || addr.ip.isUnspecified || addr.ip.isLoopback || addr.ip.isMulticast then
        .error (.notConnectable label)
      else .ok ()

/-- `validate_relay_advertisement`. -/
def validateRelayAdvertisement (advertisement : RelayAdvertisement) :
    Except AdvertisementError Unit :=
  match validateAdvertisedAddr "management" advertisement.managementAddr with
  | .error e => .error e
  | .ok () => validateAdvertisedAddr "data" advertisement.dataPublicAddr

/-- `read_relay_endpoint`: a report, or a withdrawal, of a Relay that is configured and whose
certificate has this digest. -/
def readRelayEndpoint (relayId managementSpkiSha256 : String) :
    Option RelayAdvertisement → Except AdvertisementError (Option RelayEndpoint)
  | none => .ok none
  | some advertisement =>
    match validateRelayAdvertisement advertisement with
    | .error e => .error e
    | .ok () => .ok (some
        ⟨relayId, advertisement.managementAddr, advertisement.dataPublicAddr, managementSpkiSha256⟩)

/-- The Server can have read this endpoint of a Relay. `peer_identity` gives the digest of a
certificate in hexadecimal. -/
def acceptsEndpoint (relays : List String) (relayId : String) (endpoint : Option RelayEndpoint) :
    Bool :=
  relays.contains relayId && endpoint.all fun endpoint =>
    endpoint.id == relayId && validSpkiPin endpoint.managementSpkiSha256 &&
      validateRelayAdvertisement ⟨endpoint.managementAddr, endpoint.dataPublicAddr⟩ == .ok ()

/-- `validate_home_services` of `server/src/authorization.rs`. -/
def validateHomeServices (config : Config) (server : ServerAuthorization) (homeId : String)
    (endpoint : Option SignedHomeEndpointCredential) (services : List Service) (now : ℕ) : Bool :=
  match server.businessHomeGrants.lookup homeId with
  | none => true
  | some grant =>
    endpoint.any fun endpoint =>
      (grant.verify config.codec.toCodec config.trust endpoint now).any
        (·.validateCatalogServices services)

/-- What `handle_home` checks of a catalog that a Home registers or updates; the Home is the one of
the certificate, its endpoint credential is one that the Server holds, and its grant is the
Server's. -/
def acceptsHome (config : Config) (server : ServerAuthorization) (home : HomeCatalog) (now : ℕ) :
    Bool :=
  home.endpointCredential.all (server.snapshot.homeEndpointCredentials.contains ·) &&
    validateHomeServices config server home.homeId home.endpointCredential home.services now &&
    home.serviceGrant == server.businessHomeGrants.lookup home.homeId &&
    Control.validateCatalog { generation := 1, homes := [home] }

/-- The endpoints that are listed besides that of one Relay. -/
def listedBeside (registry : RelayDirectoryRegistry) (relayId : String) : List RelayEndpoint :=
  (Table.values (registry.sessions.erase relayId)).filterMap (·.endpoint)

/-- What the directory says of all Relays together: no two have one management address, and they
are not too many nor their ids too long. -/
def RelaysApart (registry : RelayDirectoryRegistry) : Prop :=
  (registry.directory.relays.map (·.managementAddr)).Nodup ∧
    registry.directory.relays.length ≤ Control.maxRelayEndpoints ∧
    ∀ relay ∈ registry.directory.relays, relay.id.utf8ByteSize ≤ maxIdBytes

/-- The payload that `ControlSigner::sign` builds under a generation. -/
def Config.payload (config : Config) (directory : RelayDirectory) (catalog : Catalog)
    (travelId travelManagementSpkiSha256 : String) (now generation : ℕ) :
    ControlSnapshotPayload where
  deploymentId := config.trust.deploymentId
  serverId := config.id
  signerEpoch := config.signerEpoch
  travelId := travelId
  travelManagementSpkiSha256 := travelManagementSpkiSha256
  generation := generation
  issuedAtUnixSecs := now
  expiresAtUnixSecs := min (now + config.controlSnapshotTtlSecs) (2 ^ 64 - 1)
  relayDirectory := directory
  catalog := catalog

/-- What `validate_config` and `ControlSigner::load` checked when the Server started. -/
structure Config.Started (config : Config) (relays : List String) : Prop where
  id_ne : config.id ≠ ""
  relays_ne : "" ∉ relays
  ttl_pos : 0 < config.controlSnapshotTtlSecs
  ttl_le : config.controlSnapshotTtlSecs ≤ Control.maxControlSnapshotTtlSecs
  trust : config.trust.validateShape = true
  /-- `not_after_unix_secs` is `u64`. -/
  notAfter_lt : config.trust.notAfterUnixSecs < 2 ^ 64
  key : ∃ key, (config.trust.serverControlKeys.filter fun candidate =>
    candidate.serverId == config.id &&
      eqIgnoreAsciiCase candidate.publicKey config.controlPublicKey) = [key] ∧
    config.signerEpoch = key.epoch

/-- What `SignedControlSnapshot::sign` makes of a payload, as one who has the deployment's root key
reads it: the Server's trust document, the encoded payload, and a signature with the Server's
control key. -/
structure Config.Signed (config : Config) (env : Control.Installation)
    (payload : ControlSnapshotPayload) (snapshot : SignedControlSnapshot) : Prop where
  trust : (env.trustDocument snapshot.trust).map (·.1) = some config.trust
  payload_eq : env.controlSnapshot snapshot.payloadHex = some payload
  verifies : ∀ publicKey, eqIgnoreAsciiCase publicKey config.controlPublicKey = true →
    env.codec.verifies publicKey snapshot.payloadHex snapshot.signatureHex = true

namespace Sys

/-- Relays and Homes report what the Server accepts. -/
def Accepts (config : Config) (relays : List String) (s : Sys) : Action → Prop
  | .registerHome home _ | .updateCatalog home _ =>
      (s.authority.server.any fun server => acceptsHome config server home s.clock) = true
  | .replaceRelay relayId _ endpoint _ | .updateRelay relayId _ endpoint _ =>
      acceptsEndpoint relays relayId endpoint = true
  | _ => True

instance (config : Config) (relays : List String) :
    ∀ (s : Sys) (action : Action), Decidable (Accepts config relays s action)
  | s, .registerHome home _ => inferInstanceAs (Decidable
      ((s.authority.server.any fun server => acceptsHome config server home s.clock) = true))
  | s, .updateCatalog home _ => inferInstanceAs (Decidable
      ((s.authority.server.any fun server => acceptsHome config server home s.clock) = true))
  | _, .replaceRelay relayId _ endpoint _ =>
      inferInstanceAs (Decidable (acceptsEndpoint relays relayId endpoint = true))
  | _, .updateRelay relayId _ endpoint _ =>
      inferInstanceAs (Decidable (acceptsEndpoint relays relayId endpoint = true))
  | _, .tick _ | _, .authority _ | _, .removeHome _ _ | _, .unregisterRelay _ _ _
  | _, .releaseTravel _ _ _ | _, .pruneTravels _ | _, .authorize _ | _, .request _ | _, .read _
  | _, .login _ _ | _, .locate _ | _, .list _ | _, .sign _ _ | _, .find _ | _, .grant _ _ _ _
  | _, .ready _ _ _ _ | _, .deliver _ | _, .abandon _ | _, .expireGrants _ | _, .dropRelay _
  | _, .revoke _ _ _ _ | _, .retain _ | _, .conclude _ => inferInstanceAs (Decidable True)

/-- A Relay reports an address that no other Relay lists, and neither it nor the list is too long. -/
def Apart (s : Sys) : Action → Prop
  | .replaceRelay relayId _ endpoint _ | .updateRelay relayId _ endpoint _ =>
      ∀ e ∈ endpoint, e.id.utf8ByteSize ≤ maxIdBytes ∧
        (listedBeside s.registry relayId).length < Control.maxRelayEndpoints ∧
        ∀ other ∈ listedBeside s.registry relayId, other.managementAddr ≠ e.managementAddr
  | _ => True

instance : ∀ (s : Sys) (action : Action), Decidable (s.Apart action)
  | s, .replaceRelay relayId _ endpoint _ => inferInstanceAs (Decidable
      (∀ e ∈ endpoint, e.id.utf8ByteSize ≤ maxIdBytes ∧
        (listedBeside s.registry relayId).length < Control.maxRelayEndpoints ∧
        ∀ other ∈ listedBeside s.registry relayId, other.managementAddr ≠ e.managementAddr))
  | s, .updateRelay relayId _ endpoint _ => inferInstanceAs (Decidable
      (∀ e ∈ endpoint, e.id.utf8ByteSize ≤ maxIdBytes ∧
        (listedBeside s.registry relayId).length < Control.maxRelayEndpoints ∧
        ∀ other ∈ listedBeside s.registry relayId, other.managementAddr ≠ e.managementAddr))
  | _, .registerHome _ _ | _, .updateCatalog _ _ | _, .tick _ | _, .authority _
  | _, .removeHome _ _ | _, .unregisterRelay _ _ _ | _, .releaseTravel _ _ _ | _, .pruneTravels _
  | _, .authorize _ | _, .request _ | _, .read _ | _, .login _ _ | _, .locate _ | _, .list _
  | _, .sign _ _ | _, .find _ | _, .grant _ _ _ _ | _, .ready _ _ _ _ | _, .deliver _
  | _, .abandon _ | _, .expireGrants _ | _, .dropRelay _ | _, .revoke _ _ _ _ | _, .retain _
  | _, .conclude _ => inferInstanceAs (Decidable True)

/-- The catalog that a Travel is shown. -/
def shown (s : Sys) (config : Config) (server : ServerAuthorization) (travel : TravelCredential)
    (now : ℕ) : Catalog :=
  catalogForCredentials config.codec.toCodec s.homes.catalog
    (server.verified.activeCredentials travel.travelId travel.managementSpkiSha256 now)
    (some config.trust) now

/-- The payload of the snapshot that the Server would sign for a Travel. -/
def document (s : Sys) (config : Config) (server : ServerAuthorization)
    (travel : TravelCredential) (now : ℕ) : ControlSnapshotPayload :=
  config.payload s.registry.directory (s.shown config server travel now) travel.travelId
    travel.managementSpkiSha256 now s.nextGeneration

/-- A Travel is shown few enough Homes, and its snapshot is short enough. -/
def WithinBudget (s : Sys) (config : Config) (server : ServerAuthorization)
    (travel : TravelCredential) (now : ℕ) : Prop :=
  (s.shown config server travel now).homes.length ≤ Control.maxCatalogHomes ∧
    config.payloadLen (s.document config server travel now) ≤ maxControlSnapshotPayloadBytes

/-- A Travel with a credential, active or not, is to be sent a snapshot, and a Relay is listed. -/
structure Asks (s : Sys) (server : ServerAuthorization) (travel : TravelCredential) : Prop where
  server_eq : s.authority.server = some server
  travel_mem : travel ∈ server.verified.credentials
  listed : s.registry.directory.relays ≠ []

/-- What the Server needs besides the reports: a generation that is left and that it stores, and a
trust document that is valid when the snapshot is signed and until the snapshot expires. The clock
of the one who verifies may be behind by the skew. -/
structure Provided (s : Sys) (config : Config) (server : ServerAuthorization)
    (travel : TravelCredential) (now : ℕ) (stored : Bool) : Prop where
  stored : stored = true
  next_lt : s.nextGeneration + 1 < 2 ^ 64
  trust : config.trust.validateAt now = true
  begun : config.trust.notBeforeUnixSecs ≤ max now maxClockSkewSecs
  lasts : (s.document config server travel now).expiresAtUnixSecs ≤ config.trust.notAfterUnixSecs

/-- `ControlSigner::sign` for a Travel succeeds. -/
def Signs (s : Sys) (config : Config) (server : ServerAuthorization) (travel : TravelCredential)
    (now : ℕ) (stored : Bool) : Prop :=
  config.sign s.registry.directory (s.shown config server travel now) travel.travelId
    travel.managementSpkiSha256 now s.nextGeneration stored =
      (some (s.document config server travel now), s.nextGeneration + 1)

/-- What is signed for a Travel is verified until it expires. -/
def Verifies (s : Sys) (config : Config) (server : ServerAuthorization)
    (travel : TravelCredential) (now : ℕ) : Prop :=
  ∀ (env : Control.Installation) (snapshot : SignedControlSnapshot),
    config.Signed env (s.document config server travel now) snapshot →
    ∀ later, now ≤ later + maxClockSkewSecs →
      later < (s.document config server travel now).expiresAtUnixSecs →
      ∃ verified, env.verify snapshot later = some verified ∧
        verified.payload = s.document config server travel now

/-- The Server can sign for every Travel. -/
def Signable (s : Sys) (config : Config) : Prop :=
  ∀ server travel now stored, s.Asks server travel → s.Provided config server travel now stored →
    s.Signs config server travel now stored ∧ s.Verifies config server travel now

end Sys
end FlowSplice.Server.Travels
