import FlowSplice.Lib.History
import FlowSplice.Lib.Slots
import FlowSplice.Authorization.Followers
import FlowSplice.Server.Catalog
import FlowSplice.Server.Directory
import FlowSplice.Server.Registries

/-! The calls of a Server that authorize Travels, sign control snapshots for them and grant their
routes, and the revocations that run beside them: `authorize_travel`, `handle_route_request`,
`complete_relay_work` and `revoke_home_credential` of `server/src/main.rs`. -/
namespace FlowSplice.Server.Travels

open Control (RelayEndpoint RelayDirectory HomeCatalog Catalog ControlSnapshotPayload)
open History (Read)

def maxControlSnapshotPayloadBytes : ℕ := 400 * 1024

/-- The Server, with its `ControlSigner`. -/
structure Config extends ServerConfig where
  id : String
  signerEpoch : ℕ
  controlPublicKey : String
  payloadLen : ControlSnapshotPayload → ℕ
  controlSnapshotTtlSecs : ℕ := 120
  workTtlSecs : ℕ := 15
  maxPendingWork : ℕ := 256

inductive Denial where
  | unknownCredential
  | identityMismatch
  | homeNotAuthorized
  | session (error : SessionError)
  | inactive
  | noCatalog
  | notSigned
  | homeUnavailable
  | pendingLimit
deriving DecidableEq, Repr

/-- The arguments of `authorize_travel`. -/
structure Asked where
  credentialId : Uuid
  travelId : String
  travelSessionId : Uuid
  leaseId : Option Uuid := none
  homeId : Option String := none
deriving DecidableEq, Repr

/-- `RouteRequestContext`, with the Relay that asks and its endpoint. -/
structure RouteRequest where
  request : Uuid
  travel : String
  travelSession : Uuid
  credential : Uuid
  home : String
  relayId : String
  relayDataAddr : String
deriving DecidableEq, Repr

def RouteRequest.asked (route : RouteRequest) : Asked where
  credentialId := route.credential
  travelId := route.travel
  travelSessionId := route.travelSession
  homeId := some route.home

/-- The body of `OpenRelayWork`. -/
structure OpenRelayWork where
  workId : Uuid
  workSecret : Bytes
  credentialId : Uuid
  relayId : String
  relayDataAddr : String
  expiresAtUnixSecs : ℕ
deriving DecidableEq, Repr

/-- The queue to a Home is that of its session. -/
structure PendingRelayGrant where
  relayId : String
  workId : Uuid
  credentialId : Uuid
  home : Uuid
  openMessage : OpenRelayWork
  expires : ℕ
deriving DecidableEq, Repr

/-- The first reads of `authorize_travel`, and what it found. -/
structure Basis where
  now : Read ℕ
  authorization : Read ServerAuthorization
  managementSpkiSha256 : String
  credentials : List TravelCredential

/-- Where a call is: it has read the clock, the authorization, been admitted to the login, read the
directory and the catalog; as a route request it is then authorized, and has found the Home. -/
inductive Phase where
  | started (now : Read ℕ)
  | checked (basis : Basis)
  | online (basis : Basis)
  | located (basis : Basis) (directory : Read RelayDirectory)
  | shown (basis : Basis) (directory : Read RelayDirectory) (catalog : Read Catalog)
      (filtered : Catalog)
  | authorized (basis : Basis)
  | granting (basis : Basis) (home : Uuid)

structure Call where
  asked : Asked
  route : Option RouteRequest
  phase : Phase

/-- A revocation that has been stored has its grants to retain, and then to return. -/
inductive Stage where
  | retaining
  | returning
deriving DecidableEq, Repr

structure Revocation where
  credentialId : Uuid
  stage : Stage
deriving DecidableEq, Repr

inductive Reply where
  | accepted (payload : ControlSnapshotPayload)
  | denied (denial : Denial)
  | granted (grant : PendingRelayGrant)
deriving DecidableEq, Repr

/-- A snapshot that was signed, and what it was built from. -/
structure Issued where
  asked : Asked
  basis : Basis
  directory : Read RelayDirectory
  catalog : Read Catalog
  payload : ControlSnapshotPayload

inductive Event where
  | opened (work : OpenRelayWork)
  | revoked (credentialId : Uuid)
deriving DecidableEq, Repr

/-- What the calls read. -/
structure View where
  clock : ℕ
  authorization : Option ServerAuthorization
  directory : RelayDirectory
  catalog : Catalog

/-- The state of the Server. `history` logs the views after each step, `replies` what the calls
answered, `issued` the snapshots signed, `granted` the routes granted, and `events` the works that
were sent to Homes and the revocations that have returned. -/
structure Sys where
  clock : ℕ := 0
  authority : AuthorizationServer.Sys
  homes : HomeRegistry := {}
  registry : RelayDirectoryRegistry
  travels : TravelSessionRegistry := {}
  nextGeneration : ℕ
  pendingGrants : Table Uuid PendingRelayGrant := ∅
  calls : Slots Call := {}
  deliveries : Slots PendingRelayGrant := {}
  revocations : Slots Revocation := {}
  history : List View
  replies : List (ℕ × Reply) := []
  issued : List Issued := []
  granted : List (RouteRequest × Basis) := []
  events : List Event := []

/-- `instant` is a time of the monotonic clock, `stored` tells whether a generation is stored, and
`reason` is trimmed. -/
inductive Action where
  | tick (now : ℕ)
  | authority (action : AuthorizationServer.Action)
  | registerHome (home : HomeCatalog) (sessionId : Uuid)
  | updateCatalog (home : HomeCatalog) (sessionId : Uuid)
  | removeHome (homeId : String) (sessionId : Uuid)
  | replaceRelay (relayId : String) (sessionId : Uuid) (endpoint : Option RelayEndpoint)
      (stored : Bool)
  | updateRelay (relayId : String) (sessionId : Uuid) (endpoint : Option RelayEndpoint)
      (stored : Bool)
  | unregisterRelay (relayId : String) (sessionId : Uuid) (stored : Bool)
  | releaseTravel (travelId : String) (sessionId leaseId : Uuid)
  | pruneTravels (instant : ℕ)
  | authorize (asked : Asked)
  | request (route : RouteRequest)
  | read (call : ℕ)
  | login (call : ℕ) (instant : ℕ)
  | locate (call : ℕ)
  | list (call : ℕ)
  | sign (call : ℕ) (stored : Bool)
  | find (call : ℕ)
  | grant (call : ℕ) (workId : Uuid) (workSecret : Bytes) (instant : ℕ)
  | ready (relayId : String) (requestId workId : Uuid) (instant : ℕ)
  | deliver (delivery : ℕ)
  | abandon (delivery : ℕ)
  | expireGrants (instant : ℕ)
  | dropRelay (relayId : String)
  | revoke (homeId : String) (credentialId : Uuid) (reason : String) (outcome : StoreOutcome)
  | retain (revocation : ℕ)
  | conclude (revocation : ℕ)

/-- `authorize_travel` under the lock of the authorization. -/
def readAuthorization (authorization : VerifiedAuthorization) (asked : Asked) (now : ℕ) :
    Except Denial (String × List TravelCredential) :=
  match authorization.credential asked.credentialId with
  | none => .error .unknownCredential
  | some credential =>
    if credential.travelId ≠ asked.travelId then .error .identityMismatch
    else
      let credentials :=
        authorization.activeCredentials asked.travelId credential.managementSpkiSha256 now
      if asked.homeId.any fun homeId => !credentials.any (·.allowsHome homeId) then
        .error .homeNotAuthorized
      else .ok (credential.managementSpkiSha256, credentials)

/-- The login of a Travel is authorized where it has active credentials. -/
def admitTravel (travels : TravelSessionRegistry) (asked : Asked)
    (credentials : List TravelCredential) (instant : ℕ) :
    Except Denial Unit × TravelSessionRegistry :=
  if credentials ≠ [] then
    match travels.authorize asked.travelId asked.travelSessionId asked.leaseId instant with
    | (.ok (), travels) => (.ok (), travels)
    | (.error error, travels) => (.error (.session error), travels)
  else if asked.homeId.isSome then (.error .inactive, travels)
  else (.ok (), travels)

/-- `ControlSigner::sign`: the payload it signs, and the next generation. A payload that cannot be
signed has used its generation up. -/
def Config.sign (config : Config) (directory : RelayDirectory) (catalog : Catalog)
    (travelId travelManagementSpkiSha256 : String) (now next : ℕ) (stored : Bool) :
    Option ControlSnapshotPayload × ℕ :=
  if !config.trust.validateAt now then (none, next)
  else
    match allocateGeneration next stored with
    | none => (none, next)
    | some (generation, following) =>
      let payload : ControlSnapshotPayload :=
        { deploymentId := config.trust.deploymentId
          serverId := config.id
          signerEpoch := config.signerEpoch
          travelId := travelId
          travelManagementSpkiSha256 := travelManagementSpkiSha256
          generation := generation
          issuedAtUnixSecs := now
          expiresAtUnixSecs := min (now + config.controlSnapshotTtlSecs) (2 ^ 64 - 1)
          relayDirectory := directory
          catalog := catalog }
      if payload.validateAt now &&
          (config.trust.serverControlKey config.id config.signerEpoch).any
            (eqIgnoreAsciiCase config.controlPublicKey) &&
          decide (config.payloadLen payload ≤ maxControlSnapshotPayloadBytes) then
        (some payload, following)
      else (none, following)

inductive ReadyError where
  | mismatch
deriving DecidableEq, Repr

/-- `take_matching_pending_grant`: what is taken, and the grants that stay. -/
def takeMatchingPendingGrant (grants : Table Uuid PendingRelayGrant) (relayId : String)
    (requestId workId : Uuid) (now : ℕ) :
    Except ReadyError (Option PendingRelayGrant × Table Uuid PendingRelayGrant) :=
  match grants.lookup requestId with
  | none => .ok (none, grants)
  | some pending =>
    if pending.relayId ≠ relayId ∨ pending.workId ≠ workId then .error .mismatch
    else .ok (if pending.expires ≤ now then none else some pending, grants.erase requestId)

namespace Sys

def view (s : Sys) : View where
  clock := s.clock
  authorization := s.authority.server
  directory := s.registry.directory
  catalog := s.homes.catalog

/-- The time of the last entry of the history, which is the present view. -/
def time (s : Sys) : ℕ := s.history.length - 1

def record (s : Sys) : Sys := { s with history := s.history ++ [s.view] }

def setCall (s : Sys) (i : ℕ) (call : Call) (phase : Phase) : Sys :=
  { s with calls := s.calls.set i (some { call with phase := phase }) }

/-- The call is over. -/
def reply (s : Sys) (i : ℕ) (reply : Reply) : Sys :=
  { s with calls := s.calls.set i none, replies := s.replies ++ [(i, reply)] }

def begin (s : Sys) (asked : Asked) (route : Option RouteRequest) : Sys :=
  { s with calls := s.calls.push ⟨asked, route, .started ⟨s.clock, s.time⟩⟩ }

/-- Imports, and the start of the Server. -/
def authorityStep (s : Sys) (config : Config) : AuthorizationServer.Action → Option Sys
  | .stop | .revokeFromHome _ _ _ _ _ => none
  | action =>
    (s.authority.step config.toServerConfig action).map fun authority =>
      { s with authority := authority }

/-- A change of the directory, under its lock. -/
def changeRegistry (s : Sys) (stored : Bool)
    (change : ℕ → Option RelayDirectoryRegistry) : Sys :=
  match allocateGeneration s.nextGeneration stored with
  | none => s
  | some (generation, next) =>
    match change generation with
    | none => { s with nextGeneration := next }
    | some registry => { s with nextGeneration := next, registry := registry }

def read (s : Sys) (i : ℕ) : Option Sys :=
  match s.calls.get i, s.authority.server with
  | some call, some server =>
    match call.phase with
    | .started now =>
      match readAuthorization server.verified call.asked now.value with
      | .error denial => some (s.reply i (.denied denial))
      | .ok (managementSpkiSha256, credentials) =>
        some (s.setCall i call
          (.checked ⟨now, ⟨server, s.time⟩, managementSpkiSha256, credentials⟩))
    | _ => none
  | _, _ => none

def login (s : Sys) (i : ℕ) (instant : ℕ) : Option Sys :=
  (s.calls.get i).bind fun call =>
    match call.phase with
    | .checked basis =>
      match admitTravel s.travels call.asked basis.credentials instant with
      | (.error denial, travels) => some { s.reply i (.denied denial) with travels := travels }
      | (.ok (), travels) => some { s.setCall i call (.online basis) with travels := travels }
    | _ => none

def locate (s : Sys) (i : ℕ) : Option Sys :=
  (s.calls.get i).bind fun call =>
    match call.phase with
    | .online basis => some (s.setCall i call (.located basis ⟨s.registry.directory, s.time⟩))
    | _ => none

/-- The catalog is filtered at the present time. -/
def list (s : Sys) (config : Config) (i : ℕ) : Option Sys :=
  (s.calls.get i).bind fun call =>
    match call.phase with
    | .located basis directory =>
      let filtered := catalogForCredentials config.codec.toCodec s.homes.catalog basis.credentials
        (some config.trust) s.clock
      if call.asked.homeId.any fun homeId => !filtered.homes.any (·.homeId == homeId) then
        some (s.reply i (.denied .noCatalog))
      else some (s.setCall i call (.shown basis directory ⟨s.homes.catalog, s.time⟩ filtered))
    | _ => none

def sign (s : Sys) (config : Config) (i : ℕ) (stored : Bool) : Option Sys :=
  (s.calls.get i).bind fun call =>
    match call.phase with
    | .shown basis directory catalog filtered =>
      match config.sign directory.value filtered call.asked.travelId basis.managementSpkiSha256
          s.clock s.nextGeneration stored with
      | (none, next) => some { s.reply i (.denied .notSigned) with nextGeneration := next }
      | (some payload, next) =>
        let issued := s.issued ++ [⟨call.asked, basis, directory, catalog, payload⟩]
        if call.route.isSome then
          some { s.setCall i call (.authorized basis) with nextGeneration := next, issued := issued }
        else some { s.reply i (.accepted payload) with nextGeneration := next, issued := issued }
    | _ => none

def find (s : Sys) (i : ℕ) : Option Sys :=
  (s.calls.get i).bind fun call =>
    match call.phase, call.route with
    | .authorized basis, some route =>
      match s.homes.sender route.home with
      | none => some (s.reply i (.denied .homeUnavailable))
      | some home => some (s.setCall i call (.granting basis home))
    | _, _ => none

def pendingGrant (config : Config) (route : RouteRequest) (home workId : Uuid) (workSecret : Bytes)
    (now instant : ℕ) : PendingRelayGrant where
  relayId := route.relayId
  workId := workId
  credentialId := route.credential
  home := home
  openMessage :=
    { workId := workId
      workSecret := workSecret
      credentialId := route.credential
      relayId := route.relayId
      relayDataAddr := route.relayDataAddr
      expiresAtUnixSecs := min (now + config.workTtlSecs) (2 ^ 64 - 1) }
  expires := instant + config.workTtlSecs

/-- The grant becomes pending under the lock, and is written to the Relay. -/
def grant (s : Sys) (config : Config) (i : ℕ) (workId : Uuid) (workSecret : Bytes) (instant : ℕ) :
    Option Sys :=
  (s.calls.get i).bind fun call =>
    match call.phase, call.route with
    | .granting basis home, some route =>
      if config.maxPendingWork ≤ s.pendingGrants.len then
        some (s.reply i (.denied .pendingLimit))
      else
        let pending := pendingGrant config route home workId workSecret s.clock instant
        some { s.reply i (.granted pending) with
          pendingGrants := s.pendingGrants.insert route.request pending
          granted := s.granted ++ [(route, basis)] }
    | _, _ => none

/-- `complete_relay_work` up to the end of its lock. A mismatch ends the session of the Relay. -/
def ready (s : Sys) (relayId : String) (requestId workId : Uuid) (instant : ℕ) : Sys :=
  match takeMatchingPendingGrant s.pendingGrants relayId requestId workId instant with
  | .error _ => s
  | .ok (none, grants) => { s with pendingGrants := grants }
  | .ok (some pending, grants) =>
    { s with pendingGrants := grants, deliveries := s.deliveries.push pending }

/-- `revoke_home_credential` up to the end of its lock. -/
def revoke (s : Sys) (config : Config) (homeId : String) (credentialId : Uuid) (reason : String)
    (outcome : StoreOutcome) : Option Sys :=
  if reason.isEmpty || decide (256 < reason.utf8ByteSize) then some s
  else
    s.authority.server.bind fun server =>
      let result :=
        server.revokeFromHome config.toServerConfig credentialId reason homeId s.clock
      (s.authority.step config.toServerConfig
        (.revokeFromHome credentialId reason homeId s.clock outcome)).map fun authority =>
          match result with
          | .error _ => { s with authority := authority }
          | .ok none =>
            { s with
              authority := authority
              revocations := s.revocations.push ⟨credentialId, .returning⟩ }
          | .ok (some next) =>
            if (next.persist config.toServerConfig s.authority.file outcome).1.isOk then
              { s with
                authority := authority
                revocations := s.revocations.push ⟨credentialId, .retaining⟩ }
            else { s with authority := authority }

def retain (s : Sys) (i : ℕ) : Option Sys :=
  (s.revocations.get i).bind fun revocation =>
    if revocation.stage = .retaining then
      some { s with
        pendingGrants := s.pendingGrants.retain fun _ pending =>
          pending.credentialId != revocation.credentialId
        revocations := s.revocations.set i (some { revocation with stage := .returning }) }
    else none

/-- The revocation has been broadcast, where it changed something, and returns. -/
def conclude (s : Sys) (i : ℕ) : Option Sys :=
  (s.revocations.get i).bind fun revocation =>
    if revocation.stage = .returning then
      some { s with
        revocations := s.revocations.set i none
        events := s.events ++ [.revoked revocation.credentialId] }
    else none

def act (config : Config) (s : Sys) : Action → Option Sys
  | .tick now => some { s with clock := now }
  | .authority action => s.authorityStep config action
  | .registerHome home sessionId => some { s with homes := (s.homes.register home sessionId).1 }
  | .updateCatalog home sessionId =>
    some { s with homes := (s.homes.updateCatalog home sessionId).1 }
  | .removeHome homeId sessionId => some { s with homes := (s.homes.remove homeId sessionId).1 }
  | .replaceRelay relayId sessionId endpoint stored =>
    some (s.changeRegistry stored fun generation =>
      some (s.registry.replaceSession relayId sessionId endpoint generation))
  | .updateRelay relayId sessionId endpoint stored =>
    if s.registry.isCurrent relayId sessionId then
      some (s.changeRegistry stored (s.registry.updateSession relayId sessionId endpoint))
    else none
  | .unregisterRelay relayId sessionId stored =>
    if s.registry.isCurrent relayId sessionId then
      some (s.changeRegistry stored (s.registry.unregisterSession relayId sessionId))
    else none
  | .releaseTravel travelId sessionId leaseId =>
    some { s with travels := (s.travels.release travelId sessionId leaseId).2 }
  | .pruneTravels instant => some { s with travels := s.travels.prune instant }
  | .authorize asked => some (s.begin asked none)
  | .request route => some (s.begin route.asked (some route))
  | .read i => s.read i
  | .login i instant => s.login i instant
  | .locate i => s.locate i
  | .list i => s.list config i
  | .sign i stored => s.sign config i stored
  | .find i => s.find i
  | .grant i workId workSecret instant => s.grant config i workId workSecret instant
  | .ready relayId requestId workId instant => some (s.ready relayId requestId workId instant)
  | .deliver i =>
    (s.deliveries.get i).map fun pending =>
      { s with
        deliveries := s.deliveries.set i none
        events := s.events ++ [.opened pending.openMessage] }
  | .abandon i =>
    (s.deliveries.get i).map fun _ => { s with deliveries := s.deliveries.set i none }
  | .expireGrants instant =>
    some { s with
      pendingGrants := s.pendingGrants.retain fun _ pending => decide (instant < pending.expires) }
  | .dropRelay relayId =>
    some { s with
      pendingGrants := s.pendingGrants.retain fun _ pending => pending.relayId != relayId }
  | .revoke homeId credentialId reason outcome => s.revoke config homeId credentialId reason outcome
  | .retain i => s.retain i
  | .conclude i => s.conclude i

def step (config : Config) (s : Sys) (action : Action) : Option Sys :=
  (s.act config action).map record

end Sys

/-- `State::new`, before the authorization is loaded from its file. -/
def machine (config : Config) (file : AuthorizationFile) (generation : ℕ) :
    Machine Sys Action where
  start :=
    { authority := { file }
      registry := { generation := generation }
      nextGeneration := generation + 1
      history := [⟨0, none, { generation := generation }, {}⟩] }
  step := Sys.step config

theorem sign_some {config : Config} {directory : RelayDirectory} {catalog : Catalog}
    {travelId spki : String} {now next following : ℕ} {stored : Bool}
    {payload : ControlSnapshotPayload}
    (h : config.sign directory catalog travelId spki now next stored = (some payload, following)) :
    payload.generation = next ∧ following = next + 1 ∧ payload.travelId = travelId ∧
      payload.relayDirectory = directory ∧ payload.catalog = catalog := by
  unfold Config.sign at h
  split_ifs at h
  · cases h
  · split at h
    · cases h
    · next generation following' halloc =>
      obtain ⟨hgeneration, hfollowing⟩ := allocateGeneration_eq_some halloc
      dsimp only at h
      split_ifs at h
      · obtain ⟨hpayload, hnext⟩ := Prod.mk.inj h
        rw [← Option.some.inj hpayload, ← hnext]
        exact ⟨hgeneration, hfollowing, rfl, rfl, rfl⟩
      · cases h

theorem sign_none {config : Config} {directory : RelayDirectory} {catalog : Catalog}
    {travelId spki : String} {now next following : ℕ} {stored : Bool}
    (h : config.sign directory catalog travelId spki now next stored = (none, following)) :
    next ≤ following := by
  unfold Config.sign at h
  split_ifs at h
  · rw [(Prod.mk.inj h).2]
  · split at h
    · rw [(Prod.mk.inj h).2]
    · next generation following' halloc =>
      obtain ⟨-, hfollowing⟩ := allocateGeneration_eq_some halloc
      dsimp only at h
      split_ifs at h
      · cases h
      · rw [← (Prod.mk.inj h).2]
        omega

namespace Sys
variable {config : Config} {s s' : Sys} {a : Action}

/-- Nothing changes but what calls read, their replies, and the generation, which may grow. -/
structure Quiet (s s' : Sys) : Prop where
  authority : s'.authority = s.authority
  pendingGrants : s'.pendingGrants = s.pendingGrants
  calls : s'.calls = s.calls
  deliveries : s'.deliveries = s.deliveries
  revocations : s'.revocations = s.revocations
  history : s'.history = s.history
  issued : s'.issued = s.issued
  granted : s'.granted = s.granted
  events : s'.events = s.events
  nextGeneration : s.nextGeneration ≤ s'.nextGeneration

theorem Quiet.refl (s : Sys) : Quiet s s :=
  ⟨rfl, rfl, rfl, rfl, rfl, rfl, rfl, rfl, rfl, Nat.le_refl _⟩

/-- How a call moves on. -/
inductive Advance (config : Config) (s : Sys) (i : ℕ) (call : Call) : Action → Phase → Prop where
  | checked (now : Read ℕ) (server : ServerAuthorization) (spki : String)
      (credentials : List TravelCredential) (hphase : call.phase = .started now)
      (hserver : s.authority.server = some server)
      (hread : readAuthorization server.verified call.asked now.value = .ok (spki, credentials)) :
      Advance config s i call (.read i) (.checked ⟨now, ⟨server, s.time⟩, spki, credentials⟩)
  | online (basis : Basis) (instant : ℕ) (hphase : call.phase = .checked basis) :
      Advance config s i call (.login i instant) (.online basis)
  | located (basis : Basis) (hphase : call.phase = .online basis) :
      Advance config s i call (.locate i) (.located basis ⟨s.registry.directory, s.time⟩)
  | shown (basis : Basis) (directory : Read RelayDirectory)
      (hphase : call.phase = .located basis directory) :
      Advance config s i call (.list i)
        (.shown basis directory ⟨s.homes.catalog, s.time⟩
          (catalogForCredentials config.codec.toCodec s.homes.catalog basis.credentials
            (some config.trust) s.clock))
  | granting (basis : Basis) (home : Uuid) (hphase : call.phase = .authorized basis) :
      Advance config s i call (.find i) (.granting basis home)

/-- How the state moves, before the new view is recorded. -/
inductive Moves (config : Config) (s : Sys) : Action → Sys → Prop where
  | quiet (a : Action) (t : Sys) (hq : s.Quiet t) : Moves config s a t
  | authority (a : Action) (action : AuthorizationServer.Action)
      (authority : AuthorizationServer.Sys) (haction : action ≠ .stop)
      (hstep : s.authority.step config.toServerConfig action = some authority)
      (hkeeps : ∀ server next, s.authority.server = some server →
        authority.server = some next → server.KeepsRevocations next) :
      Moves config s a { s with authority := authority }
  | begin (a : Action) (asked : Asked) (route : Option RouteRequest)
      (hroute : ∀ r ∈ route, asked = r.asked) : Moves config s a (s.begin asked route)
  | advance (a : Action) (t : Sys) (i : ℕ) (call : Call) (phase : Phase) (hq : s.Quiet t)
      (hcall : s.calls.get i = some call) (hadvance : s.Advance config i call a phase) :
      Moves config s a (t.setCall i call phase)
  | stop (a : Action) (t : Sys) (i : ℕ) (hq : s.Quiet t) (reply : Reply) :
      Moves config s a (t.reply i reply)
  | sign (i : ℕ) (stored : Bool) (t : Sys) (call : Call) (basis : Basis)
      (directory : Read RelayDirectory) (catalog : Read Catalog)
      (payload : ControlSnapshotPayload) (after : Option Call)
      (hcall : s.calls.get i = some call)
      (hphase : call.phase = .shown basis directory catalog payload.catalog)
      (htravel : payload.travelId = call.asked.travelId)
      (hdirectory : payload.relayDirectory = directory.value)
      (hafter : ∀ c ∈ after, c = { call with phase := .authorized basis })
      (hq : s.Quiet t) (hgeneration : payload.generation = s.nextGeneration)
      (hnext : s.nextGeneration < t.nextGeneration) :
      Moves config s (.sign i stored) { t with
        calls := s.calls.set i after
        issued := s.issued ++ [⟨call.asked, basis, directory, catalog, payload⟩] }
  | grant (i : ℕ) (workId : Uuid) (workSecret : Bytes) (instant : ℕ) (t : Sys) (call : Call)
      (route : RouteRequest) (basis : Basis) (pending : PendingRelayGrant)
      (hcall : s.calls.get i = some call) (hroute : call.route = some route)
      (hphase : ∃ home, call.phase = .granting basis home)
      (hcredential : pending.credentialId = route.credential)
      (hopen : pending.openMessage.credentialId = route.credential)
      (hrelay : pending.openMessage.relayId = route.relayId) (hq : s.Quiet t) :
      Moves config s (.grant i workId workSecret instant) { t with
        calls := s.calls.set i none
        pendingGrants := s.pendingGrants.insert route.request pending
        granted := s.granted ++ [(route, basis)] }
  | drop (a : Action) (grants : Table Uuid PendingRelayGrant)
      (hgrants : ∀ id pending, grants.lookup id = some pending →
        s.pendingGrants.lookup id = some pending) :
      Moves config s a { s with pendingGrants := grants }
  | take (a : Action) (id : Uuid) (pending : PendingRelayGrant)
      (hpending : s.pendingGrants.lookup id = some pending) :
      Moves config s a { s with
        pendingGrants := s.pendingGrants.erase id
        deliveries := s.deliveries.push pending }
  | deliver (i : ℕ) (pending : PendingRelayGrant) (hpending : s.deliveries.get i = some pending) :
      Moves config s (.deliver i) { s with
        deliveries := s.deliveries.set i none
        events := s.events ++ [.opened pending.openMessage] }
  | abandon (i : ℕ) : Moves config s (.abandon i) { s with deliveries := s.deliveries.set i none }
  | revoke (a : Action) (homeId reason : String) (credentialId : Uuid) (outcome : StoreOutcome)
      (authority : AuthorizationServer.Sys) (stage : Stage)
      (hstep : s.authority.step config.toServerConfig
        (.revokeFromHome credentialId reason homeId s.clock outcome) = some authority)
      (server next : ServerAuthorization) (hserver : s.authority.server = some server)
      (hnext : authority.server = some next)
      (hrevoked : stage = .returning ∧ next = server ∧ credentialId ∈ server.snapshot.revoked ∨
        stage = .retaining ∧ credentialId ∉ server.snapshot.revoked ∧
          next.snapshot.revoked = insert credentialId server.snapshot.revoked) :
      Moves config s a { s with
        authority := authority
        revocations := s.revocations.push ⟨credentialId, stage⟩ }
  | retain (i : ℕ) (revocation : Revocation) (hrevocation : s.revocations.get i = some revocation)
      (hstage : revocation.stage = .retaining) :
      Moves config s (.retain i) { s with
        pendingGrants := s.pendingGrants.retain fun _ pending =>
          pending.credentialId != revocation.credentialId
        revocations := s.revocations.set i (some { revocation with stage := .returning }) }
  | conclude (i : ℕ) (revocation : Revocation)
      (hrevocation : s.revocations.get i = some revocation)
      (hstage : revocation.stage = .returning) :
      Moves config s (.conclude i) { s with
        revocations := s.revocations.set i none
        events := s.events ++ [.revoked revocation.credentialId] }

theorem authorityStep_moves {action : AuthorizationServer.Action}
    (h : s.authorityStep config action = some s') : s.Moves config (.authority action) s' := by
  have hcases : ∀ authority, s.authority.step config.toServerConfig action = some authority →
      action ≠ .stop → (∀ id reason home now outcome,
        action ≠ .revokeFromHome id reason home now outcome) →
      s.Moves config (.authority action) { s with authority := authority } :=
    fun authority hstep hstop hrevoke => .authority _ action authority hstop hstep
      fun _ _ hserver hnext =>
        AuthorizationServer.Sys.step_keeps hstop hrevoke hserver hnext hstep
  cases action with
  | stop => cases h
  | revokeFromHome _ _ _ _ _ => cases h
  | load _ | importHomeEndpoint _ _ _ | importBusinessHome _ _ _ _ | importCredential _ _ _ =>
    obtain ⟨authority, hstep, rfl⟩ := Option.map_eq_some_iff.mp h
    exact hcases authority hstep (fun hstop => by cases hstop) fun _ _ _ _ _ hrevoke => by cases hrevoke

theorem changeRegistry_quiet (s : Sys) (stored : Bool)
    (change : ℕ → Option RelayDirectoryRegistry) : s.Quiet (s.changeRegistry stored change) := by
  unfold changeRegistry
  cases halloc : allocateGeneration s.nextGeneration stored with
  | none => exact .refl s
  | some allocated =>
    obtain ⟨-, hnext⟩ := allocateGeneration_eq_some halloc
    have hle : s.nextGeneration ≤ allocated.2 := by omega
    dsimp only
    cases change allocated.1 with
    | none => exact ⟨rfl, rfl, rfl, rfl, rfl, rfl, rfl, rfl, rfl, hle⟩
    | some registry => exact ⟨rfl, rfl, rfl, rfl, rfl, rfl, rfl, rfl, rfl, hle⟩

theorem read_moves {i : ℕ} (h : s.read i = some s') : s.Moves config (.read i) s' := by
  unfold read at h
  split at h
  · next call server hcall hserver =>
    split at h
    · next now hphase =>
      split at h
      · next denial hread =>
        rw [← Option.some.inj h]
        exact .stop _ s i (.refl s) _
      · next spki credentials hread =>
        rw [← Option.some.inj h]
        exact .advance _ s i call _ (.refl s) hcall
          (.checked now server spki credentials hphase hserver hread)
    · cases h
  · cases h

theorem login_moves {i instant : ℕ} (h : s.login i instant = some s') :
    s.Moves config (.login i instant) s' := by
  unfold login at h
  obtain ⟨call, hcall, h⟩ := Option.bind_eq_some_iff.mp h
  have hquiet : ∀ travels, s.Quiet { s with travels := travels } := fun _ =>
    ⟨rfl, rfl, rfl, rfl, rfl, rfl, rfl, rfl, rfl, Nat.le_refl _⟩
  split at h
  · next basis hphase =>
    split at h
    · next denial travels hadmit =>
      rw [← Option.some.inj h]
      exact .stop _ { s with travels := travels } i (hquiet travels) _
    · next travels hadmit =>
      rw [← Option.some.inj h]
      exact .advance _ { s with travels := travels } i call _ (hquiet travels) hcall
        (.online basis instant hphase)
  · cases h

theorem locate_moves {i : ℕ} (h : s.locate i = some s') : s.Moves config (.locate i) s' := by
  unfold locate at h
  obtain ⟨call, hcall, h⟩ := Option.bind_eq_some_iff.mp h
  split at h
  · next basis hphase =>
    rw [← Option.some.inj h]
    exact .advance _ s i call _ (.refl s) hcall (.located basis hphase)
  · cases h

theorem list_moves {i : ℕ} (h : s.list config i = some s') : s.Moves config (.list i) s' := by
  unfold list at h
  obtain ⟨call, hcall, h⟩ := Option.bind_eq_some_iff.mp h
  split at h
  · next basis directory hphase =>
    dsimp only at h
    split_ifs at h
    · rw [← Option.some.inj h]
      exact .stop _ s i (.refl s) _
    · rw [← Option.some.inj h]
      exact .advance _ s i call _ (.refl s) hcall (.shown basis directory hphase)
  · cases h

theorem sign_moves {i : ℕ} {stored : Bool} (h : s.sign config i stored = some s') :
    s.Moves config (.sign i stored) s' := by
  unfold sign at h
  obtain ⟨call, hcall, h⟩ := Option.bind_eq_some_iff.mp h
  split at h
  · next basis directory catalog filtered hphase =>
    have hquiet : ∀ replies next, s.nextGeneration ≤ next →
        s.Quiet { s with replies := replies, nextGeneration := next } := fun _ _ hnext =>
      ⟨rfl, rfl, rfl, rfl, rfl, rfl, rfl, rfl, rfl, hnext⟩
    split at h
    · next following hsign =>
      rw [← Option.some.inj h]
      exact .stop _ { s with nextGeneration := following } i (hquiet _ _ (sign_none hsign)) _
    · next payload following hsign =>
      obtain ⟨hgeneration, hfollowing, htravel, hdirectory, rfl⟩ := sign_some hsign
      have hlt : s.nextGeneration < following := by omega
      have hle : s.nextGeneration ≤ following := Nat.le_of_lt hlt
      dsimp only at h
      split_ifs at h with hroute
      · rw [← Option.some.inj h]
        exact .sign i stored { s with nextGeneration := following } call basis directory catalog
          payload (some { call with phase := .authorized basis }) hcall hphase htravel hdirectory
          (fun c hc => (Option.some.inj hc).symm) (hquiet _ _ hle) hgeneration hlt
      · rw [← Option.some.inj h]
        exact .sign i stored
          { s with replies := s.replies ++ [(i, .accepted payload)], nextGeneration := following }
          call basis directory catalog payload none hcall hphase htravel hdirectory
          (fun c hc => by cases hc) (hquiet _ _ hle) hgeneration hlt
  · cases h

theorem find_moves {i : ℕ} (h : s.find i = some s') : s.Moves config (.find i) s' := by
  unfold find at h
  obtain ⟨call, hcall, h⟩ := Option.bind_eq_some_iff.mp h
  split at h
  · next basis route hphase hroute =>
    split at h
    · rw [← Option.some.inj h]
      exact .stop _ s i (.refl s) _
    · next home hsender =>
      rw [← Option.some.inj h]
      exact .advance _ s i call _ (.refl s) hcall (.granting basis home hphase)
  · cases h

theorem grant_moves {i : ℕ} {workId : Uuid} {workSecret : Bytes} {instant : ℕ}
    (h : s.grant config i workId workSecret instant = some s') :
    s.Moves config (.grant i workId workSecret instant) s' := by
  unfold grant at h
  obtain ⟨call, hcall, h⟩ := Option.bind_eq_some_iff.mp h
  split at h
  · next basis home route hphase hroute =>
    split_ifs at h with hlimit
    · rw [← Option.some.inj h]
      exact .stop _ s i (.refl s) _
    · rw [← Option.some.inj h]
      let pending := pendingGrant config route home workId workSecret s.clock instant
      exact .grant i workId workSecret instant
        { s with replies := s.replies ++ [(i, .granted pending)] } call route basis pending hcall
        hroute ⟨home, hphase⟩ rfl rfl rfl ⟨rfl, rfl, rfl, rfl, rfl, rfl, rfl, rfl, rfl, Nat.le_refl _⟩
  · cases h

theorem ready_moves (a : Action) (relayId : String) (requestId workId : Uuid) (instant : ℕ) :
    s.Moves config a (s.ready relayId requestId workId instant) := by
  have herase : ∀ id pending, (s.pendingGrants.erase requestId).lookup id = some pending →
      s.pendingGrants.lookup id = some pending := fun _ _ hl => (Table.lookup_erase_cases hl).2
  unfold ready takeMatchingPendingGrant
  cases hpending : s.pendingGrants.lookup requestId with
  | none => exact .quiet _ _ (.refl s)
  | some pending =>
    dsimp only
    by_cases hmatch : pending.relayId ≠ relayId ∨ pending.workId ≠ workId
    · rw [if_pos hmatch]
      exact .quiet _ _ (.refl s)
    · rw [if_neg hmatch]
      by_cases hexpired : pending.expires ≤ instant
      · rw [if_pos hexpired]
        exact .drop _ _ herase
      · rw [if_neg hexpired]
        exact .take _ requestId pending hpending

theorem revoke_moves {homeId reason : String} {credentialId : Uuid} {outcome : StoreOutcome}
    (h : s.revoke config homeId credentialId reason outcome = some s') :
    s.Moves config (.revoke homeId credentialId reason outcome) s' := by
  unfold revoke at h
  split_ifs at h
  · rw [← Option.some.inj h]
    exact .quiet _ _ (.refl s)
  · obtain ⟨server, hserver, h⟩ := Option.bind_eq_some_iff.mp h
    obtain ⟨authority, hstep, h⟩ := Option.map_eq_some_iff.mp h
    have haction : AuthorizationServer.Action.revokeFromHome credentialId reason homeId s.clock
        outcome ≠ .stop := fun hstop => by cases hstop
    have hfailed : authority.server = some server →
        s.Moves config (.revoke homeId credentialId reason outcome)
          { s with authority := authority } := fun hsame => by
      refine .authority _ _ authority haction hstep fun older newer holder hnewer => ?_
      rw [hserver] at holder
      rw [hsame] at hnewer
      rw [← Option.some.inj holder, ← Option.some.inj hnewer]
      rfl
    have hafter := hstep
    simp only [AuthorizationServer.Sys.step, AuthorizationServer.Sys.operate, hserver,
      Option.map_some, Option.some.injEq] at hafter
    cases hresult : server.revokeFromHome config.toServerConfig credentialId reason homeId
        s.clock with
    | error error =>
      rw [hresult] at h hafter
      rw [← h]
      refine hfailed ?_
      rw [← hafter]
      exact hserver
    | ok proposed =>
      rw [hresult] at h hafter
      cases proposed with
      | none =>
        rw [← h]
        have hrevoked := ServerAuthorization.revokeFromHome_unchanged hresult
        refine .revoke _ homeId reason credentialId outcome authority .returning hstep server server
          hserver ?_ (.inl ⟨rfl, rfl, hrevoked⟩)
        rw [← hafter]
        exact hserver
      | some next =>
        obtain ⟨hbefore, hrevoked⟩ := ServerAuthorization.revokeFromHome_revokes hresult
        dsimp only at h hafter
        rcases next.persist_cases config.toServerConfig s.authority.file outcome with hp |
          ⟨error, hp⟩
        · rw [hp] at h hafter
          rw [← h]
          refine .revoke _ homeId reason credentialId outcome authority .retaining hstep server next
            hserver ?_ (.inr ⟨rfl, hbefore, hrevoked⟩)
          rw [← hafter]
        · have herror : ∃ file, next.persist config.toServerConfig s.authority.file outcome =
              (.error error, file) := by
            rcases hp with hp | hp <;> exact ⟨_, hp⟩
          obtain ⟨file, hp⟩ := herror
          rw [hp] at h hafter
          rw [← h]
          refine hfailed ?_
          rw [← hafter]

theorem act_moves (h : s.act config a = some s') : s.Moves config a s' := by
  cases a with
  | tick _ | registerHome _ _ | updateCatalog _ _ | removeHome _ _ | releaseTravel _ _ _
  | pruneTravels _ =>
    rw [← Option.some.inj h]
    exact .quiet _ _ ⟨rfl, rfl, rfl, rfl, rfl, rfl, rfl, rfl, rfl, Nat.le_refl _⟩
  | authority action => exact authorityStep_moves h
  | replaceRelay relayId sessionId endpoint stored =>
    rw [← Option.some.inj h]
    exact .quiet _ _ (changeRegistry_quiet s stored _)
  | updateRelay _ _ _ stored | unregisterRelay _ _ stored =>
    simp only [act] at h
    split_ifs at h
    rw [← Option.some.inj h]
    exact .quiet _ _ (changeRegistry_quiet s stored _)
  | authorize asked =>
    rw [← Option.some.inj h]
    exact .begin _ asked none fun r hr => by cases hr
  | request route =>
    rw [← Option.some.inj h]
    refine .begin _ route.asked (some route) fun r hr => ?_
    rw [Option.some.inj hr]
  | read i => exact read_moves h
  | login i instant => exact login_moves h
  | locate i => exact locate_moves h
  | list i => exact list_moves h
  | sign i stored => exact sign_moves h
  | find i => exact find_moves h
  | grant i workId workSecret instant => exact grant_moves h
  | ready relayId requestId workId instant =>
    rw [← Option.some.inj h]
    exact ready_moves _ relayId requestId workId instant
  | deliver i =>
    obtain ⟨pending, hpending, rfl⟩ := Option.map_eq_some_iff.mp h
    exact .deliver i pending hpending
  | abandon i =>
    obtain ⟨pending, -, rfl⟩ := Option.map_eq_some_iff.mp h
    exact .abandon i
  | expireGrants _ | dropRelay _ =>
    rw [← Option.some.inj h]
    refine .drop _ _ fun _ _ hl => ?_
    rw [Table.lookup_retain] at hl
    exact (Option.filter_eq_some_iff.mp hl).1
  | revoke homeId credentialId reason outcome => exact revoke_moves h
  | retain i =>
    obtain ⟨revocation, hrevocation, h⟩ := Option.bind_eq_some_iff.mp h
    split_ifs at h with hstage
    rw [← Option.some.inj h]
    exact .retain i revocation hrevocation hstage
  | conclude i =>
    obtain ⟨revocation, hrevocation, h⟩ := Option.bind_eq_some_iff.mp h
    split_ifs at h with hstage
    rw [← Option.some.inj h]
    exact .conclude i revocation hrevocation hstage

/-- A step moves the state, and records its view. -/
theorem step_moves (h : s.step config a = some s') :
    ∃ t, s.Moves config a t ∧ s' = t.record := by
  obtain ⟨t, ht, rfl⟩ := Option.map_eq_some_iff.mp h
  exact ⟨t, act_moves ht, rfl⟩

end Sys

/-! A Server with one Home, one Relay and one Travel. -/

def sampleConfig : Config :=
  { sampleServer with
    id := "server-1"
    signerEpoch := 1
    controlPublicKey := sampleKey 'a'
    payloadLen := fun _ => 1000 }

def sampleHome : HomeCatalog where
  homeId := "home-1"
  homeAlias := "Home"
  services := [⟨"web", "Web", .tcp, "127.0.0.1:80"⟩]

def sampleRelay : RelayEndpoint := ⟨"relay-1", "192.0.2.1:443", "192.0.2.1:444", samplePin '9'⟩

def sampleAsked : Asked where
  credentialId := 1
  travelId := "travel-1"
  travelSessionId := 7
  leaseId := some 1

def sampleRoute : RouteRequest where
  request := 5
  travel := "travel-1"
  travelSession := 7
  credential := 1
  home := "home-1"
  relayId := "relay-1"
  relayDataAddr := "192.0.2.1:444"

/-- The Server starts, imports a credential, and the Home and the Relay connect. -/
def sampleStart : List Action :=
  [.tick 1000, .authority (.load .stored),
    .authority (.importCredential sampleSignedCredential "home-1" .stored),
    .registerHome sampleHome 1, .replaceRelay "relay-1" 1 (some sampleRelay) true]

end FlowSplice.Server.Travels
