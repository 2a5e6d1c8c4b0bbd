import FlowSplice.Lib.Machine
import FlowSplice.Lib.Slots
import FlowSplice.Lib.Keyed
import FlowSplice.Lib.Log
import FlowSplice.Authorization.Followers
import FlowSplice.Relay.Requests

/-! A Relay: the authorization that it applies and publishes, its routes, and the data sockets that
claim them, of `relay/src/main.rs`; the preface of a data socket is that of `flowsplice-core/src/route.rs`. -/
namespace FlowSplice.Relay

inductive RouteSide where
  | travel
  | home
deriving DecidableEq, Repr

structure RoutePreface where
  side : RouteSide
  id : Uuid
deriving DecidableEq, Repr

def magic : Bytes := stringBytes "FSLCRTE2"

/-- `SIGNED_LEN`: the magic, the side and the id. -/
def signedLen : ℕ := 8 + 1 + 16
def macLen : ℕ := 32

namespace RouteSide

def toByte : RouteSide → UInt8
  | travel => 1
  | home => 2

def tryFrom (value : UInt8) : Option RouteSide :=
  if value = 1 then some .travel else if value = 2 then some .home else none

end RouteSide

/-- `Uuid::as_bytes`. -/
def uuidBytes (id : Uuid) : Bytes :=
  (List.range 16).map fun i => UInt8.ofNat (id / 256 ^ (15 - i))

/-- `Uuid::from_slice`. -/
def uuidOfBytes (bytes : Bytes) : Uuid := bytes.foldl (fun id byte => 256 * id + byte.toNat) 0

def RoutePreface.signedBytes (preface : RoutePreface) : Bytes :=
  magic ++ [preface.side.toByte] ++ uuidBytes preface.id

/-- `read_preface`, of what a socket sends. -/
def readPreface (bytes : Bytes) : Option (RoutePreface × Bytes) :=
  let signed := bytes.take signedLen
  let mac := (bytes.drop signedLen).take macLen
  if mac.length < macLen then none
  else if signed.take magic.length ≠ magic then none
  else
    (signed[magic.length]?.bind RouteSide.tryFrom).map fun side =>
      (⟨side, uuidOfBytes (signed.drop (magic.length + 1))⟩, mac)

/-- A Relay of a deployment. `hmacVerifies` takes a key, a message and a tag. -/
structure Config where
  deployment : ServerConfig
  hmacVerifies : Bytes → Bytes → Bytes → Bool
  routeTtlSecs : ℕ

def Config.verifyPreface (config : Config) (preface : RoutePreface) (mac secret : Bytes) : Bool :=
  secret.length == 32 && mac.length == macLen &&
    config.hmacVerifies secret preface.signedBytes mac

/-- A data socket that was admitted: what it presented and when, the authorization at that time,
and how many routes had been registered. -/
structure Admitted where
  socket : ℕ
  preface : RoutePreface
  mac : Bytes
  instant : ℕ
  clock : ℕ
  authorization : VerifiedAuthorization
  registrations : ℕ

structure PendingRoute where
  credentialId : Uuid
  travelId : String
  homeId : String
  workId : Uuid
  routeSecret : Bytes
  workSecret : Bytes
  expires : ℕ
  travel : Option Admitted := none
  home : Option Admitted := none

/-- What `wait_until_authorization_inactive` does next: it has not been called yet, it checks the
credential, or it waits for another authorization than the one it has seen. -/
inductive Watch where
  | paired
  | checking (seen : ℕ)
  | waiting (seen notAfter : ℕ)
deriving DecidableEq, Repr

/-- Two sockets that are joined. -/
structure Pair where
  routeId : Uuid
  route : PendingRoute
  travel : Admitted
  home : Admitted
  watch : Watch := .paired

/-- A call of `apply_authorization_snapshot` whose snapshot the cache has accepted. The ticket is
the number of snapshots accepted before; `retained` is when the routes were cleaned up. -/
structure Applying where
  authorization : VerifiedAuthorization
  ticket : ℕ
  retained : Option ℕ := none

/-- A value of `authorization_tx`. -/
structure Published where
  authorization : VerifiedAuthorization
  ticket : ℕ
  appliedAt : ℕ

inductive AdmissionError where
  | expired
  | unsynchronized
  | inactive
  | wrongSide
  | invalidMac
  | duplicateSide
deriving DecidableEq, Repr

/-- The state of a Relay. `published` holds every value of `authorization_tx`, the last of which is
its present one. `accepted`, `registered`, `claims` and `joined` log what has happened. -/
structure Sys where
  cache : AuthorizationCache := {}
  calls : Table Uuid Applying := ∅
  published : List Published := []
  routes : Table Uuid PendingRoute := ∅
  pairs : Slots Pair := {}
  clock : ℕ := 0
  instant : ℕ := 0
  accepted : List VerifiedAuthorization := []
  registered : List (Uuid × PendingRoute) := []
  claims : List (Uuid × RouteSide) := []
  joined : List Uuid := []

/-- Calls are known by their Server session, which makes one at a time. `claim` is a data socket,
with the route that its preface is resolved to. -/
inductive Action where
  | tick (clock instant : ℕ)
  | receive (session : Uuid) (snapshot : TravelAuthorizationSnapshot) (stored : Bool)
  | retain (session : Uuid)
  | publish (session : Uuid)
  | register (request : TravelRouteContext) (grant : ServerGrant) (routeId : Uuid)
      (routeSecret : Bytes)
  | unregister (routeId : Uuid)
  | claim (bytes : Bytes) (routeId : Uuid)
  | cleanup
  | subscribe (i : ℕ)
  | check (i : ℕ)
  | wake (i : ℕ)
  | expire (i : ℕ)
  | finish (i : ℕ)
deriving DecidableEq

namespace PendingRoute

/-- `resolve_direct_route_id`: a Travel names the route, a Home names its work. -/
def resolves (route : PendingRoute) (routeId : Uuid) (preface : RoutePreface) : Bool :=
  match preface.side with
  | .travel => preface.id == routeId
  | .home => preface.id == route.workId

/-- `validate_direct_route_admission`. -/
def validateAdmission (route : PendingRoute) (config : Config) (routeId : Uuid)
    (preface : RoutePreface) (mac : Bytes) (now : ℕ) : Except AdmissionError Unit :=
  let (expectedId, expectedSecret, occupied) :=
    match preface.side with
    | .travel => (routeId, route.routeSecret, route.travel.isSome)
    | .home => (route.workId, route.workSecret, route.home.isSome)
  if preface.id ≠ expectedId then .error .wrongSide
  else if route.expires ≤ now then .error .expired
  else if !config.verifyPreface preface mac expectedSecret then .error .invalidMac
  else if occupied then .error .duplicateSide
  else .ok ()

def withSocket (route : PendingRoute) (admitted : Admitted) : PendingRoute :=
  match admitted.preface.side with
  | .travel => { route with travel := some admitted }
  | .home => { route with home := some admitted }

/-- A socket waits at the route for its other side. -/
def Waiting (route : PendingRoute) : Prop := route.travel.isSome ∨ route.home.isSome

instance (route : PendingRoute) : Decidable route.Waiting :=
  inferInstanceAs (Decidable (_ ∨ _))

end PendingRoute

namespace Sys

/-- `ensure_credential_active`: until when the credential is valid. -/
def ensureCredentialActive (s : Sys) (credentialId : Uuid) : Option ℕ :=
  s.published.getLast?.bind fun published =>
    if published.authorization.isActive credentialId s.clock then
      (published.authorization.credential credentialId).map (·.notAfterUnixSecs)
    else none

/-- `apply_authorization_snapshot` up to the end of the lock of the cache. -/
def receive (s : Sys) (config : Config) (session : Uuid) (snapshot : TravelAuthorizationSnapshot)
    (stored : Bool) : Option Sys :=
  if (s.calls.lookup session).isSome then none
  else
    match (config.deployment.authorities snapshot).bind (config.deployment.verify snapshot) with
    | none => some s
    | some authorization =>
      match s.cache.accept authorization with
      | none => some s
      | some proposed =>
        if proposed = s.cache || stored then
          some { s with
            cache := proposed
            calls := s.calls.insert session ⟨authorization, s.accepted.length, none⟩
            accepted := s.accepted ++ [authorization] }
        else some s

/-- The routes of inactive credentials are removed. -/
def retain (s : Sys) (session : Uuid) : Option Sys :=
  match s.calls.lookup session with
  | some ⟨authorization, ticket, none⟩ =>
    some { s with
      routes := s.routes.retain fun _ route => authorization.isActive route.credentialId s.clock
      calls := s.calls.insert session ⟨authorization, ticket, some s.clock⟩ }
  | _ => none

def publish (s : Sys) (session : Uuid) : Option Sys :=
  match s.calls.lookup session with
  | some ⟨authorization, ticket, some appliedAt⟩ =>
    some { s with
      published := s.published ++ [⟨authorization, ticket, appliedAt⟩]
      calls := s.calls.erase session }
  | _ => none

/-- `handle_travel_route` with the grant of the Server, up to the insertion of the route. Ids of
routes are not used again. -/
def register (s : Sys) (config : Config) (request : TravelRouteContext) (grant : ServerGrant)
    (routeId : Uuid) (routeSecret : Bytes) : Option Sys :=
  let remaining := grant.expiresAtUnixSecs - s.clock
  if grant.credentialId = request.credential ∧ grant.homeId = request.home ∧ remaining ≠ 0 ∧
      routeId ∉ s.registered.map (·.1) then
    let route : PendingRoute :=
      { credentialId := request.credential
        travelId := request.travel
        homeId := request.home
        workId := grant.workId
        routeSecret := routeSecret
        workSecret := grant.workSecret
        expires := s.instant + min remaining config.routeTtlSecs }
    some { s with
      routes := s.routes.insert routeId route
      registered := s.registered ++ [(routeId, route)] }
  else none

/-- What is checked of a socket while the routes are locked. -/
def admission (s : Sys) (config : Config) (routeId : Uuid) (route : PendingRoute)
    (preface : RoutePreface) (mac : Bytes) : Except AdmissionError Admitted :=
  if route.expires ≤ s.instant then .error .expired
  else
    match s.published.getLast? with
    | none => .error .unsynchronized
    | some published =>
      if !published.authorization.isActive route.credentialId s.clock then .error .inactive
      else
        (route.validateAdmission config routeId preface mac s.instant).map fun _ =>
          ⟨s.claims.length, preface, mac, s.instant, s.clock, published.authorization,
            s.registered.length⟩

/-- The socket takes its side; the route is removed once it has both. -/
def admitSocket (s : Sys) (routeId : Uuid) (route : PendingRoute) (admitted : Admitted) : Sys :=
  let route := route.withSocket admitted
  let s := { s with claims := s.claims ++ [(routeId, admitted.preface.side)] }
  match route.travel, route.home with
  | some travel, some home =>
    { s with
      routes := s.routes.erase routeId
      pairs := s.pairs.push { routeId, route, travel, home }
      joined := s.joined ++ [routeId] }
  | _, _ => { s with routes := s.routes.insert routeId route }

/-- A data socket of `run_data`; it is closed when it is not admitted. -/
def claim (s : Sys) (config : Config) (bytes : Bytes) (routeId : Uuid) : Sys :=
  match readPreface bytes, s.routes.lookup routeId with
  | some (preface, mac), some route =>
    if route.resolves routeId preface then
      match s.admission config routeId route preface mac with
      | .ok admitted => s.admitSocket routeId route admitted
      | .error _ => s
    else s
  | _, _ => s

def setPair (s : Sys) (i : ℕ) (pair : Option Pair) : Sys :=
  { s with pairs := s.pairs.set i pair }

def subscribe (s : Sys) (i : ℕ) : Option Sys :=
  match s.pairs.get i with
  | some ⟨routeId, route, travel, home, .paired⟩ =>
    some (s.setPair i (some ⟨routeId, route, travel, home, .checking s.published.length⟩))
  | _ => none

/-- The pair is closed when its credential is not active. -/
def check (s : Sys) (i : ℕ) : Option Sys :=
  match s.pairs.get i with
  | some ⟨routeId, route, travel, home, .checking seen⟩ =>
    some (s.setPair i ((s.ensureCredentialActive route.credentialId).map fun notAfter =>
      ⟨routeId, route, travel, home, .waiting seen notAfter⟩))
  | _ => none

def wake (s : Sys) (i : ℕ) : Option Sys :=
  match s.pairs.get i with
  | some ⟨routeId, route, travel, home, .waiting seen _⟩ =>
    if seen = s.published.length then none
    else some (s.setPair i (some ⟨routeId, route, travel, home, .checking s.published.length⟩))
  | _ => none

/-- `sleep_until_unix` is over. -/
def expire (s : Sys) (i : ℕ) : Option Sys :=
  match s.pairs.get i with
  | some ⟨_, _, _, _, .waiting _ notAfter⟩ =>
    if notAfter ≤ s.clock then some (s.setPair i none) else none
  | _ => none

def step (config : Config) (s : Sys) : Action → Option Sys
  | .tick clock instant =>
    if s.clock ≤ clock ∧ s.instant ≤ instant then some { s with clock, instant } else none
  | .receive session snapshot stored => s.receive config session snapshot stored
  | .retain session => s.retain session
  | .publish session => s.publish session
  | .register request grant routeId routeSecret =>
    s.register config request grant routeId routeSecret
  | .unregister routeId => some { s with routes := s.routes.erase routeId }
  | .claim bytes routeId => some (s.claim config bytes routeId)
  | .cleanup =>
    some { s with routes := s.routes.retain fun _ route => decide (s.instant < route.expires) }
  | .subscribe i => s.subscribe i
  | .check i => s.check i
  | .wake i => s.wake i
  | .expire i => s.expire i
  | .finish i => (s.pairs.get i).map fun _ => s.setPair i none

end Sys

/-- A Relay from the cache it finds at first. -/
def machine (config : Config) (cache : AuthorizationCache) : Machine Sys Action where
  start := { cache }
  step := Sys.step config

namespace Sys
variable {config : Config} {s s' : Sys} {a : Action}

/-- How the state moves. -/
inductive Moves (config : Config) (s : Sys) : Action → Sys → Prop where
  | same (a : Action) : Moves config s a s
  | tick (clock instant : ℕ) (hclock : s.clock ≤ clock) :
      Moves config s (.tick clock instant) { s with clock, instant }
  | accept (a : Action) (session : Uuid) (authorization : VerifiedAuthorization)
      (cache : AuthorizationCache) (hfree : s.calls.lookup session = none)
      (hcache : s.cache.accept authorization = some cache) :
      Moves config s a { s with
        cache := cache
        calls := s.calls.insert session ⟨authorization, s.accepted.length, none⟩
        accepted := s.accepted ++ [authorization] }
  | retain (session : Uuid) (authorization : VerifiedAuthorization) (ticket : ℕ)
      (hcall : s.calls.lookup session = some ⟨authorization, ticket, none⟩) :
      Moves config s (.retain session) { s with
        routes := s.routes.retain fun _ route => authorization.isActive route.credentialId s.clock
        calls := s.calls.insert session ⟨authorization, ticket, some s.clock⟩ }
  | publish (session : Uuid) (authorization : VerifiedAuthorization) (ticket appliedAt : ℕ)
      (hcall : s.calls.lookup session = some ⟨authorization, ticket, some appliedAt⟩) :
      Moves config s (.publish session) { s with
        published := s.published ++ [⟨authorization, ticket, appliedAt⟩]
        calls := s.calls.erase session }
  | register (a : Action) (routeId : Uuid) (route : PendingRoute)
      (hfresh : routeId ∉ s.registered.map (·.1))
      (hvacant : route.travel = none ∧ route.home = none) :
      Moves config s a { s with
        routes := s.routes.insert routeId route
        registered := s.registered ++ [(routeId, route)] }
  | drop (a : Action) (routes : Table Uuid PendingRoute)
      (hroutes : ∀ routeId route, routes.lookup routeId = some route →
        s.routes.lookup routeId = some route) :
      Moves config s a { s with routes := routes }
  | admitSocket (bytes mac : Bytes) (routeId : Uuid) (preface : RoutePreface) (route : PendingRoute)
      (admitted : Admitted) (hroute : s.routes.lookup routeId = some route)
      (hadmitted : s.admission config routeId route preface mac = .ok admitted) :
      Moves config s (.claim bytes routeId) (s.admitSocket routeId route admitted)
  | watch (a : Action) (i : ℕ) (pair : Pair) (watch : Watch) (hpair : s.pairs.get i = some pair)
      (hwatch : watch = .checking s.published.length ∨ ∃ seen notAfter,
        watch = .waiting seen notAfter ∧ pair.watch = .checking seen ∧
          s.ensureCredentialActive pair.route.credentialId = some notAfter) :
      Moves config s a (s.setPair i (some { pair with watch := watch }))
  | close (a : Action) (i : ℕ) : Moves config s a (s.setPair i none)

theorem receive_moves {session : Uuid} {snapshot : TravelAuthorizationSnapshot} {stored : Bool}
    (h : s.receive config session snapshot stored = some s') :
    s.Moves config (.receive session snapshot stored) s' := by
  unfold receive at h
  split_ifs at h with hbusy
  have hfree : s.calls.lookup session = none := by simpa using hbusy
  split at h
  · rw [← Option.some.inj h]
    exact .same _
  · next authorization hverified =>
    split at h
    · rw [← Option.some.inj h]
      exact .same _
    · next proposed hproposed =>
      split_ifs at h
      · rw [← Option.some.inj h]
        exact .accept _ session authorization proposed hfree hproposed
      · rw [← Option.some.inj h]
        exact .same _

theorem retain_moves {session : Uuid} (h : s.retain session = some s') :
    s.Moves config (.retain session) s' := by
  unfold retain at h
  split at h
  · next authorization ticket hcall =>
    rw [← Option.some.inj h]
    exact .retain session authorization ticket hcall
  · cases h

theorem publish_moves {session : Uuid} (h : s.publish session = some s') :
    s.Moves config (.publish session) s' := by
  unfold publish at h
  split at h
  · next authorization ticket appliedAt hcall =>
    rw [← Option.some.inj h]
    exact .publish session authorization ticket appliedAt hcall
  · cases h

theorem register_moves {request : TravelRouteContext} {grant : ServerGrant} {routeId : Uuid}
    {routeSecret : Bytes} (h : s.register config request grant routeId routeSecret = some s') :
    s.Moves config (.register request grant routeId routeSecret) s' := by
  unfold register at h
  dsimp only at h
  split_ifs at h with hgrant
  rw [← Option.some.inj h]
  exact .register _ routeId _ hgrant.2.2.2 ⟨rfl, rfl⟩

theorem claim_moves (bytes : Bytes) (routeId : Uuid) :
    s.Moves config (.claim bytes routeId) (s.claim config bytes routeId) := by
  unfold claim
  split
  · next preface mac route hread hroute =>
    split_ifs
    · split
      · next admitted hadmitted =>
        exact .admitSocket bytes mac routeId preface route admitted hroute hadmitted
      · exact .same _
    · exact .same _
  · exact .same _

theorem subscribe_moves {i : ℕ} (h : s.subscribe i = some s') :
    s.Moves config (.subscribe i) s' := by
  unfold subscribe at h
  split at h
  · next routeId route travel home hpair =>
    rw [← Option.some.inj h]
    exact .watch _ i _ _ hpair (.inl rfl)
  · cases h

theorem check_moves {i : ℕ} (h : s.check i = some s') : s.Moves config (.check i) s' := by
  unfold check at h
  split at h
  · next routeId route travel home seen hpair =>
    rw [← Option.some.inj h]
    cases hactive : s.ensureCredentialActive route.credentialId with
    | none => exact .close _ i
    | some notAfter => exact .watch _ i _ _ hpair (.inr ⟨seen, notAfter, rfl, rfl, hactive⟩)
  · cases h

theorem wake_moves {i : ℕ} (h : s.wake i = some s') : s.Moves config (.wake i) s' := by
  unfold wake at h
  split at h
  · next routeId route travel home seen notAfter hpair =>
    split_ifs at h
    rw [← Option.some.inj h]
    exact .watch _ i _ _ hpair (.inl rfl)
  · cases h

theorem expire_moves {i : ℕ} (h : s.expire i = some s') : s.Moves config (.expire i) s' := by
  unfold expire at h
  split at h
  · split_ifs at h
    rw [← Option.some.inj h]
    exact .close _ i
  · cases h

theorem step_moves (h : s.step config a = some s') : s.Moves config a s' := by
  cases a with
  | tick clock instant =>
    simp only [step] at h
    split_ifs at h with hlater
    rw [← Option.some.inj h]
    exact .tick clock instant hlater.1
  | receive session snapshot stored => exact receive_moves h
  | retain session => exact retain_moves h
  | publish session => exact publish_moves h
  | register request grant routeId routeSecret => exact register_moves h
  | unregister routeId =>
    rw [← Option.some.inj h]
    exact .drop _ _ fun _ _ hl => (Table.lookup_erase_cases hl).2
  | claim bytes routeId =>
    rw [← Option.some.inj h]
    exact claim_moves bytes routeId
  | cleanup =>
    rw [← Option.some.inj h]
    refine .drop _ _ fun _ _ hl => ?_
    rw [Table.lookup_retain] at hl
    exact (Option.filter_eq_some_iff.mp hl).1
  | subscribe i => exact subscribe_moves h
  | check i => exact check_moves h
  | wake i => exact wake_moves h
  | expire i => exact expire_moves h
  | finish i =>
    obtain ⟨pair, -, rfl⟩ := Option.map_eq_some_iff.mp h
    exact .close _ i

end Sys

end FlowSplice.Relay
