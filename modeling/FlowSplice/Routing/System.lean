import FlowSplice.Lib.Slots
import FlowSplice.Relay.Requests
import FlowSplice.Server.Travels

/-! Route requests of Travels between their Relays and the Server: `handle_travel_route` and the
control session of `relay/src/main.rs`, and `handle_route_request` and `complete_relay_work` of
`server/src/main.rs`. A call of `handle_travel_route` is numbered. The messages that stem from it
carry its number, which is not sent. -/
namespace FlowSplice.Routing

open Relay (PendingRequests RequestError TravelRouteContext ServerGrant)
open Server.Travels (Config RouteRequest PendingRelayGrant takeMatchingPendingGrant)
open Server.Travels.Sys (pendingGrant)

/-- `ServerRelayGrant` or `RouteDenied`, as it answers the request of a call. -/
structure Reply where
  call : ℕ
  requestId : Uuid
  answer : Except String ServerGrant

/-- What a Relay sends; a `RelayWorkReady` has the number of the call that sends it. -/
inductive ToServer where
  | routeRequest (call : ℕ) (context : TravelRouteContext)
  | relayWorkReady (call : ℕ) (requestId workId : Uuid)
deriving DecidableEq

inductive End where
  | opening
  | running
  | closed
deriving DecidableEq, Repr

/-- A control session, its two ends, and what each has yet to read. -/
structure Session where
  relayId : String
  relayEnd : End := .opening
  serverEnd : End := .opening
  toServer : List ToServer := []
  toRelay : List Reply := []

/-- Where `handle_travel_route` is: it has begun, is to send its request, waits for the answer, has
registered a route, and has sent the readiness. Of an answer it keeps the call whose request it
answers. -/
inductive Phase where
  | asked
  | sending (session : Uuid)
  | waiting
  | holding (grant : ServerGrant) (origin : ℕ) (routeId : Uuid)
  | signalled (origin : ℕ) (routeId : Uuid)

/-- `reply` is the channel of the answer. -/
structure Call where
  relayId : String
  connection : Uuid
  context : TravelRouteContext
  phase : Phase := .asked
  reply : Option Reply := none

/-- What is written to the connection of a Travel. -/
inductive Answer where
  | granted (routeId : Uuid)
  | denied (reason : String)
deriving DecidableEq, Repr

/-- An answer that a call wrote to its connection, with the call whose request it answers; a grant
that a request replaced, or that a readiness took, with its owner; and a control session that ended
at an error of `complete_relay_work`. -/
inductive Event where
  | delivered (call origin : ℕ) (answer : Answer)
  | replaced (call : ℕ) (owner : Option ℕ)
  | taken (call : ℕ) (owner : Option ℕ)
  | failed (session : Uuid)
deriving DecidableEq, Repr

structure RelayState where
  requests : PendingRequests Uuid := {}
  serverSession : Option Uuid := none

/-- `works` has the call for which each work was granted. -/
structure Sys where
  relays : String → RelayState := fun _ => {}
  calls : Slots Call := {}
  sessions : Table Uuid Session := ∅
  relaySessions : Table String Uuid := ∅
  pendingGrants : Table Uuid PendingRelayGrant := ∅
  works : Table Uuid ℕ := ∅
  events : List Event := []

/-- Why a Relay denies a route by itself. -/
inductive Refusal where
  | pendingRouteLimit
  | endpointUnavailable
deriving DecidableEq, Repr

def Refusal.reason : Refusal → String
  | .pendingRouteLimit => "relay pending-route limit reached"
  | .endpointUnavailable => "relay public endpoint is unavailable"

/-- The reasons of `request_server_route`. -/
def routeError : RequestError → String
  | .duplicate => "route request is already in flight"
  | .queueClosed => "server connection closed"
  | .responseClosed => "route response channel closed"
  | .timedOut => "route request timed out"

/-- How `handle_route_request` decides up to its lock: it denies the request, or has found the Home
and drawn a work. -/
inductive Verdict where
  | denied (reason : String)
  | granted (home : Uuid) (relayDataAddr : String) (workId : Uuid) (workSecret : Bytes)
      (now instant : ℕ)
deriving DecidableEq

/-- `ask` begins a call. `refuse` to `grant` are its steps, among which `timeOut` is that of the
answer and `leave` the end of its connection. `written` is how many messages of the queue a Relay
had written. -/
inductive Action where
  | connect (session : Uuid) (relayId : String)
  | attach (session : Uuid)
  | enter (session : Uuid)
  | relayEnds (session : Uuid) (written : ℕ)
  | serverEnds (session : Uuid)
  | ask (relayId : String) (connection : Uuid) (context : TravelRouteContext)
  | refuse (call : ℕ) (refusal : Refusal)
  | register (call : ℕ)
  | send (call : ℕ)
  | timeOut (call : ℕ)
  | leave (call : ℕ)
  | receive (session : Uuid)
  | conclude (call now : ℕ) (routeId : Uuid)
  | signal (call : ℕ)
  | grant (call : ℕ)
  | handleRequest (session : Uuid) (verdict : Verdict)
  | handleReady (session : Uuid) (instant : ℕ)
  | expire (instant : ℕ)
  | revoke (credentialId : Uuid)

/-- The body of `RouteRequest` at the Server, with the Relay that asks. -/
def routeRequest (context : TravelRouteContext) (relayId relayDataAddr : String) :
    RouteRequest where
  request := context.request
  travel := context.travel
  travelSession := context.travelSession
  credential := context.credential
  home := context.home
  relayId := relayId
  relayDataAddr := relayDataAddr

/-- The body of `ServerRelayGrant`. -/
def serverGrant (pending : PendingRelayGrant) (homeId : String) : ServerGrant where
  workId := pending.workId
  workSecret := pending.openMessage.workSecret
  credentialId := pending.credentialId
  homeId := homeId
  expiresAtUnixSecs := pending.openMessage.expiresAtUnixSecs

namespace Sys

def setSession (s : Sys) (id : Uuid) (session : Session) : Sys :=
  { s with sessions := s.sessions.insert id session }

def setRelay (s : Sys) (relayId : String) (relay : RelayState) : Sys :=
  { s with relays := Function.update s.relays relayId relay }

def setRequests (s : Sys) (relayId : String) (requests : PendingRequests Uuid) : Sys :=
  s.setRelay relayId { s.relays relayId with requests }

def setCall (s : Sys) (i : ℕ) (call : Call) : Sys := { s with calls := s.calls.set i (some call) }

/-- The call is over. -/
def finish (s : Sys) (i : ℕ) : Sys := { s with calls := s.calls.set i none }

def record (s : Sys) (event : Event) : Sys := { s with events := s.events ++ [event] }

def deny (s : Sys) (i origin : ℕ) (reason : String) : Sys :=
  (s.finish i).record (.delivered i origin (.denied reason))

/-- The registration of a call is dropped. -/
def unregister (s : Sys) (i : ℕ) (call : Call) : Sys :=
  s.setRequests call.relayId ((s.relays call.relayId).requests.drop call.context.request i)

def connect (s : Sys) (id : Uuid) (relayId : String) : Option Sys :=
  match s.sessions.lookup id with
  | some _ => none
  | none => some (s.setSession id { relayId })

/-- The Relay takes the session for its session with the Server. -/
def attach (s : Sys) (id : Uuid) : Option Sys :=
  (s.sessions.lookup id).bind fun session =>
    if session.relayEnd = .opening then
      some ((s.setSession id { session with relayEnd := .running }).setRelay session.relayId
        { s.relays session.relayId with serverSession := some id })
    else none

def enter (s : Sys) (id : Uuid) : Option Sys :=
  (s.sessions.lookup id).bind fun session =>
    if session.serverEnd = .opening then
      some { s.setSession id { session with serverEnd := .running } with
        relaySessions := s.relaySessions.insert session.relayId id }
    else none

def relayEnds (s : Sys) (id : Uuid) (written : ℕ) : Option Sys :=
  (s.sessions.lookup id).map fun session =>
    let ended := s.setSession id { session with
      relayEnd := .closed
      toServer := session.toServer.take written
      toRelay := [] }
    let relay := s.relays session.relayId
    if relay.serverSession = some id then
      ended.setRelay session.relayId { relay with serverSession := none }
    else ended

/-- The last session of a Relay takes the pending grants of the Relay with it. -/
def endServer (s : Sys) (id : Uuid) (session : Session) : Sys :=
  let ended := s.setSession id { session with serverEnd := .closed, toServer := [] }
  if s.relaySessions.lookup session.relayId = some id then
    { ended with
      relaySessions := s.relaySessions.erase session.relayId
      pendingGrants := s.pendingGrants.retain fun _ grant => grant.relayId != session.relayId }
  else ended

def ask (s : Sys) (relayId : String) (connection : Uuid) (context : TravelRouteContext) : Sys :=
  { s with calls := s.calls.push { relayId, connection, context } }

def refuse (s : Sys) (i : ℕ) (refusal : Refusal) : Option Sys :=
  (s.calls.get i).bind fun call =>
    match call.phase with
    | .asked => some (s.deny i i refusal.reason)
    | _ => none

/-- `request_server_route` up to the send, and `PendingRequests::register`. -/
def register (s : Sys) (i : ℕ) : Option Sys :=
  (s.calls.get i).bind fun call =>
    match call.phase with
    | .asked =>
      match (s.relays call.relayId).serverSession with
      | none => some (s.deny i i "server is unavailable")
      | some session =>
        match (s.relays call.relayId).requests.register call.context.request i with
        | .error error => some (s.deny i i (routeError error))
        | .ok requests =>
          some ((s.setCall i { call with phase := .sending session }).setRequests call.relayId
            requests)
    | _ => none

/-- The request enters the queue of the session, or the session is over. -/
def send (s : Sys) (i : ℕ) : Option Sys :=
  (s.calls.get i).bind fun call =>
    match call.phase with
    | .sending id =>
      (s.sessions.lookup id).map fun session =>
        if session.relayEnd = .running then
          (s.setCall i { call with phase := .waiting }).setSession id
            { session with toServer := session.toServer ++ [.routeRequest i call.context] }
        else (s.unregister i call).deny i i (routeError .queueClosed)
    | _ => none

def timeOut (s : Sys) (i : ℕ) : Option Sys :=
  (s.calls.get i).bind fun call =>
    match call.phase with
    | .asked | .sending _ | .waiting =>
      some ((s.unregister i call).deny i i (routeError .timedOut))
    | _ => none

def leave (s : Sys) (i : ℕ) : Option Sys :=
  (s.calls.get i).map fun call => (s.unregister i call).finish i

/-- The Relay reads an answer. -/
def receive (s : Sys) (id : Uuid) : Option Sys :=
  (s.sessions.lookup id).bind fun session =>
    match session.relayEnd, session.toRelay with
    | .running, reply :: toRelay =>
      let read := s.setSession id { session with toRelay }
      match (s.relays session.relayId).requests.complete reply.requestId with
      | (none, _) => some read
      | (some i, requests) =>
        let completed := read.setRequests session.relayId requests
        match s.calls.get i with
        | none => some completed
        | some call => some (completed.setCall i { call with reply := some reply })
    | _, _ => none

/-- The answer of the Server is checked, and a route is registered. -/
def conclude (s : Sys) (i now : ℕ) (routeId : Uuid) : Option Sys :=
  (s.calls.get i).bind fun call =>
    match call.phase, call.reply with
    | .waiting, some reply =>
      let answered := s.unregister i call
      match reply.answer with
      | .error reason => some (answered.deny i reply.call reason)
      | .ok grant =>
        if grant.credentialId = call.context.credential ∧ grant.homeId = call.context.home then
          if grant.expiresAtUnixSecs ≤ now then
            some (answered.deny i reply.call "Server direct-route grant expired")
          else some (answered.setCall i { call with phase := .holding grant reply.call routeId })
        else some (answered.deny i reply.call "Server route credential or Home mismatch")
    | _, _ => none

/-- The readiness is sent on the present session. Without one the connection ends. -/
def signal (s : Sys) (i : ℕ) : Option Sys :=
  (s.calls.get i).bind fun call =>
    match call.phase with
    | .holding grant origin routeId =>
      match (s.relays call.relayId).serverSession with
      | none => some (s.finish i)
      | some id =>
        (s.sessions.lookup id).map fun session =>
          (s.setCall i { call with phase := .signalled origin routeId }).setSession id
            { session with
              toServer := session.toServer ++ [.relayWorkReady i call.context.request grant.workId] }
    | _ => none

def grant (s : Sys) (i : ℕ) : Option Sys :=
  (s.calls.get i).bind fun call =>
    match call.phase with
    | .signalled origin routeId =>
      some ((s.finish i).record (.delivered i origin (.granted routeId)))
    | _ => none

/-- An answer is written; no one reads it when the Relay is gone. -/
def answer (s : Sys) (id : Uuid) (session : Session) (reply : Reply) : Sys :=
  if session.relayEnd = .closed then s.setSession id session
  else s.setSession id { session with toRelay := session.toRelay ++ [reply] }

/-- `handle_route_request`, from its lock on where it grants. -/
def handleRequest (s : Sys) (config : Config) (id : Uuid) (verdict : Verdict) : Option Sys :=
  (s.sessions.lookup id).bind fun session =>
    match session.serverEnd, session.toServer with
    | .running, .routeRequest i context :: toServer =>
      let session := { session with toServer }
      match verdict with
      | .denied reason => some (s.answer id session ⟨i, context.request, .error reason⟩)
      | .granted home relayDataAddr workId workSecret now instant =>
        if config.maxPendingWork ≤ s.pendingGrants.len then
          some (s.answer id session
            ⟨i, context.request, .error "server pending-work limit reached"⟩)
        else if (s.works.lookup workId).isSome then none
        else
          let pending := pendingGrant config (routeRequest context session.relayId relayDataAddr)
            home workId workSecret now instant
          let granted := { s with
            pendingGrants := s.pendingGrants.insert context.request pending
            works := s.works.insert workId i }
          let reply : Reply := ⟨i, context.request, .ok (serverGrant pending context.home)⟩
          match s.pendingGrants.lookup context.request with
          | none => some (granted.answer id session reply)
          | some old =>
            some ((granted.answer id session reply).record
              (.replaced i (s.works.lookup old.workId)))
    | _, _ => none

/-- `complete_relay_work`, whose error ends the session. -/
def handleReady (s : Sys) (id : Uuid) (instant : ℕ) : Option Sys :=
  (s.sessions.lookup id).bind fun session =>
    match session.serverEnd, session.toServer with
    | .running, .relayWorkReady i requestId workId :: toServer =>
      let session := { session with toServer }
      match takeMatchingPendingGrant s.pendingGrants session.relayId requestId workId instant with
      | .error _ => some ((s.endServer id session).record (.failed id))
      | .ok (_, grants) =>
        let taken := { s.setSession id session with pendingGrants := grants }
        match s.pendingGrants.lookup requestId with
        | none => some taken
        | some pending => some (taken.record (.taken i (s.works.lookup pending.workId)))
    | _, _ => none

def step (config : Config) (s : Sys) : Action → Option Sys
  | .connect id relayId => s.connect id relayId
  | .attach id => s.attach id
  | .enter id => s.enter id
  | .relayEnds id written => s.relayEnds id written
  | .serverEnds id => (s.sessions.lookup id).map (s.endServer id)
  | .ask relayId connection context => some (s.ask relayId connection context)
  | .refuse i refusal => s.refuse i refusal
  | .register i => s.register i
  | .send i => s.send i
  | .timeOut i => s.timeOut i
  | .leave i => s.leave i
  | .receive id => s.receive id
  | .conclude i now routeId => s.conclude i now routeId
  | .signal i => s.signal i
  | .grant i => s.grant i
  | .handleRequest id verdict => s.handleRequest config id verdict
  | .handleReady id instant => s.handleReady id instant
  | .expire instant => some { s with
      pendingGrants := s.pendingGrants.retain fun _ pending => decide (instant < pending.expires) }
  | .revoke credentialId => some { s with
      pendingGrants := s.pendingGrants.retain fun _ work => work.credentialId != credentialId }

end Sys

def machine (config : Config) : Machine Sys Action where
  start := {}
  step := Sys.step config

/-! Two Relays with a session each. -/

def sampleSessions : List Action :=
  [.connect 1 "relay-1", .attach 1, .enter 1, .connect 2 "relay-2", .attach 2, .enter 2]

def sampleContext (credential : Uuid) : TravelRouteContext where
  request := 5
  credential := credential
  travel := "travel-1"
  travelSession := 7
  home := "home-1"

end FlowSplice.Routing
