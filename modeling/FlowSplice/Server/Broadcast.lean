import FlowSplice.Lib.Slots
import FlowSplice.Lib.Keyed
import FlowSplice.Authorization.Followers

/-! How authorization snapshots reach the control connections of Homes and Relays: the first
snapshot and the catch-up of `handle_home` and `run_relay_session`, `broadcast_authorization`, and
`write_relay_control` of `server/src/main.rs`. -/
namespace FlowSplice.Server.Broadcast

inductive Kind where
  | home
  | relay
deriving DecidableEq, Repr

structure Node where
  kind : Kind
  id : String
deriving DecidableEq, Repr

/-- Where a session is: it has written the first snapshot, is registered, has read a later snapshot,
serves its queue, and is over. The writer of a Home serves the queue from its registration on. -/
inductive Stage where
  | greeted
  | registered
  | catching (snapshot : TravelAuthorizationSnapshot)
  | running
  | ended
deriving DecidableEq

/-- `queue` is the channel to the session, `written` logs what it wrote, and `wire` is what the node
has yet to read of it. -/
structure Session where
  node : Node
  initial : TravelAuthorizationSnapshot
  stage : Stage := .greeted
  authorizationGeneration : ℕ
  queue : List TravelAuthorizationSnapshot := []
  written : List TravelAuthorizationSnapshot
  wire : List TravelAuthorizationSnapshot
deriving DecidableEq

namespace Session
variable (session : Session)

def put (snapshot : TravelAuthorizationSnapshot) : Session :=
  { session with
    authorizationGeneration := snapshot.generation
    written := session.written ++ [snapshot]
    wire := session.wire ++ [snapshot] }

/-- `write_relay_control`, or the writer of a Home, which writes everything. -/
def write (snapshot : TravelAuthorizationSnapshot) : Session :=
  match session.node.kind with
  | .home => session.put snapshot
  | .relay =>
    if snapshot.generation < session.authorizationGeneration then session
    else session.put snapshot

def enqueue (snapshot : TravelAuthorizationSnapshot) : Session :=
  { session with queue := session.queue ++ [snapshot] }

/-- A registered session receives what is sent to its queue. -/
def receives : Bool :=
  match session.stage with
  | .registered | .catching _ | .running => true
  | .greeted | .ended => false

/-- The queue is served. -/
def serves : Bool :=
  match session.stage, session.node.kind with
  | .running, _ | .registered, .home | .catching _, .home => true
  | _, _ => false

end Session

/-- A call of `broadcast_authorization` that has yet to collect the senders of the Homes, or also
those of the Relays. -/
structure Publishing where
  snapshot : TravelAuthorizationSnapshot
  relays : Bool := false
deriving DecidableEq

/-- A spawned send. -/
structure Publish where
  session : Uuid
  snapshot : TravelAuthorizationSnapshot
deriving DecidableEq

/-- The state of the Server, and of the nodes: which session each opened last, and the cache that it
applies snapshots to. `registry` is `relay_sessions` and the sessions of `homes`, and `refused` logs
the sessions of which a node refused a snapshot. -/
structure Sys where
  authority : AuthorizationServer.Sys
  registry : Table Node Uuid := ∅
  sessions : Table Uuid Session := ∅
  broadcasts : Slots Publishing := {}
  publishes : Slots Publish := {}
  live : Table Node Uuid := ∅
  caches : Node → AuthorizationCache := fun _ => {}
  refused : List Uuid := []

/-- `change` is an operation under the write lock, and `rebroadcast` a Home enrollment that is
repeated. With the Server its sessions stop, and the nodes keep their caches. -/
inductive Action where
  | load (outcome : StoreOutcome)
  | stop
  | change (action : AuthorizationServer.Action)
  | rebroadcast
  | collectRelays (broadcast : ℕ)
  | collectHomes (broadcast : ℕ)
  | send (publish : ℕ)
  | connect (session : Uuid) (node : Node)
  | register (session : Uuid)
  | read (session : Uuid)
  | catchUp (session : Uuid)
  | write (session : Uuid)
  | deliver (session : Uuid)
  | close (session : Uuid)

namespace Sys

def current (s : Sys) : Option TravelAuthorizationSnapshot := s.authority.server.map (·.snapshot)

def setSession (s : Sys) (id : Uuid) (session : Session) : Sys :=
  { s with sessions := s.sessions.insert id session }

/-- The senders of one kind of node. -/
def senders (s : Sys) (kind : Kind) : List Uuid :=
  (s.registry.retain fun node _ => decide (node.kind = kind)).values

def spawn (s : Sys) (kind : Kind) (snapshot : TravelAuthorizationSnapshot) : Slots Publish :=
  s.publishes.pushAll ((s.senders kind).map fun id => ⟨id, snapshot⟩)

/-- What changes the authorization is broadcast after its lock is released. -/
def change (s : Sys) (config : ServerConfig) (action : AuthorizationServer.Action) : Option Sys :=
  (s.authority.step config action).map fun authority =>
    if authority.published.length = s.authority.published.length then
      { s with authority := authority }
    else
      match authority.server with
      | none => { s with authority := authority }
      | some server =>
        { s with
          authority := authority
          broadcasts := s.broadcasts.push ⟨server.snapshot, false⟩ }

def collectRelays (s : Sys) (i : ℕ) : Option Sys :=
  (s.broadcasts.get i).bind fun broadcast =>
    if broadcast.relays then none
    else some { s with
      broadcasts := s.broadcasts.set i (some { broadcast with relays := true })
      publishes := s.spawn .relay broadcast.snapshot }

def collectHomes (s : Sys) (i : ℕ) : Option Sys :=
  (s.broadcasts.get i).bind fun broadcast =>
    if broadcast.relays then
      some { s with
        broadcasts := s.broadcasts.set i none
        publishes := s.spawn .home broadcast.snapshot }
    else none

/-- The send succeeds, or its session is over. -/
def send (s : Sys) (i : ℕ) : Option Sys :=
  (s.publishes.get i).map fun publish =>
    let sent := { s with publishes := s.publishes.set i none }
    match s.sessions.lookup publish.session with
    | none => sent
    | some session =>
      if session.receives then sent.setSession publish.session (session.enqueue publish.snapshot)
      else sent

/-- The first snapshot is read and written. -/
def connect (s : Sys) (id : Uuid) (node : Node) : Option Sys :=
  match s.sessions.lookup id, s.current with
  | none, some snapshot =>
    some { s.setSession id
        { node := node
          initial := snapshot
          authorizationGeneration := snapshot.generation
          written := [snapshot]
          wire := [snapshot] } with
      live := s.live.insert node id }
  | _, _ => none

/-- The node has acknowledged the first snapshot. -/
def register (s : Sys) (id : Uuid) : Option Sys :=
  (s.sessions.lookup id).bind fun session =>
    if session.stage = .greeted ∧ session.wire = [] then
      some { s.setSession id { session with stage := .registered } with
        registry := s.registry.insert session.node id }
    else none

def read (s : Sys) (id : Uuid) : Option Sys :=
  match s.sessions.lookup id, s.current with
  | some session, some snapshot =>
    if session.stage = .registered then
      if snapshot.generation ≠ session.initial.generation then
        some (s.setSession id { session with stage := .catching snapshot })
      else some (s.setSession id { session with stage := .running })
    else none
  | _, _ => none

/-- A Home queues the snapshot; the session of a Relay, which serves its own queue, writes it. -/
def catchUp (s : Sys) (id : Uuid) : Option Sys :=
  (s.sessions.lookup id).bind fun session =>
    match session.stage with
    | .catching snapshot =>
      let running := { session with stage := .running }
      match session.node.kind with
      | .home => some (s.setSession id (running.enqueue snapshot))
      | .relay => some (s.setSession id (running.write snapshot))
    | _ => none

def write (s : Sys) (id : Uuid) : Option Sys :=
  (s.sessions.lookup id).bind fun session =>
    match session.queue with
    | [] => none
    | snapshot :: queue =>
      if session.serves then
        some (s.setSession id ({ session with queue := queue }.write snapshot))
      else none

/-- The session is over, and is no longer registered. -/
def close (s : Sys) (id : Uuid) : Option Sys :=
  (s.sessions.lookup id).map fun session =>
    let ended := s.setSession id { session with stage := .ended, queue := [] }
    if s.registry.lookup session.node = some id then
      { ended with registry := s.registry.erase session.node }
    else ended

/-- The node applies the next snapshot of the session that it opened last, or closes it. -/
def deliver (s : Sys) (config : ServerConfig) (id : Uuid) : Option Sys :=
  (s.sessions.lookup id).bind fun session =>
    if s.live.lookup session.node = some id then
      match session.wire with
      | [] => none
      | snapshot :: wire =>
        match follow config (s.caches session.node) snapshot with
        | some cache =>
          some { s.setSession id { session with wire := wire } with
            caches := Function.update s.caches session.node cache }
        | none => (s.close id).map fun closed => { closed with refused := s.refused ++ [id] }
    else none

def step (config : ServerConfig) (s : Sys) : Action → Option Sys
  | .load outcome =>
    (s.authority.step config (.load outcome)).map fun authority => { s with authority := authority }
  | .stop =>
    (s.authority.step config .stop).map fun authority =>
      { authority, caches := s.caches, refused := s.refused }
  | .change action =>
    match action with
    | .load _ | .stop => none
    | action => s.change config action
  | .rebroadcast =>
    s.current.map fun snapshot => { s with broadcasts := s.broadcasts.push ⟨snapshot, false⟩ }
  | .collectRelays i => s.collectRelays i
  | .collectHomes i => s.collectHomes i
  | .send i => s.send i
  | .connect id node => s.connect id node
  | .register id => s.register id
  | .read id => s.read id
  | .catchUp id => s.catchUp id
  | .write id => s.write id
  | .deliver id => s.deliver config id
  | .close id => s.close id

end Sys

def machine (config : ServerConfig) (file : AuthorizationFile) : Machine Sys Action where
  start := { authority := { file } }
  step := Sys.step config

namespace Sys
variable {config : ServerConfig} {s s' : Sys} {a : Action}

/-- How the state moves. -/
inductive Moves (config : ServerConfig) (s : Sys) : Action → Sys → Prop where
  | load (outcome : StoreOutcome) (authority : AuthorizationServer.Sys)
      (hstep : s.authority.step config (.load outcome) = some authority) :
      Moves config s (.load outcome) { s with authority := authority }
  | stop (authority : AuthorizationServer.Sys)
      (hstep : s.authority.step config .stop = some authority) :
      Moves config s .stop { authority, caches := s.caches, refused := s.refused }
  | same (action : AuthorizationServer.Action) (authority : AuthorizationServer.Sys)
      (hstep : s.authority.step config action = some authority)
      (hserver : authority.server = s.authority.server)
      (hpublished : authority.published = s.authority.published) :
      Moves config s (.change action) { s with authority := authority }
  | change (action : AuthorizationServer.Action) (authority : AuthorizationServer.Sys)
      (server : ServerAuthorization) (hstop : action ≠ .stop)
      (hstep : s.authority.step config action = some authority)
      (hserver : authority.server = some server)
      (hpublished : authority.published = s.authority.published ++ [server.snapshot]) :
      Moves config s (.change action) { s with
        authority := authority
        broadcasts := s.broadcasts.push ⟨server.snapshot, false⟩ }
  | rebroadcast (snapshot : TravelAuthorizationSnapshot) (hcurrent : s.current = some snapshot) :
      Moves config s .rebroadcast { s with
        broadcasts := s.broadcasts.push ⟨snapshot, false⟩ }
  | collect (a : Action) (i : ℕ) (broadcast : Publishing) (kind : Kind) (after : Option Publishing)
      (hbroadcast : s.broadcasts.get i = some broadcast)
      (hafter : after = some { broadcast with relays := true } ∧ kind = .relay ∨
        after = none ∧ kind = .home ∧ broadcast.relays = true) :
      Moves config s a { s with
        broadcasts := s.broadcasts.set i after
        publishes := s.spawn kind broadcast.snapshot }
  | lose (i : ℕ) (publish : Publish) (hpublish : s.publishes.get i = some publish)
      (hlost : ∀ session, s.sessions.lookup publish.session = some session →
        session.receives = false) :
      Moves config s (.send i) { s with publishes := s.publishes.set i none }
  | send (i : ℕ) (publish : Publish) (session : Session)
      (hpublish : s.publishes.get i = some publish)
      (hsession : s.sessions.lookup publish.session = some session)
      (hreceives : session.receives = true) :
      Moves config s (.send i) { s with
        publishes := s.publishes.set i none
        sessions := s.sessions.insert publish.session (session.enqueue publish.snapshot) }
  | connect (id : Uuid) (node : Node) (snapshot : TravelAuthorizationSnapshot)
      (hfree : s.sessions.lookup id = none) (hcurrent : s.current = some snapshot) :
      Moves config s (.connect id node) { s.setSession id
          { node := node
            initial := snapshot
            authorizationGeneration := snapshot.generation
            written := [snapshot]
            wire := [snapshot] } with
        live := s.live.insert node id }
  | register (id : Uuid) (session : Session) (hsession : s.sessions.lookup id = some session)
      (hstage : session.stage = .greeted) :
      Moves config s (.register id) { s.setSession id { session with stage := .registered } with
        registry := s.registry.insert session.node id }
  | read (id : Uuid) (session : Session) (snapshot : TravelAuthorizationSnapshot) (stage : Stage)
      (hsession : s.sessions.lookup id = some session) (hcurrent : s.current = some snapshot)
      (hstage : session.stage = .registered)
      (hafter : stage = .catching snapshot ∨
        stage = .running ∧ snapshot.generation = session.initial.generation) :
      Moves config s (.read id) (s.setSession id { session with stage := stage })
  | catchUpHome (id : Uuid) (session : Session) (snapshot : TravelAuthorizationSnapshot)
      (hsession : s.sessions.lookup id = some session)
      (hstage : session.stage = .catching snapshot) (hkind : session.node.kind = .home) :
      Moves config s (.catchUp id)
        (s.setSession id ({ session with stage := .running }.enqueue snapshot))
  | catchUpRelay (id : Uuid) (session : Session) (snapshot : TravelAuthorizationSnapshot)
      (hsession : s.sessions.lookup id = some session)
      (hstage : session.stage = .catching snapshot) (hkind : session.node.kind = .relay) :
      Moves config s (.catchUp id)
        (s.setSession id ({ session with stage := .running }.write snapshot))
  | write (id : Uuid) (session : Session) (snapshot : TravelAuthorizationSnapshot)
      (queue : List TravelAuthorizationSnapshot) (hsession : s.sessions.lookup id = some session)
      (hqueue : session.queue = snapshot :: queue) :
      Moves config s (.write id) (s.setSession id ({ session with queue := queue }.write snapshot))
  | close (id : Uuid) (session : Session) (registry : Table Node Uuid)
      (hsession : s.sessions.lookup id = some session)
      (hregistry : ∀ node id', registry.lookup node = some id' →
        s.registry.lookup node = some id' ∧ (node = session.node → id' ≠ id)) :
      Moves config s (.close id) { s with
        registry := registry
        sessions := s.sessions.insert id { session with stage := .ended, queue := [] } }
  | deliver (id : Uuid) (session : Session) (snapshot : TravelAuthorizationSnapshot)
      (wire : List TravelAuthorizationSnapshot) (cache : AuthorizationCache)
      (hsession : s.sessions.lookup id = some session)
      (hlive : s.live.lookup session.node = some id) (hwire : session.wire = snapshot :: wire)
      (hfollow : follow config (s.caches session.node) snapshot = some cache) :
      Moves config s (.deliver id) { s.setSession id { session with wire := wire } with
        caches := Function.update s.caches session.node cache }
  | refuse (id : Uuid) (session : Session) (snapshot : TravelAuthorizationSnapshot)
      (wire : List TravelAuthorizationSnapshot) (t : Sys)
      (hsession : s.sessions.lookup id = some session)
      (hlive : s.live.lookup session.node = some id) (hwire : session.wire = snapshot :: wire)
      (hfollow : follow config (s.caches session.node) snapshot = none) :
      Moves config s (.deliver id) t

theorem change_moves {action : AuthorizationServer.Action} (hstop : action ≠ .stop)
    (h : s.change config action = some s') : s.Moves config (.change action) s' := by
  unfold change at h
  obtain ⟨authority, hstep, rfl⟩ := Option.map_eq_some_iff.mp h
  rcases AuthorizationServer.Sys.step_published hstop hstep with ⟨hserver, hpublished⟩ |
    ⟨server, hserver, hpublished⟩
  · rw [if_pos (by rw [hpublished])]
    exact .same action authority hstep hserver hpublished
  · rw [if_neg (by simp [hpublished]), hserver]
    exact .change action authority server hstop hstep hserver hpublished

theorem send_moves {i : ℕ} (h : s.send i = some s') : s.Moves config (.send i) s' := by
  unfold send at h
  obtain ⟨publish, hpublish, rfl⟩ := Option.map_eq_some_iff.mp h
  dsimp only
  cases hsession : s.sessions.lookup publish.session with
  | none =>
    refine .lose i publish hpublish fun session hs => ?_
    rw [hsession] at hs
    cases hs
  | some session =>
    dsimp only
    cases hreceives : session.receives with
    | true =>
      rw [if_pos rfl]
      exact .send i publish session hpublish hsession hreceives
    | false =>
      rw [if_neg Bool.false_ne_true]
      refine .lose i publish hpublish fun session' hs => ?_
      rw [hsession] at hs
      rw [← Option.some.inj hs]
      exact hreceives

theorem close_moves {id : Uuid} (h : s.close id = some s') : s.Moves config (.close id) s' := by
  unfold close at h
  obtain ⟨session, hsession, rfl⟩ := Option.map_eq_some_iff.mp h
  dsimp only
  by_cases hcurrent : s.registry.lookup session.node = some id
  · rw [if_pos hcurrent]
    refine .close id session (s.registry.erase session.node) hsession fun node id' hl => ?_
    obtain ⟨hne, hl⟩ := Table.lookup_erase_cases hl
    exact ⟨hl, fun heq => absurd heq hne⟩
  · rw [if_neg hcurrent]
    refine .close id session s.registry hsession fun node id' hl => ⟨hl, fun heq hid => ?_⟩
    rw [heq, hid] at hl
    exact hcurrent hl

theorem deliver_moves {id : Uuid} (h : s.deliver config id = some s') :
    s.Moves config (.deliver id) s' := by
  unfold deliver at h
  obtain ⟨session, hsession, h⟩ := Option.bind_eq_some_iff.mp h
  split_ifs at h with hlive
  split at h
  · cases h
  · next snapshot wire hwire =>
    split at h
    · next cache hfollow =>
      rw [← Option.some.inj h]
      exact .deliver id session snapshot wire cache hsession hlive hwire hfollow
    · next hfollow => exact .refuse id session snapshot wire s' hsession hlive hwire hfollow

theorem read_moves {id : Uuid} (h : s.read id = some s') : s.Moves config (.read id) s' := by
  unfold read at h
  split at h
  · next session snapshot hsession hcurrent =>
    split_ifs at h with hstage hsame
    · rw [← Option.some.inj h]
      exact .read id session snapshot _ hsession hcurrent hstage (.inl rfl)
    · rw [← Option.some.inj h]
      have hgeneration : snapshot.generation = session.initial.generation := not_not.mp hsame
      exact .read id session snapshot _ hsession hcurrent hstage (.inr ⟨rfl, hgeneration⟩)
  · cases h

theorem catchUp_moves {id : Uuid} (h : s.catchUp id = some s') :
    s.Moves config (.catchUp id) s' := by
  unfold catchUp at h
  obtain ⟨session, hsession, h⟩ := Option.bind_eq_some_iff.mp h
  split at h
  · next snapshot hstage =>
    dsimp only at h
    cases hkind : session.node.kind with
    | home =>
      rw [hkind] at h
      rw [← Option.some.inj h]
      exact .catchUpHome id session snapshot hsession hstage hkind
    | relay =>
      rw [hkind] at h
      rw [← Option.some.inj h]
      exact .catchUpRelay id session snapshot hsession hstage hkind
  · cases h

theorem step_moves (h : s.step config a = some s') : s.Moves config a s' := by
  cases a with
  | load outcome =>
    obtain ⟨authority, hstep, rfl⟩ := Option.map_eq_some_iff.mp h
    exact .load outcome authority hstep
  | stop =>
    obtain ⟨authority, hstep, rfl⟩ := Option.map_eq_some_iff.mp h
    exact .stop authority hstep
  | change action =>
    cases action with
    | load _ | stop => cases h
    | importHomeEndpoint _ _ _ | importBusinessHome _ _ _ _ | revokeFromHome _ _ _ _ _
    | importCredential _ _ _ =>
      refine change_moves ?_ h
      intro hstop
      cases hstop
  | rebroadcast =>
    obtain ⟨snapshot, hcurrent, rfl⟩ := Option.map_eq_some_iff.mp h
    exact .rebroadcast snapshot hcurrent
  | collectRelays i =>
    obtain ⟨broadcast, hbroadcast, h⟩ := Option.bind_eq_some_iff.mp h
    split_ifs at h
    rw [← Option.some.inj h]
    exact .collect _ i broadcast .relay _ hbroadcast (.inl ⟨rfl, rfl⟩)
  | collectHomes i =>
    obtain ⟨broadcast, hbroadcast, h⟩ := Option.bind_eq_some_iff.mp h
    split_ifs at h with hrelays
    rw [← Option.some.inj h]
    exact .collect _ i broadcast .home _ hbroadcast (.inr ⟨rfl, rfl, hrelays⟩)
  | send i => exact send_moves h
  | connect id node =>
    simp only [step, connect] at h
    split at h
    · next snapshot hfree hcurrent =>
      rw [← Option.some.inj h]
      exact .connect id node snapshot hfree hcurrent
    · cases h
  | register id =>
    obtain ⟨session, hsession, h⟩ := Option.bind_eq_some_iff.mp h
    split_ifs at h with hstage
    rw [← Option.some.inj h]
    exact .register id session hsession hstage.1
  | read id => exact read_moves h
  | catchUp id => exact catchUp_moves h
  | write id =>
    obtain ⟨session, hsession, h⟩ := Option.bind_eq_some_iff.mp h
    split at h
    · cases h
    · next snapshot queue hqueue =>
      split_ifs at h
      rw [← Option.some.inj h]
      exact .write id session snapshot queue hsession hqueue
  | deliver id => exact deliver_moves h
  | close id => exact close_moves h

end Sys

end FlowSplice.Server.Broadcast
