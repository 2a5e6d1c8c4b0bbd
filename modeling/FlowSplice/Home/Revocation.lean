import FlowSplice.Lib.Machine
import FlowSplice.Lib.Slots
import FlowSplice.Home.Admission
import FlowSplice.Home.Attach

/-! Revocation at a Home: `apply_authorization_snapshot` of `control.rs`, with the concurrent calls
of `run_work` in `lib.rs` and the TCP flows of `tcp_flow.rs`. Snapshots are applied one after the
other, by the control session. -/
namespace FlowSplice.Home

/-- A handle with the signal that ends its flow. -/
structure RevocableFlow extends FlowHandle where
  shutdown : Bool := false
deriving DecidableEq, Repr

/-- Where a call of `run_work` awaits: the business TLS handshake, the OPEN frame, the lock of the
flows, and the queue of its flow. `checkedAt` marks the authorization that it was checked against. -/
inductive Phase where
  | connecting
  | opening (credential : TravelCredential) (travelId : String) (checkedAt : ℕ)
  | attaching (key : FlowKey) (serviceId : String) (checkedAt : ℕ)
  | sending (key : FlowKey) (instanceId : Uuid)
deriving DecidableEq, Repr

structure Work where
  expectedCredentialId : Uuid
  phase : Phase := .connecting
deriving DecidableEq, Repr

/-- What is known of a snapshot by the set of credentials that it revokes. -/
inductive Event where
  | scanned (revoked : Finset Uuid)
  | applied (revoked : Finset Uuid)
  | created (key : FlowKey)
  | received (key : FlowKey) (signalled : Bool)
deriving DecidableEq

structure Applying where
  authorization : VerifiedAuthorization
  scanned : Bool := false

/-- The parts of an installation that do not change. -/
structure Env where
  codec : AuthorizationCodec
  trust : DeploymentTrust
  config : HomeFlowConfig

/-- `TravelAuthorizationState` and `TcpFlowRegistry`. The length of `events` when `published` was
published is `publishedAt`. -/
structure Sys where
  cache : AuthorizationCache := {}
  published : Option VerifiedAuthorization := none
  publishedAt : ℕ := 0
  applying : Option Applying := none
  flows : Table FlowKey RevocableFlow := ∅
  instances : ℕ := 0
  works : Slots Work := {}
  events : List Event := []

/-- A `permit` stands for the semaphores, which UDP flows and other Carriers hold too. -/
inductive Action where
  | receive (snapshot : TravelAuthorizationSnapshot) (stored : Bool)
  | scan (now : ℕ)
  | publish
  | abandon
  | openRelayWork (credentialId : Uuid) (now : ℕ)
  | authenticate (i : ℕ) (identity : PeerIdentity) (now : ℕ)
  | openFlow (i : ℕ) (frame : DataFrame)
  | attach (i : ℕ) (permit : Bool)
  | send (i : ℕ) (permit : Bool)
  | endWork (i : ℕ)
  | endFlow (key : FlowKey)
  | remove (key : FlowKey)
deriving DecidableEq

namespace Sys

def setWork (s : Sys) (i : ℕ) (work : Option Work) : Sys :=
  { s with works := s.works.set i work }

def log (s : Sys) (event : Event) : Sys := { s with events := s.events ++ [event] }

/-- `apply_authorization_snapshot` up to `revoke_inactive`. -/
def receive (s : Sys) (env : Env) (snapshot : TravelAuthorizationSnapshot) (stored : Bool) :
    Option Sys :=
  if s.applying.isSome then none
  else
    let authorization :=
      (env.trust.travelAuthoritiesWithHomeDelegations env.codec.toCodec
        snapshot.homeEndpointCredentials).bind fun authorities =>
          VerifiedAuthorization.verify env.codec snapshot authorities env.trust.deploymentId
    match authorization with
    | none => some s
    | some authorization =>
      match s.cache.accept authorization with
      | none => some s
      | some proposed =>
        if proposed = s.cache || stored then
          some { s with cache := proposed, applying := some { authorization := authorization } }
        else some s

/-- `revoke_inactive`. -/
def scan (s : Sys) (now : ℕ) : Option Sys :=
  match s.applying with
  | some ⟨authorization, false⟩ =>
    some { s with
      applying := some ⟨authorization, true⟩
      flows := s.flows.mapValues fun key flow =>
        if authorization.isActive key.credentialId now then flow else { flow with shutdown := true }
      events := s.events ++ [.scanned authorization.revokedCredentials] }
  | _ => none

def publish (s : Sys) : Option Sys :=
  match s.applying with
  | some ⟨authorization, true⟩ =>
    some { s with
      published := some authorization
      publishedAt := s.events.length + 1
      applying := none
      events := s.events ++ [.applied authorization.revokedCredentials] }
  | _ => none

/-- An assignment is taken up when `ensure_credential_active` passes. -/
def openRelayWork (s : Sys) (credentialId : Uuid) (now : ℕ) : Sys :=
  if s.published.any (·.isActive credentialId now) then
    { s with works := s.works.push { expectedCredentialId := credentialId } }
  else s

def authenticate (s : Sys) (i : ℕ) (identity : PeerIdentity) (now : ℕ) : Option Sys :=
  match s.works.get i with
  | some ⟨expected, .connecting⟩ =>
    if requirePeer identity .travel none [] then
      some (s.setWork i ((authorizeBusinessIdentity identity s.published expected now).map
        fun credential => ⟨expected, .opening credential identity.id s.publishedAt⟩))
    else some (s.setWork i none)
  | _ => none

/-- UDP flows are not in the registry. -/
def openFlow (s : Sys) (env : Env) (i : ℕ) (frame : DataFrame) : Option Sys :=
  match s.works.get i with
  | some ⟨expected, .opening credential travelId checkedAt⟩ =>
    match frame with
    | .open flowId _ serviceId .tcp _ =>
      some (s.setWork i ((env.config.admits credential serviceId .tcp).map fun service =>
        ⟨expected, .attaching ⟨credential.credentialId, travelId, flowId⟩ service.id checkedAt⟩))
    | _ => some (s.setWork i none)
  | _ => none

/-- `attach` up to the end of its lock. -/
def attach (s : Sys) (i : ℕ) (permit : Bool) : Option Sys :=
  match s.works.get i with
  | some ⟨expected, .attaching key serviceId _⟩ =>
    match s.flows.lookup key with
    | some existing =>
      if existing.serviceId = serviceId then
        some (s.setWork i (some ⟨expected, .sending key existing.instanceId⟩))
      else some (s.setWork i none)
    | none =>
      if permit then
        some ({ s with
          flows := s.flows.insert key { instanceId := s.instances, serviceId := serviceId }
          instances := s.instances + 1
          events := s.events ++ [Event.created key] }.setWork i
            (some ⟨expected, .sending key s.instances⟩))
      else some (s.setWork i none)
  | _ => none

/-- The Carrier reaches its flow, if that still runs. -/
def send (s : Sys) (i : ℕ) (permit : Bool) : Option Sys :=
  match s.works.get i with
  | some ⟨_, .sending key instanceId⟩ =>
    match s.flows.lookup key with
    | some flow =>
      if permit && flow.instanceId == instanceId && flow.receiving then
        some ((s.log (.received key flow.shutdown)).setWork i none)
      else some (s.setWork i none)
    | none => some (s.setWork i none)
  | _ => none

/-- `run_flow` ends, whatever the reason. -/
def endFlow (s : Sys) (key : FlowKey) : Option Sys :=
  (s.flows.lookup key).map fun flow =>
    { s with flows := s.flows.insert key { flow with receiving := false } }

/-- `TcpFlowRegistry::remove`. -/
def remove (s : Sys) (key : FlowKey) : Option Sys :=
  (s.flows.lookup key).bind fun flow =>
    if flow.receiving then none else some { s with flows := s.flows.erase key }

def step (env : Env) (s : Sys) : Action → Option Sys
  | .receive snapshot stored => s.receive env snapshot stored
  | .scan now => s.scan now
  | .publish => s.publish
  | .abandon => s.applying.map fun _ => { s with applying := none }
  | .openRelayWork credentialId now => some (s.openRelayWork credentialId now)
  | .authenticate i identity now => s.authenticate i identity now
  | .openFlow i frame => s.openFlow env i frame
  | .attach i permit => s.attach i permit
  | .send i permit => s.send i permit
  | .endWork i => (s.works.get i).map fun _ => s.setWork i none
  | .endFlow key => s.endFlow key
  | .remove key => s.remove key

end Sys

/-- A Home from the cache it finds at first. -/
def machine (env : Env) (cache : AuthorizationCache) : Machine Sys Action where
  start := { cache }
  step := Sys.step env

namespace Sys
variable {env : Env} {s s' : Sys} {a : Action}

/-- How the state moves. -/
inductive Moves (s : Sys) : Action → Sys → Prop where
  | same (a : Action) : Moves s a s
  | accept (a : Action) (authorization : VerifiedAuthorization) (cache : AuthorizationCache)
      (hc : s.cache.accept authorization = some cache) :
      Moves s a { s with cache := cache, applying := some { authorization := authorization } }
  | scan (now : ℕ) (authorization : VerifiedAuthorization)
      (ha : s.applying = some ⟨authorization, false⟩) :
      Moves s (.scan now) { s with
        applying := some ⟨authorization, true⟩
        flows := s.flows.mapValues fun key flow =>
          if authorization.isActive key.credentialId now then flow
          else { flow with shutdown := true }
        events := s.events ++ [.scanned authorization.revokedCredentials] }
  | publish (authorization : VerifiedAuthorization)
      (ha : s.applying = some ⟨authorization, true⟩) :
      Moves s .publish { s with
        published := some authorization
        publishedAt := s.events.length + 1
        applying := none
        events := s.events ++ [.applied authorization.revokedCredentials] }
  | abandon : Moves s .abandon { s with applying := none }
  | assign (a : Action) (expected : Uuid) :
      Moves s a { s with works := s.works.push { expectedCredentialId := expected } }
  | close (a : Action) (i : ℕ) : Moves s a (s.setWork i none)
  | check (i : ℕ) (identity : PeerIdentity) (now : ℕ) (expected : Uuid)
      (credential : TravelCredential) (authorization : VerifiedAuthorization)
      (hp : s.published = some authorization)
      (hactive : authorization.isActive credential.credentialId now = true) :
      Moves s (.authenticate i identity now)
        (s.setWork i (some ⟨expected, .opening credential identity.id s.publishedAt⟩))
  | openFlow (i : ℕ) (frame : DataFrame) (expected flowId : Uuid) (credential : TravelCredential)
      (travelId serviceId : String) (checkedAt : ℕ)
      (hw : s.works.get i = some ⟨expected, .opening credential travelId checkedAt⟩) :
      Moves s (.openFlow i frame) (s.setWork i (some ⟨expected,
        .attaching ⟨credential.credentialId, travelId, flowId⟩ serviceId checkedAt⟩))
  | join (i : ℕ) (permit : Bool) (expected : Uuid) (key : FlowKey) (instanceId : Uuid) :
      Moves s (.attach i permit) (s.setWork i (some ⟨expected, .sending key instanceId⟩))
  | create (i : ℕ) (expected : Uuid) (key : FlowKey) (serviceId : String) (checkedAt : ℕ)
      (hw : s.works.get i = some ⟨expected, .attaching key serviceId checkedAt⟩)
      (hk : s.flows.lookup key = none) :
      Moves s (.attach i true) ({ s with
        flows := s.flows.insert key { instanceId := s.instances, serviceId := serviceId }
        instances := s.instances + 1
        events := s.events ++ [Event.created key] }.setWork i
          (some ⟨expected, .sending key s.instances⟩))
  | send (i : ℕ) (key : FlowKey) (flow : RevocableFlow) (hk : s.flows.lookup key = some flow) :
      Moves s (.send i true) ((s.log (.received key flow.shutdown)).setWork i none)
  | endFlow (key : FlowKey) (flow : RevocableFlow) (hk : s.flows.lookup key = some flow) :
      Moves s (.endFlow key)
        { s with flows := s.flows.insert key { flow with receiving := false } }
  | remove (key : FlowKey) : Moves s (.remove key) { s with flows := s.flows.erase key }

theorem receive_moves {snapshot : TravelAuthorizationSnapshot} {stored : Bool}
    (h : s.receive env snapshot stored = some s') : s.Moves (.receive snapshot stored) s' := by
  unfold receive at h
  split_ifs at h with hbusy
  dsimp only at h
  split at h
  · obtain rfl := Option.some.inj h
    exact .same _
  · next authorization hverified =>
    split at h
    · obtain rfl := Option.some.inj h
      exact .same _
    · next proposed hproposed =>
      split_ifs at h
      · obtain rfl := Option.some.inj h
        exact .accept _ authorization proposed hproposed
      · obtain rfl := Option.some.inj h
        exact .same _

theorem scan_moves {now : ℕ} (h : s.scan now = some s') : s.Moves (.scan now) s' := by
  unfold scan at h
  split at h
  · next authorization ha =>
    obtain rfl := Option.some.inj h
    exact .scan now authorization ha
  · cases h

theorem publish_moves (h : s.publish = some s') : s.Moves .publish s' := by
  unfold publish at h
  split at h
  · next authorization ha =>
    obtain rfl := Option.some.inj h
    exact .publish authorization ha
  · cases h

theorem authenticate_moves {i now : ℕ} {identity : PeerIdentity}
    (h : s.authenticate i identity now = some s') :
    s.Moves (.authenticate i identity now) s' := by
  unfold authenticate at h
  split at h
  · next expected hw =>
    split_ifs at h
    · obtain rfl := Option.some.inj h
      cases hfound : authorizeBusinessIdentity identity s.published expected now with
      | none => exact .close _ i
      | some credential =>
        obtain ⟨authorization, hp, hquery⟩ := Option.bind_eq_some_iff.mp hfound
        obtain ⟨hid, hactive⟩ :=
          VerifiedAuthorization.isActive_of_authorizeBusinessCredential hquery
        exact .check i identity now expected credential authorization hp (hid ▸ hactive)
    · obtain rfl := Option.some.inj h
      exact .close _ i
  · cases h

theorem openFlow_moves {i : ℕ} {frame : DataFrame} (h : s.openFlow env i frame = some s') :
    s.Moves (.openFlow i frame) s' := by
  unfold openFlow at h
  split at h
  · next expected credential travelId checkedAt hw =>
    split at h
    · next flowId _ serviceId _ =>
      obtain rfl := Option.some.inj h
      cases env.config.admits credential serviceId .tcp with
      | none => exact .close _ i
      | some service => exact .openFlow i _ expected flowId credential travelId service.id checkedAt hw
    · obtain rfl := Option.some.inj h
      exact .close _ i
  · cases h

theorem attach_moves {i : ℕ} {permit : Bool} (h : s.attach i permit = some s') :
    s.Moves (.attach i permit) s' := by
  unfold attach at h
  split at h
  · next expected key serviceId checkedAt hw =>
    split at h
    · split_ifs at h
      · obtain rfl := Option.some.inj h
        exact .join i permit expected key _
      · obtain rfl := Option.some.inj h
        exact .close _ i
    · next hk =>
      split_ifs at h with hpermit
      · obtain rfl := Option.some.inj h
        rw [hpermit]
        exact .create i expected key serviceId checkedAt hw hk
      · obtain rfl := Option.some.inj h
        exact .close _ i
  · cases h

theorem send_moves {i : ℕ} {permit : Bool} (h : s.send i permit = some s') :
    s.Moves (.send i permit) s' := by
  unfold send at h
  split at h
  · next key instanceId hw =>
    split at h
    · next flow hk =>
      split_ifs at h with hok
      · obtain rfl := Option.some.inj h
        simp only [Bool.and_eq_true] at hok
        rw [hok.1.1]
        exact .send i key flow hk
      · obtain rfl := Option.some.inj h
        exact .close _ i
    · obtain rfl := Option.some.inj h
      exact .close _ i
  · cases h

theorem step_moves (h : s.step env a = some s') : s.Moves a s' := by
  cases a with
  | receive snapshot stored => exact receive_moves h
  | scan now => exact scan_moves h
  | publish => exact publish_moves h
  | abandon =>
    obtain ⟨_, -, rfl⟩ := Option.map_eq_some_iff.mp h
    exact .abandon
  | openRelayWork credentialId now =>
    obtain rfl := Option.some.inj h
    unfold openRelayWork
    split_ifs
    · exact .assign _ credentialId
    · exact .same _
  | authenticate i identity now => exact authenticate_moves h
  | openFlow i frame => exact openFlow_moves h
  | attach i permit => exact attach_moves h
  | send i permit => exact send_moves h
  | endWork i =>
    obtain ⟨_, -, rfl⟩ := Option.map_eq_some_iff.mp h
    exact .close _ i
  | endFlow key =>
    obtain ⟨flow, hk, rfl⟩ := Option.map_eq_some_iff.mp h
    exact .endFlow key flow hk
  | remove key =>
    obtain ⟨flow, -, hremove⟩ := Option.bind_eq_some_iff.mp h
    split_ifs at hremove
    obtain rfl := Option.some.inj hremove
    exact .remove key

end Sys

/-! What the events say about a credential. -/

/-- `revoke_inactive` has run with a snapshot that revokes the credential. -/
def Scanned (events : List Event) (credentialId : Uuid) : Prop :=
  ∃ revoked, Event.scanned revoked ∈ events ∧ credentialId ∈ revoked

/-- A snapshot that revokes the credential has been applied. -/
def Applied (events : List Event) (credentialId : Uuid) : Prop :=
  ∃ revoked, Event.applied revoked ∈ events ∧ credentialId ∈ revoked

/-- A flow of a revoked credential is created, or receives a Carrier before it is signalled. -/
def Event.Opens (revoked : Finset Uuid) : Event → Prop
  | .created key => key.credentialId ∈ revoked
  | .received key signalled => key.credentialId ∈ revoked ∧ signalled = false
  | _ => False

def Event.scans (credentialId : Uuid) : Event → Bool
  | .scanned revoked => decide (credentialId ∈ revoked)
  | _ => false

section
variable {events : List Event} {event : Event} {c : Uuid}

theorem Scanned.append (h : Scanned events c) : Scanned (events ++ [event]) c := by
  obtain ⟨revoked, hm, hc⟩ := h
  exact ⟨revoked, List.mem_append_left _ hm, hc⟩

theorem scanned_append_iff : Scanned (events ++ [event]) c ↔
    Scanned events c ∨ event.scans c = true := by
  constructor
  · rintro ⟨revoked, hm, hc⟩
    rcases List.mem_append.mp hm with hm | hm
    · exact .inl ⟨revoked, hm, hc⟩
    · rw [← List.mem_singleton.mp hm]
      exact .inr (by simpa [Event.scans] using hc)
  · rintro (h | h)
    · exact h.append
    · cases event with
      | scanned revoked => exact ⟨revoked, by simp, by simpa [Event.scans] using h⟩
      | applied revoked => cases h
      | created key => cases h
      | received key signalled => cases h

theorem not_scanned_iff : ¬ Scanned events c ↔ ∀ e ∈ events, e.scans c = false := by
  constructor
  · intro h e he
    cases e with
    | scanned revoked =>
      have hc : c ∉ revoked := fun hc => h ⟨revoked, he, hc⟩
      simpa [Event.scans] using hc
    | applied revoked => rfl
    | created key => rfl
    | received key signalled => rfl
  · rintro h ⟨revoked, hm, hc⟩
    have hno := h _ hm
    simp [Event.scans, hc] at hno

theorem applied_append_iff : Applied (events ++ [event]) c ↔
    Applied events c ∨ ∃ revoked, event = .applied revoked ∧ c ∈ revoked := by
  unfold Applied
  constructor
  · rintro ⟨revoked, hm, hc⟩
    rcases List.mem_append.mp hm with hm | hm
    · exact .inl ⟨revoked, hm, hc⟩
    · exact .inr ⟨revoked, (List.mem_singleton.mp hm).symm, hc⟩
  · rintro (⟨revoked, hm, hc⟩ | ⟨revoked, rfl, hc⟩)
    · exact ⟨revoked, List.mem_append_left _ hm, hc⟩
    · exact ⟨revoked, by simp, hc⟩

end

/-- The credential that a work was checked for, and what it was checked against. -/
def Work.check (work : Work) : Option (Uuid × ℕ) :=
  match work.phase with
  | .opening credential _ checkedAt => some (credential.credentialId, checkedAt)
  | .attaching key _ checkedAt => some (key.credentialId, checkedAt)
  | _ => none

namespace Sys

/-- An attach opens a new flow only when no scan has ended its credential since the authorization
that the work was checked against was published. -/
def timely (s : Sys) (a : Action) : Bool :=
  match a with
  | .attach i _ =>
    match s.works.get i with
    | some ⟨_, .attaching key _ checkedAt⟩ => (s.flows.lookup key).isSome ||
        (s.events.drop checkedAt).all fun event => !event.scans key.credentialId
    | _ => true
  | _ => true

/-- Once a snapshot that revokes a credential was applied, its flows in the registry have been
signalled, and no flow of it is created or receives a Carrier before it is signalled. -/
structure Reached (s : Sys) : Prop where
  flows : ∀ key flow, s.flows.lookup key = some flow → Applied s.events key.credentialId →
    flow.shutdown = true
  later : s.events.Pairwise fun earlier later => ∀ revoked, earlier = .applied revoked →
    ¬ later.Opens revoked

structure Inv (s : Sys) : Prop where
  flows : ∀ key flow, s.flows.lookup key = some flow → Scanned s.events key.credentialId →
    flow.shutdown = true
  cache : ∀ c, Scanned s.events c → c ∈ s.cache.revokedCredentials
  applied : ∀ c, Applied s.events c → Scanned s.events c
  applying : ∀ applying, s.applying = some applying →
    s.cache.revokedCredentials = applying.authorization.revokedCredentials ∧
      (applying.scanned = true → ∀ c ∈ applying.authorization.revokedCredentials,
        Scanned s.events c)
  published : s.publishedAt ≤ s.events.length ∧ ∀ authorization, s.published = some authorization →
    ∀ c, Scanned (s.events.take s.publishedAt) c → c ∈ authorization.revokedCredentials
  works : ∀ i work c checkedAt, s.works.get i = some work → work.check = some (c, checkedAt) →
    checkedAt ≤ s.events.length ∧ ¬ Scanned (s.events.take checkedAt) c
  later : s.events.Pairwise fun earlier later => ∀ revoked, earlier = .applied revoked →
    ¬ later.Opens revoked

namespace Inv
variable {env : Env} {s s' : Sys} {a : Action}

theorem reached (hi : s.Inv) : s.Reached :=
  ⟨fun key flow hk happlied => hi.flows key flow hk (hi.applied _ happlied), hi.later⟩

theorem initial (cache : AuthorizationCache) : Inv { cache } where
  flows _ _ hk := by cases hk
  cache _ hs := by
    obtain ⟨_, hm, -⟩ := hs
    cases hm
  applied _ hs := by
    obtain ⟨_, hm, -⟩ := hs
    cases hm
  applying _ ha := by cases ha
  published := ⟨Nat.le_refl 0, fun _ hp => by cases hp⟩
  works _ _ _ _ hw := by cases hw
  later := List.Pairwise.nil

/-- A work is replaced by one whose check is still good. -/
theorem setWork (hi : s.Inv) (i : ℕ) {next : Option Work}
    (hn : ∀ work c checkedAt, next = some work → work.check = some (c, checkedAt) →
      checkedAt ≤ s.events.length ∧ ¬ Scanned (s.events.take checkedAt) c) :
    (s.setWork i next).Inv := by
  refine ⟨hi.flows, hi.cache, hi.applied, hi.applying, hi.published, ?_, hi.later⟩
  intro j work c checkedAt hw hc
  rcases Slots.get_set_cases hw with ⟨-, hnext, -⟩ | ⟨-, hold⟩
  · exact hn work c checkedAt hnext hc
  · exact hi.works j work c checkedAt hold hc

theorem push (hi : s.Inv) (expected : Uuid) :
    Inv { s with works := s.works.push { expectedCredentialId := expected } } := by
  refine ⟨hi.flows, hi.cache, hi.applied, hi.applying, hi.published, ?_, hi.later⟩
  intro j work c checkedAt hw hc
  rcases Slots.get_push_cases hw with ⟨-, rfl⟩ | ⟨-, hold⟩
  · cases hc
  · exact hi.works j work c checkedAt hold hc

/-- Flows that are signalled stay so. -/
theorem withFlows (hi : s.Inv) {flows : Table FlowKey RevocableFlow}
    (hf : ∀ key flow, flows.lookup key = some flow → ∃ old, s.flows.lookup key = some old ∧
      (old.shutdown = true → flow.shutdown = true)) : Inv { s with flows := flows } := by
  refine ⟨?_, hi.cache, hi.applied, hi.applying, hi.published, hi.works, hi.later⟩
  intro key flow hk hs
  obtain ⟨old, hold, hsignal⟩ := hf key flow hk
  exact hsignal (hi.flows key old hold hs)

theorem accept (hi : s.Inv) {authorization : VerifiedAuthorization} {cache : AuthorizationCache}
    (hc : s.cache.accept authorization = some cache) :
    Inv { s with cache := cache, applying := some { authorization := authorization } } := by
  unfold AuthorizationCache.accept at hc
  split_ifs at hc with hold hsame hsub
  obtain rfl := Option.some.inj hc
  refine ⟨hi.flows, ?_, hi.applied, ?_, hi.published, hi.works, hi.later⟩
  · intro c hs
    exact hsub (hi.cache c hs)
  · intro applying ha
    obtain rfl := Option.some.inj ha
    exact ⟨rfl, fun hscanned => by cases hscanned⟩

private theorem later_append {events : List Event} {event : Event}
    (h : events.Pairwise fun earlier later => ∀ revoked, earlier = .applied revoked →
      ¬ later.Opens revoked)
    (he : ∀ revoked, Event.applied revoked ∈ events → ¬ event.Opens revoked) :
    (events ++ [event]).Pairwise fun earlier later => ∀ revoked, earlier = .applied revoked →
      ¬ later.Opens revoked := by
  rw [List.pairwise_append]
  refine ⟨h, List.pairwise_singleton _ _, ?_⟩
  intro earlier hearlier later hlater revoked heq
  rw [List.mem_singleton.mp hlater]
  exact he revoked (heq ▸ hearlier)

theorem published_append (hi : s.Inv) (event : Event) :
    s.publishedAt ≤ (s.events ++ [event]).length ∧
      ∀ authorization, s.published = some authorization →
        ∀ c, Scanned ((s.events ++ [event]).take s.publishedAt) c →
          c ∈ authorization.revokedCredentials := by
  obtain ⟨hle, hp⟩ := hi.published
  rw [List.take_append_of_le_length hle, List.length_append]
  exact ⟨Nat.le_add_right_of_le hle, hp⟩

theorem works_append (hi : s.Inv) (event : Event) (i : ℕ) (work : Work) (c : Uuid) (checkedAt : ℕ)
    (hw : s.works.get i = some work) (hc : work.check = some (c, checkedAt)) :
    checkedAt ≤ (s.events ++ [event]).length ∧
      ¬ Scanned ((s.events ++ [event]).take checkedAt) c := by
  obtain ⟨hle, hno⟩ := hi.works i work c checkedAt hw hc
  rw [List.take_append_of_le_length hle, List.length_append]
  exact ⟨Nat.le_add_right_of_le hle, hno⟩

/-- A flow event is logged, of a flow that may be opened. -/
theorem log (hi : s.Inv) {event : Event} (hscan : ∀ c, event.scans c = false)
    (happly : ∀ revoked, event ≠ .applied revoked)
    (he : ∀ revoked, Event.applied revoked ∈ s.events → ¬ event.Opens revoked) :
    (s.log event).Inv := by
  have hscanned : ∀ c, Scanned (s.events ++ [event]) c ↔ Scanned s.events c := by
    intro c
    rw [scanned_append_iff, hscan]
    simp
  have happlied : ∀ c, Applied (s.events ++ [event]) c ↔ Applied s.events c := by
    intro c
    rw [applied_append_iff]
    simp [happly]
  refine ⟨?_, ?_, ?_, ?_, ?_, ?_, later_append hi.later he⟩
  · intro key flow hk hs
    exact hi.flows key flow hk ((hscanned _).mp hs)
  · intro c hs
    exact hi.cache c ((hscanned c).mp hs)
  · intro c ha
    exact (hscanned c).mpr (hi.applied c ((happlied c).mp ha))
  · intro applying ha
    obtain ⟨hsub, hs⟩ := hi.applying applying ha
    exact ⟨hsub, fun hscanned' c hc => (hs hscanned' c hc).append⟩
  · exact hi.published_append event
  · exact hi.works_append event

/-- A flow is created while no scan has ended its credential. -/
theorem create (hi : s.Inv) {key : FlowKey} {serviceId : String}
    (hno : ¬ Scanned s.events key.credentialId) :
    Inv { s with
      flows := s.flows.insert key { instanceId := s.instances, serviceId := serviceId }
      instances := s.instances + 1
      events := s.events ++ [.created key] } := by
  have hlog : (s.log (.created key)).Inv := by
    refine hi.log (fun _ => rfl) (fun _ h => by cases h) ?_
    intro revoked hm hopens
    exact hno (hi.applied _ ⟨revoked, hm, hopens⟩)
  refine ⟨?_, hlog.cache, hlog.applied, hlog.applying, hlog.published, hlog.works, hlog.later⟩
  intro key' flow hk hs
  rcases Table.lookup_insert_cases hk with ⟨rfl, -⟩ | ⟨-, hold⟩
  · rw [scanned_append_iff] at hs
    rcases hs with hs | hs
    · exact absurd hs hno
    · cases hs
  · exact hlog.flows key' flow hold hs

theorem scan (hi : s.Inv) {authorization : VerifiedAuthorization} (now : ℕ)
    (ha : s.applying = some ⟨authorization, false⟩) :
    Inv { s with
      applying := some ⟨authorization, true⟩
      flows := s.flows.mapValues fun key flow =>
        if authorization.isActive key.credentialId now then flow
        else { flow with shutdown := true }
      events := s.events ++ [.scanned authorization.revokedCredentials] } := by
  have hcache := (hi.applying _ ha).1
  have hscanned : ∀ c, Scanned (s.events ++ [.scanned authorization.revokedCredentials]) c ↔
      Scanned s.events c ∨ c ∈ authorization.revokedCredentials := by
    intro c
    rw [scanned_append_iff]
    simp [Event.scans]
  have hinactive : ∀ c ∈ authorization.revokedCredentials,
      authorization.isActive c now = false := by
    intro c hc
    simp [VerifiedAuthorization.isActive, hc]
  refine ⟨?_, ?_, ?_, ?_, ?_, ?_, later_append hi.later (fun _ _ h => h)⟩
  · intro key flow hk hs
    rw [Table.lookup_mapValues] at hk
    obtain ⟨old, hold, rfl⟩ := Option.map_eq_some_iff.mp hk
    rcases (hscanned _).mp hs with hs | hs
    · have hsignal := hi.flows key old hold hs
      split_ifs
      · exact hsignal
      · rfl
    · rw [if_neg (by simp [hinactive _ hs])]
  · intro c hs
    rcases (hscanned c).mp hs with hs | hs
    · exact hi.cache c hs
    · exact hcache ▸ hs
  · intro c happlied
    rw [applied_append_iff] at happlied
    rcases happlied with happlied | ⟨revoked, heq, -⟩
    · exact (hi.applied c happlied).append
    · cases heq
  · intro applying happlying
    obtain rfl := Option.some.inj happlying
    exact ⟨hcache, fun _ c hc => (hscanned c).mpr (.inr hc)⟩
  · exact hi.published_append _
  · exact hi.works_append _

theorem publish (hi : s.Inv) {authorization : VerifiedAuthorization}
    (ha : s.applying = some ⟨authorization, true⟩) :
    Inv { s with
      published := some authorization
      publishedAt := s.events.length + 1
      applying := none
      events := s.events ++ [.applied authorization.revokedCredentials] } := by
  obtain ⟨hcache, hall⟩ := hi.applying _ ha
  have hscanned : ∀ c, Scanned (s.events ++ [.applied authorization.revokedCredentials]) c ↔
      Scanned s.events c := by
    intro c
    rw [scanned_append_iff]
    simp [Event.scans]
  refine ⟨?_, ?_, ?_, ?_, ?_, hi.works_append _, later_append hi.later (fun _ _ h => h)⟩
  · intro key flow hk hs
    exact hi.flows key flow hk ((hscanned _).mp hs)
  · intro c hs
    exact hi.cache c ((hscanned c).mp hs)
  · intro c happlied
    rw [hscanned]
    rw [applied_append_iff] at happlied
    rcases happlied with happlied | ⟨revoked, heq, hc⟩
    · exact hi.applied c happlied
    · cases heq
      exact hall rfl c hc
  · intro applying happlying
    cases happlying
  · constructor
    · simp
    · intro published hp c hs
      obtain rfl := Option.some.inj hp
      rw [List.take_of_length_le (by simp), hscanned] at hs
      exact hcache ▸ hi.cache c hs

theorem send (hi : s.Inv) {key : FlowKey} {flow : RevocableFlow}
    (hk : s.flows.lookup key = some flow) : (s.log (.received key flow.shutdown)).Inv := by
  refine hi.log (fun _ => rfl) (fun _ h => by cases h) ?_
  rintro revoked hm ⟨hc, hsignal⟩
  have hsignalled := hi.flows key flow hk (hi.applied _ ⟨revoked, hm, hc⟩)
  rw [hsignal] at hsignalled
  cases hsignalled

/-- No scan has ended the credential of a work that attaches in time. -/
theorem not_scanned (hi : s.Inv) {i checkedAt : ℕ} {permit : Bool} {expected : Uuid}
    {key : FlowKey} {serviceId : String}
    (hw : s.works.get i = some ⟨expected, .attaching key serviceId checkedAt⟩)
    (hk : s.flows.lookup key = none) (hg : s.timely (.attach i permit) = true) :
    ¬ Scanned s.events key.credentialId := by
  have hbefore := (hi.works i _ key.credentialId checkedAt hw rfl).2
  have hafter : ∀ e ∈ s.events.drop checkedAt, e.scans key.credentialId = false := by
    simpa [timely, hw, hk] using hg
  rw [not_scanned_iff] at hbefore ⊢
  intro e he
  rw [← List.take_append_drop checkedAt s.events] at he
  rcases List.mem_append.mp he with he | he
  · exact hbefore e he
  · exact hafter e he

theorem step (hi : s.Inv) (hg : s.timely a = true) (h : s.step env a = some s') : s'.Inv := by
  cases step_moves h with
  | same => exact hi
  | accept _ authorization cache hc => exact hi.accept hc
  | scan now authorization ha => exact hi.scan now ha
  | publish authorization ha => exact hi.publish ha
  | abandon =>
    exact ⟨hi.flows, hi.cache, hi.applied, fun _ ha => (by cases ha), hi.published, hi.works,
      hi.later⟩
  | assign _ expected => exact hi.push expected
  | close _ i => exact hi.setWork i fun _ _ _ hn => by cases hn
  | check i identity now expected credential authorization hp hactive =>
    refine hi.setWork i fun work c checkedAt hn hc => ?_
    obtain rfl := Option.some.inj hn
    obtain ⟨rfl, rfl⟩ := Prod.mk.inj (Option.some.inj hc)
    refine ⟨hi.published.1, fun hs => ?_⟩
    have hrevoked := hi.published.2 authorization hp _ hs
    simp [VerifiedAuthorization.isActive, hrevoked] at hactive
  | openFlow i frame expected flowId credential travelId serviceId checkedAt hw =>
    refine hi.setWork i fun work c k hn hc => ?_
    obtain rfl := Option.some.inj hn
    exact hi.works i _ c k hw hc
  | join i permit expected key instanceId =>
    refine hi.setWork i fun work c k hn hc => ?_
    obtain rfl := Option.some.inj hn
    cases hc
  | create i expected key serviceId checkedAt hw hk =>
    refine (hi.create (hi.not_scanned hw hk hg)).setWork i fun work c k hn hc => ?_
    obtain rfl := Option.some.inj hn
    cases hc
  | send i key flow hk => exact (hi.send hk).setWork i fun _ _ _ hn => by cases hn
  | endFlow key flow hk =>
    refine hi.withFlows fun key' flow' hk' => ?_
    rcases Table.lookup_insert_cases hk' with ⟨rfl, rfl⟩ | ⟨-, hold⟩
    · exact ⟨flow, hk, id⟩
    · exact ⟨flow', hold, id⟩
  | remove key =>
    refine hi.withFlows fun key' flow' hk' => ?_
    exact ⟨flow', (Table.lookup_erase_cases hk').2, id⟩

end Inv

end Sys

variable {env : Env} {cache : AuthorizationCache} {s : Sys}

/-- Revocation reaches every TCP flow, as long as no revocation overlaps the admission of a flow
of its credential. -/
theorem reached_of_timely
    (h : (machine env cache).ReachableWhere (fun s a => s.timely a = true) s) : s.Reached := by
  have hinv : s.Inv := h.invariant (P := Sys.Inv) (Sys.Inv.initial cache)
    fun _ _ _ _ hi hg hs => hi.step hg hs
  exact hinv.reached

/-! A Home with one service, and a Travel whose credential is revoked. -/

def sampleEnv : Env where
  codec := sampleServer.codec
  trust := sampleDeployment
  config := ⟨"home-1", [⟨"web", "Web", .tcp, "127.0.0.1:80"⟩], []⟩

def sampleSnapshot (generation : ℕ) (revocations : List TravelRevocation) :
    TravelAuthorizationSnapshot where
  generation := generation
  credentials := [sampleSignedCredential]
  revocations := revocations

/-- A snapshot is applied. -/
def applySample (generation : ℕ) (revocations : List TravelRevocation) : List Action :=
  [.receive (sampleSnapshot generation revocations) true, .scan 1000, .publish]

/-- A work up to its check. -/
def checkSample (i : ℕ) : List Action :=
  [.openRelayWork 1 1000, .authenticate i (narrowIdentity (samplePin '4')) 1000,
    .openFlow i (.open 7 1 "web" .tcp 1)]

theorem reached_of_timely_signalled :
    ∃ s, (machine sampleEnv {}).execWhere (fun s a => s.timely a = true)
      (applySample 2 [] ++ checkSample 0 ++ [.attach 0 true, .send 0 true] ++ checkSample 1 ++
        applySample 3 [⟨1, 900, "lost"⟩] ++ [.attach 1 true, .send 1 true]) = some s ∧
    s.events = [.scanned ∅, .applied ∅, .created ⟨1, "travel-1", 7⟩,
      .received ⟨1, "travel-1", 7⟩ false, .scanned {1}, .applied {1},
      .received ⟨1, "travel-1", 7⟩ true] ∧ s.Reached := by
  have hrun : ((machine sampleEnv {}).execWhere (fun s a => s.timely a = true)
      (applySample 2 [] ++ checkSample 0 ++ [.attach 0 true, .send 0 true] ++ checkSample 1 ++
        applySample 3 [⟨1, 900, "lost"⟩] ++ [.attach 1 true, .send 1 true])).map (·.events) =
      some [.scanned ∅, .applied ∅, .created ⟨1, "travel-1", 7⟩,
        .received ⟨1, "travel-1", 7⟩ false, .scanned {1}, .applied {1},
        .received ⟨1, "travel-1", 7⟩ true] := by
    decide +kernel
  obtain ⟨s, hs, hevents⟩ := Option.map_eq_some_iff.mp hrun
  exact ⟨s, hs, hevents, reached_of_timely (Machine.reachableWhere_of_execWhere hs)⟩

/-- The OPEN frame is read before the snapshot is applied, and the flow attached after. -/
def lateAttach : List Action :=
  applySample 2 [] ++ checkSample 0 ++ applySample 3 [⟨1, 900, "lost"⟩] ++
    [.attach 0 true, .send 0 true]

theorem not_reached_of_reachable :
    (∃ s, (machine sampleEnv {}).exec lateAttach = some s ∧
      s.events = [.scanned ∅, .applied ∅, .scanned {1}, .applied {1},
        .created ⟨1, "travel-1", 7⟩, .received ⟨1, "travel-1", 7⟩ false]) ∧
    ¬ ∀ s, (machine sampleEnv {}).Reachable s → s.Reached := by
  have hrun : ((machine sampleEnv {}).exec lateAttach).map (·.events) =
      some [.scanned ∅, .applied ∅, .scanned {1}, .applied {1},
        .created ⟨1, "travel-1", 7⟩, .received ⟨1, "travel-1", 7⟩ false] := by
    decide +kernel
  obtain ⟨s, hs, hevents⟩ := Option.map_eq_some_iff.mp hrun
  refine ⟨⟨s, hs, hevents⟩, fun hall => ?_⟩
  have hlater := (hall s (Machine.reachable_of_exec hs)).later
  rw [hevents] at hlater
  simp only [List.pairwise_cons] at hlater
  have hcreated : Event.created ⟨1, "travel-1", 7⟩ ∈
      [Event.created ⟨1, "travel-1", 7⟩, .received ⟨1, "travel-1", 7⟩ false] := by simp
  exact hlater.2.2.2.1 _ hcreated {1} rfl (by simp [Event.Opens])

end FlowSplice.Home
