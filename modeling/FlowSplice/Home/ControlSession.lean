import FlowSplice.Server.Travels

/-! The control session of a Home: `run_control_session` of `flowsplice-home-core/src/control.rs`
and the adapters that answer enrollment messages, with a Server whose messages arrive at any time
after it sent them. The runtime is not stopped, and the store and the connection take what is
written. -/
namespace FlowSplice.HomeControl

/-- `CONTROL_PROTOCOL_VERSION`. -/
def controlProtocolVersion : ℕ := 3

/-- The assignment of a Relay connection, as far as it is checked. -/
structure OpenRelayWork where
  workId : Uuid
  credentialId : Uuid
deriving DecidableEq, Repr

/-- What is left to the adapter. -/
inductive EnrollmentMessage where
  | remoteEnrollmentSubmit (requestId : Uuid)
  | bootstrapEnrollmentSubmit (protocolVersion : ℕ) (requestId : Uuid)
  | homeEnrollmentSubmit (requestId : Uuid)
  | remoteEnrollmentInstalled (requestId : Uuid)
deriving DecidableEq, Repr

inductive IssuerControlRequest where
  | publish (credential : SignedTravelCredential)
  | revoke (credentialId : Uuid) (reason : String)
deriving DecidableEq, Repr

/-- What a Server sends to a Home; `other` is a message that is meant for another role. -/
inductive ControlMessage where
  | travelAuthorizationSnapshot (snapshot : TravelAuthorizationSnapshot)
  | openRelayWork (work : OpenRelayWork)
  | enrollment (message : EnrollmentMessage)
  | heartbeat (nonce : ℕ)
  | heartbeatAck (nonce : ℕ)
  | publishTravelCredentialResult (requestId : Uuid) (accepted : Bool) (generation : ℕ)
      (error : Option String)
  | revokeTravelCredentialResult (requestId : Uuid) (accepted : Bool) (generation : ℕ)
      (error : Option String)
  | statisticsReportAck (digestSha256 : String) (accepted : Bool) (error : Option String)
  | other
deriving DecidableEq

/-- What a Home writes. -/
inductive HomeMessage where
  | homeRegister
  | travelAuthorizationAck (generation : ℕ)
  | issuer (requestId : Uuid) (request : IssuerControlRequest)
  | remoteEnrollmentResult (requestId : Uuid) (accepted : Bool) (responseJson : Option Bytes)
      (error : Option String)
  | homeEnrollmentResult (requestId : Uuid) (accepted : Bool) (responseJson : Option Bytes)
      (error : Option String)
  | remoteEnrollmentInstalledAck (requestId : Uuid) (accepted : Bool) (error : Option String)
  | heartbeat (nonce : ℕ)
  | heartbeatAck (nonce : ℕ)
  | statisticsReport (digestSha256 : String)
deriving DecidableEq, Repr

/-- `HomeControlHooks`: a serving-only runtime, and an issuer. -/
inductive HomeControlHooks where
  | servingOnly
  | legacy
deriving DecidableEq, Repr

structure EnrollmentWireResult where
  accepted : Bool
  responseJson : Option Bytes
  error : Option String
deriving DecidableEq, Repr

namespace EnrollmentWireResult

def remote (result : EnrollmentWireResult) (requestId : Uuid) : HomeMessage :=
  .remoteEnrollmentResult requestId result.accepted result.responseJson result.error

def home (result : EnrollmentWireResult) (requestId : Uuid) : HomeMessage :=
  .homeEnrollmentResult requestId result.accepted result.responseJson result.error

end EnrollmentWireResult

/-- `encode_enrollment_result`, of an answer that is encoded. -/
def encodeEnrollmentResult : Except String (Option Bytes) → EnrollmentWireResult
  | .ok response => ⟨true, response, none⟩
  | .error error => ⟨false, none, some error⟩

namespace HomeControlHooks

/-- `ServingOnly::handle`. -/
def handleServingOnly : EnrollmentMessage → HomeMessage
  | .remoteEnrollmentSubmit requestId | .bootstrapEnrollmentSubmit _ requestId =>
    .remoteEnrollmentResult requestId false none (some "this Home has no issuer")
  | .homeEnrollmentSubmit requestId =>
    .homeEnrollmentResult requestId false none (some "this Home has no issuer")
  | .remoteEnrollmentInstalled requestId =>
    .remoteEnrollmentInstalledAck requestId false (some "this Home has no issuer")

/-- `LegacyHomeControlHooks::handle`. The outcome is that of the inbox, which may be any. -/
def handleLegacy (outcome : Except String (Option Bytes)) : EnrollmentMessage → HomeMessage
  | .remoteEnrollmentSubmit requestId => (encodeEnrollmentResult outcome).remote requestId
  | .bootstrapEnrollmentSubmit protocolVersion requestId =>
    let result :=
      if protocolVersion = controlProtocolVersion then outcome
      else .error "unsupported bootstrap protocol version"
    (encodeEnrollmentResult result).remote requestId
  | .homeEnrollmentSubmit requestId => (encodeEnrollmentResult outcome).home requestId
  | .remoteEnrollmentInstalled requestId =>
    match outcome with
    | .ok _ => .remoteEnrollmentInstalledAck requestId true none
    | .error error => .remoteEnrollmentInstalledAck requestId false (some error)

def handle (hooks : HomeControlHooks) (outcome : Except String (Option Bytes))
    (message : EnrollmentMessage) : HomeMessage :=
  match hooks with
  | .servingOnly => handleServingOnly message
  | .legacy => handleLegacy outcome message

end HomeControlHooks

/-- What the Server and the Home are configured with; they have the same trust. -/
structure Env where
  config : ServerConfig
  id : String
  hooks : HomeControlHooks

/-- A session after its registration. `issued` logs the ids of its requests, and `pendingIssuer`
holds those whose senders wait. -/
structure Session where
  pendingIssuer : Table Uuid IssuerControlRequest := ∅
  issued : List Uuid := []
  reportKeys : Table String Bytes := ∅
  nonce : ℕ := 0
  lastReceived : ℕ
  written : List HomeMessage

/-- The authorization of the Server and the assignments that it sent; the state of the Home, the
answers that its issuer got, the reports that were acknowledged, and the work that was spawned.
`ended` tells whether a message has ended a session. -/
structure Sys where
  authority : AuthorizationServer.Sys
  granted : List OpenRelayWork := []
  cache : AuthorizationCache := {}
  published : Option VerifiedAuthorization := none
  session : Option Session := none
  answers : List (Uuid × Except String ℕ) := []
  acknowledged : List (Bytes × String) := []
  works : List OpenRelayWork := []
  ended : Bool := false

/-- Times are those of the one who acts. `outcome` is what the inbox says to an enrollment message,
a `disconnect` is one that the network or the Server brings about, and a `restart` is one of the
Home. -/
inductive Action where
  | change (action : AuthorizationServer.Action)
  | grant (asked : Server.Travels.Asked) (workId : Uuid) (now : ℕ)
  | connect (instant : ℕ)
  | disconnect
  | restart
  | command (requestId : Uuid) (request : IssuerControlRequest)
  | deliver (message : ControlMessage) (instant now : ℕ) (outcome : Except String (Option Bytes))
  | heartbeatTick (instant : ℕ)
  | statisticsTick (reports : List (Bytes × String))

namespace Sys

/-- `handle_route_request` and `complete_relay_work`, as far as they depend on the authorization. -/
def grant (env : Env) (s : Sys) (asked : Server.Travels.Asked) (workId : Uuid) (now : ℕ) :
    Option Sys :=
  s.authority.server.bind fun server =>
    match Server.Travels.readAuthorization server.verified asked now with
    | .ok _ =>
      if asked.homeId = some env.id then
        some { s with granted := s.granted ++ [⟨workId, asked.credentialId⟩] }
      else none
    | .error _ => none

/-- `apply_authorization_snapshot`, up to its effect on flows. -/
def applyAuthorizationSnapshot (config : ServerConfig) (s : Sys)
    (snapshot : TravelAuthorizationSnapshot) : Option (Sys × ℕ) :=
  ((config.authorities snapshot).bind (config.verify snapshot)).bind fun authorization =>
    (s.cache.accept authorization).map fun proposed =>
      ({ s with cache := proposed, published := some authorization }, authorization.generation)

/-- The session ends with an error, and the senders that wait are dropped. -/
def fail (s : Sys) : Sys := { s with session := none, ended := true }

/-- A session starts with the current snapshot of the Server. -/
def connect (env : Env) (s : Sys) (instant : ℕ) : Option Sys :=
  match s.session, s.authority.server with
  | none, some server =>
    match s.applyAuthorizationSnapshot env.config server.snapshot with
    | some (s, generation) => some { s with
        session := some {
          lastReceived := instant
          written := [.homeRegister, .travelAuthorizationAck generation] } }
    | none => some s.fail
  | _, _ => none

/-- An issuer's command, under a fresh id. -/
def command (s : Sys) (requestId : Uuid) (request : IssuerControlRequest) : Option Sys :=
  s.session.bind fun session =>
    if requestId ∈ session.issued then none
    else some { s with
      session := some { session with
        pendingIssuer := session.pendingIssuer.insert requestId request
        issued := session.issued ++ [requestId]
        written := session.written ++ [.issuer requestId request] } }

def write (s : Sys) (session : Session) (message : HomeMessage) : Sys :=
  { s with session := some { session with written := session.written ++ [message] } }

/-- `ensure_credential_active`. -/
def credentialActive (s : Sys) (credentialId : Uuid) (now : ℕ) : Bool :=
  s.published.any (·.isActive credentialId now)

/-- The answer to a publish or a revoke request. -/
def issuerResult (s : Sys) (session : Session) (requestId : Uuid) (accepted : Bool) (generation : ℕ)
    (error : Option String) : Sys :=
  match session.pendingIssuer.lookup requestId with
  | some _ =>
    let result :=
      if accepted then .ok generation else .error (error.getD "Server rejected the request")
    { s with
      session := some { session with pendingIssuer := session.pendingIssuer.erase requestId }
      answers := s.answers ++ [(requestId, result)] }
  | none => { s with session := some session }

def reportAck (s : Sys) (session : Session) (digestSha256 : String) (accepted : Bool) : Sys :=
  if accepted then
    match session.reportKeys.lookup digestSha256 with
    | some key => { s with
        session := some { session with reportKeys := session.reportKeys.erase digestSha256 }
        acknowledged := s.acknowledged ++ [(key, digestSha256)] }
    | none => { s with session := some session }
  else { s with session := some session }

/-- The arm of a message in the loop; `none` is an error. -/
def handle (env : Env) (s : Sys) (session : Session) (now : ℕ)
    (outcome : Except String (Option Bytes)) : ControlMessage → Option Sys
  | .travelAuthorizationSnapshot snapshot =>
    (s.applyAuthorizationSnapshot env.config snapshot).map fun (s, generation) =>
      s.write session (.travelAuthorizationAck generation)
  | .openRelayWork work =>
    if s.credentialActive work.credentialId now then
      some { s with session := some session, works := s.works ++ [work] }
    else none
  | .enrollment message => some (s.write session (env.hooks.handle outcome message))
  | .heartbeat nonce => some (s.write session (.heartbeatAck nonce))
  | .heartbeatAck _ => some { s with session := some session }
  | .publishTravelCredentialResult requestId accepted generation error
  | .revokeTravelCredentialResult requestId accepted generation error =>
    some (s.issuerResult session requestId accepted generation error)
  | .statisticsReportAck digestSha256 accepted _ =>
    some (s.reportAck session digestSha256 accepted)
  | .other => none

def deliver (env : Env) (s : Sys) (message : ControlMessage) (instant now : ℕ)
    (outcome : Except String (Option Bytes)) : Option Sys :=
  s.session.map fun session =>
    (s.handle env { session with lastReceived := instant } now outcome message).getD s.fail

/-- The session ends where nothing was received for 30 seconds. -/
def heartbeatTick (s : Sys) (instant : ℕ) : Option Sys :=
  s.session.map fun session =>
    if 30 < instant - session.lastReceived then { s with session := none }
    else
      let nonce := (session.nonce + 1) % 2 ^ 64
      s.write { session with nonce } (.heartbeat nonce)

/-- `flush_and_send_home_statistics`, with the reports that are pending and their digests. -/
def statisticsTick (s : Sys) (reports : List (Bytes × String)) : Option Sys :=
  s.session.map fun session => { s with
    session := some { session with
      reportKeys := session.reportKeys.insertAll (reports.map fun report => (report.2, report.1))
      written := session.written ++ reports.map fun report => .statisticsReport report.2 } }

def step (env : Env) (s : Sys) : Action → Option Sys
  | .change action =>
    (s.authority.step env.config action).map fun authority => { s with authority }
  | .grant asked workId now => s.grant env asked workId now
  | .connect instant => s.connect env instant
  | .disconnect => s.session.map fun _ => { s with session := none }
  | .restart => some { s with published := none, session := none }
  | .command requestId request => s.command requestId request
  | .deliver message instant now outcome => s.deliver env message instant now outcome
  | .heartbeatTick instant => s.heartbeatTick instant
  | .statisticsTick reports => s.statisticsTick reports

/-- What an honest Server can have sent. -/
def honest (s : Sys) : Action → Bool
  | .deliver (.travelAuthorizationSnapshot snapshot) _ _ _ =>
    decide (snapshot ∈ s.authority.published)
  | .deliver (.openRelayWork work) _ _ _ => decide (work ∈ s.granted)
  | .deliver .other _ _ _ => false
  | _ => true

/-- An assignment comes while its credential is active at the Home, and a snapshot that is not older
than the last one. -/
def timely (s : Sys) : Action → Bool
  | .deliver (.travelAuthorizationSnapshot snapshot) _ _ _ =>
    decide (s.cache.generation ≤ snapshot.generation)
  | .deliver (.openRelayWork work) _ now _ => s.credentialActive work.credentialId now
  | _ => true

end Sys

/-- A Server from its state file, and a Home that has accepted nothing yet. -/
def machine (env : Env) (file : AuthorizationFile) : Machine Sys Action where
  start := { authority := { file } }
  step := Sys.step env

/-- Each request of the session waits, or has been answered. -/
def Session.Waits (session : Session) (answers : List (Uuid × Except String ℕ)) : Prop :=
  ∀ requestId ∈ session.issued, (session.pendingIssuer.lookup requestId).isSome ∨
    ∃ result, (requestId, result) ∈ answers

namespace Sys
variable {env : Env} {file : AuthorizationFile} {s s' : Sys} {action : Action} {session : Session}

/-- No message has ended a session, no request of the session is lost, and a result answers one that
waits. -/
structure Served (env : Env) (s : Sys) : Prop where
  running : s.ended = false
  waits : ∀ session, s.session = some session → session.Waits s.answers
  answered : ∀ session, s.session = some session → ∀ requestId request,
    session.pendingIssuer.lookup requestId = some request →
      ∀ accepted generation error instant now outcome, ∃ s' session' result,
        s.step env (.deliver (.publishTravelCredentialResult requestId accepted generation error)
          instant now outcome) = some s' ∧
        s'.session = some session' ∧ (requestId, result) ∈ s'.answers

/-- What holds in every state of a run. -/
structure Inv (env : Env) (file : AuthorizationFile) (s : Sys) : Prop where
  authority : (AuthorizationServer.machine env.config file).Reachable s.authority
  current : ∀ server, s.authority.server = some server →
    server.snapshot ∈ s.authority.published
  cache : s.cache = {} ∨ ∃ older ∈ s.authority.published, s.cache = env.config.cacheOf older
  running : s.ended = false
  waits : ∀ session, s.session = some session → session.Waits s.answers

theorem issuerResult_of_pending {requestId : Uuid} {request : IssuerControlRequest}
    (hpending : session.pendingIssuer.lookup requestId = some request) (accepted : Bool)
    (generation : ℕ) (error : Option String) :
    ∃ result, s.issuerResult session requestId accepted generation error = { s with
      session := some { session with pendingIssuer := session.pendingIssuer.erase requestId }
      answers := s.answers ++ [(requestId, result)] } := by
  unfold issuerResult
  rw [hpending]
  exact ⟨_, rfl⟩

theorem Inv.served (h : s.Inv env file) : s.Served env where
  running := h.running
  waits := h.waits
  answered session hsession requestId request hpending accepted generation error instant now
      outcome := by
    obtain ⟨result, hresult⟩ := @issuerResult_of_pending s { session with lastReceived := instant }
      requestId request hpending accepted generation error
    have hstep : s.step env (.deliver
        (.publishTravelCredentialResult requestId accepted generation error) instant now outcome) =
        some (s.issuerResult { session with lastReceived := instant } requestId accepted generation
          error) := by
      simp only [step, deliver, hsession, Option.map_some, handle, Option.getD_some]
    rw [hresult] at hstep
    exact ⟨_, _, result, hstep, rfl, List.mem_append_right s.answers List.mem_cons_self⟩

/-- A published snapshot is accepted unless it is older than the last one. -/
theorem Inv.apply (h : s.Inv env file) {snapshot : TravelAuthorizationSnapshot}
    (hsnapshot : snapshot ∈ s.authority.published)
    (hle : s.cache.generation ≤ snapshot.generation) : ∃ authorization,
    s.applyAuthorizationSnapshot env.config snapshot =
      some ({ s with cache := env.config.cacheOf snapshot, published := some authorization },
        authorization.generation) := by
  obtain ⟨hkept, -⟩ := AuthorizationServer.Sys.sound_of_reachable h.authority
  obtain ⟨server, hsound, rfl⟩ := hkept.published snapshot hsnapshot
  have hcache : s.cache = {} ∨ ∃ older, s.cache = env.config.cacheOf older ∧
      older ≤ server.snapshot := by
    rcases h.cache with hnew | ⟨older, holder, heq⟩
    · exact .inl hnew
    · rw [heq] at hle
      exact .inr ⟨older, heq, AuthorizationServer.Sys.le_of_generation_le h.authority holder
        hsnapshot hle⟩
  have hfollow := follow_of_sound hsound hcache
  simp only [follow, hsound.1, Option.bind_some, hsound.2] at hfollow
  refine ⟨server.verified, ?_⟩
  simp only [applyAuthorizationSnapshot, hsound.1, Option.bind_some, hsound.2, hfollow,
    Option.map_some]

/-- Generations do not fall at a Home. -/
theorem applyAuthorizationSnapshot_of_lt {config : ServerConfig}
    {snapshot : TravelAuthorizationSnapshot} (hlt : snapshot.generation < s.cache.generation) :
    s.applyAuthorizationSnapshot config snapshot = none := by
  rw [applyAuthorizationSnapshot, Option.bind_eq_none_iff]
  intro authorization hverify
  obtain ⟨authorities, -, hverify⟩ := Option.bind_eq_some_iff.mp hverify
  obtain ⟨hgeneration, -⟩ := VerifiedAuthorization.verify_spec hverify
  rw [← hgeneration] at hlt
  rw [AuthorizationCache.accept, if_pos hlt]
  rfl

/-- The adapter answers whatever the inbox says, so a message is refused for one of two reasons. -/
theorem Inv.handle_isSome_iff (h : s.Inv env file) {message : ControlMessage} {instant now : ℕ}
    {outcome : Except String (Option Bytes)}
    (hhonest : s.honest (.deliver message instant now outcome) = true) :
    (s.handle env session now outcome message).isSome = true ↔
      s.timely (.deliver message instant now outcome) = true := by
  cases message with
  | travelAuthorizationSnapshot snapshot =>
    have hsnapshot : snapshot ∈ s.authority.published := by simpa [honest] using hhonest
    simp only [handle, Option.isSome_map, timely, decide_eq_true_eq]
    by_cases hle : s.cache.generation ≤ snapshot.generation
    · obtain ⟨authorization, happly⟩ := h.apply hsnapshot hle
      simp [happly, hle]
    · have hlt : snapshot.generation < s.cache.generation := by omega
      have happly := @applyAuthorizationSnapshot_of_lt s env.config snapshot hlt
      simp [happly, hle]
  | openRelayWork work =>
    simp only [handle, timely]
    by_cases hactive : s.credentialActive work.credentialId now = true <;> simp [hactive]
  | other => simp [honest] at hhonest
  | enrollment message | heartbeat nonce | heartbeatAck nonce => simp [handle, timely]
  | publishTravelCredentialResult requestId accepted generation error
  | revokeTravelCredentialResult requestId accepted generation error => simp [handle, timely]
  | statisticsReportAck digestSha256 accepted error => simp [handle, timely]

/-- A step that changes neither the Server nor the authorization of the Home. -/
theorem Inv.frame (h : s.Inv env file) {granted works : List OpenRelayWork}
    {next : Option Session} {answers : List (Uuid × Except String ℕ)}
    {acknowledged : List (Bytes × String)}
    (hwaits : ∀ session, next = some session → session.Waits answers) :
    Inv env file { s with granted, works, answers, acknowledged, session := next } where
  authority := h.authority
  current := h.current
  cache := h.cache
  running := h.running
  waits := hwaits

/-- A step of the session that keeps its requests. -/
theorem Inv.goOn (h : s.Inv env file) {works : List OpenRelayWork}
    {acknowledged : List (Bytes × String)} (hwaits : session.Waits s.answers) :
    Inv env file { s with works, acknowledged, session := some session } := by
  apply h.frame
  intro session' hsession
  rw [← Option.some.inj hsession]
  exact hwaits

/-- A snapshot is accepted, and the session goes on. -/
theorem Inv.accept (h : s.Inv env file) {snapshot : TravelAuthorizationSnapshot}
    (hsnapshot : snapshot ∈ s.authority.published) (authorization : VerifiedAuthorization)
    (hwaits : session.Waits s.answers) :
    Inv env file { s with
      cache := env.config.cacheOf snapshot
      published := some authorization
      session := some session } where
  authority := h.authority
  current := h.current
  cache := .inr ⟨snapshot, hsnapshot, rfl⟩
  running := h.running
  waits session' hsession := by
    rw [← Option.some.inj hsession]
    exact hwaits

/-- An answer to a request that waits. -/
theorem Session.Waits.answer {answers : List (Uuid × Except String ℕ)}
    (h : session.Waits answers) (requestId : Uuid) (result : Except String ℕ) :
    Session.Waits { session with pendingIssuer := session.pendingIssuer.erase requestId }
      (answers ++ [(requestId, result)]) := by
  intro other hother
  by_cases heq : other = requestId
  · right
    refine ⟨result, ?_⟩
    rw [heq]
    exact List.mem_append_right answers List.mem_cons_self
  · rcases h other hother with hpending | ⟨result', hresult⟩
    · left
      rw [AList.lookup_erase_ne heq]
      exact hpending
    · exact .inr ⟨result', List.mem_append_left _ hresult⟩

theorem Inv.issuerResult (h : s.Inv env file) (hwaits : session.Waits s.answers) (requestId : Uuid)
    (accepted : Bool) (generation : ℕ) (error : Option String) :
    Inv env file (s.issuerResult session requestId accepted generation error) := by
  cases hpending : session.pendingIssuer.lookup requestId with
  | some request =>
    obtain ⟨result, hresult⟩ := @issuerResult_of_pending s session requestId request hpending
      accepted generation error
    rw [hresult]
    apply h.frame
    intro session' hsession
    rw [← Option.some.inj hsession]
    exact Session.Waits.answer hwaits requestId result
  | none =>
    unfold Sys.issuerResult
    rw [hpending]
    exact h.goOn hwaits

theorem Inv.reportAck (h : s.Inv env file) (hwaits : session.Waits s.answers)
    (digestSha256 : String) (accepted : Bool) :
    Inv env file (s.reportAck session digestSha256 accepted) := by
  unfold Sys.reportAck
  cases accepted with
  | true =>
    cases hkey : session.reportKeys.lookup digestSha256 with
    | some key => exact h.goOn hwaits
    | none => exact h.goOn hwaits
  | false => exact h.goOn hwaits

theorem Inv.write (h : s.Inv env file) (hwaits : session.Waits s.answers)
    (message : HomeMessage) : Inv env file (s.write session message) :=
  h.goOn hwaits

/-- A message that is handled leaves the session running. -/
theorem Inv.handle (h : s.Inv env file) {message : ControlMessage} {instant now : ℕ}
    {outcome : Except String (Option Bytes)}
    (hhonest : s.honest (.deliver message instant now outcome) = true)
    (htimely : s.timely (.deliver message instant now outcome) = true)
    (hwaits : session.Waits s.answers)
    (hs : s.handle env session now outcome message = some s') : s'.Inv env file := by
  cases message with
  | travelAuthorizationSnapshot snapshot =>
    have hsnapshot : snapshot ∈ s.authority.published := by simpa [honest] using hhonest
    have hle : s.cache.generation ≤ snapshot.generation := by simpa [timely] using htimely
    obtain ⟨authorization, happly⟩ := h.apply hsnapshot hle
    rw [Sys.handle, happly, Option.map_some] at hs
    obtain rfl := Option.some.inj hs
    exact h.accept hsnapshot authorization hwaits
  | openRelayWork work =>
    have hactive : s.credentialActive work.credentialId now = true := htimely
    rw [Sys.handle, if_pos hactive] at hs
    obtain rfl := Option.some.inj hs
    exact h.goOn hwaits
  | enrollment message =>
    obtain rfl := Option.some.inj hs
    exact h.write hwaits _
  | heartbeat nonce =>
    obtain rfl := Option.some.inj hs
    exact h.write hwaits _
  | heartbeatAck nonce =>
    obtain rfl := Option.some.inj hs
    exact h.goOn hwaits
  | publishTravelCredentialResult requestId accepted generation error
  | revokeTravelCredentialResult requestId accepted generation error =>
    obtain rfl := Option.some.inj hs
    exact h.issuerResult hwaits requestId accepted generation error
  | statisticsReportAck digestSha256 accepted error =>
    obtain rfl := Option.some.inj hs
    exact h.reportAck hwaits digestSha256 accepted
  | other => cases hs

theorem Inv.deliver (h : s.Inv env file) {message : ControlMessage} {instant now : ℕ}
    {outcome : Except String (Option Bytes)}
    (hhonest : s.honest (.deliver message instant now outcome) = true)
    (htimely : s.timely (.deliver message instant now outcome) = true)
    (hs : s.deliver env message instant now outcome = some s') : s'.Inv env file := by
  obtain ⟨session, hsession, heq⟩ := Option.map_eq_some_iff.mp hs
  have hwaits : Session.Waits { session with lastReceived := instant } s.answers :=
    h.waits session hsession
  have hsome := (@Inv.handle_isSome_iff env file s { session with lastReceived := instant } h
    message instant now outcome hhonest).mpr htimely
  obtain ⟨next, hnext⟩ := Option.isSome_iff_exists.mp hsome
  rw [hnext, Option.getD_some] at heq
  rw [← heq]
  exact h.handle hhonest htimely hwaits hnext

/-- A message of the Server ends the session exactly when it does not come in time. -/
theorem Inv.ended_iff (h : s.Inv env file) {message : ControlMessage} {instant now : ℕ}
    {outcome : Except String (Option Bytes)}
    (hhonest : s.honest (.deliver message instant now outcome) = true)
    (hs : s.deliver env message instant now outcome = some s') :
    s'.ended = true ↔ s.timely (.deliver message instant now outcome) = false := by
  by_cases htimely : s.timely (.deliver message instant now outcome) = true
  · have hnext := h.deliver hhonest htimely hs
    simp [hnext.running, htimely]
  · obtain ⟨session, hsession, heq⟩ := Option.map_eq_some_iff.mp hs
    have hnone := mt (@Inv.handle_isSome_iff env file s { session with lastReceived := instant } h
      message instant now outcome hhonest).mp htimely
    rw [Bool.not_eq_true, Option.isSome_eq_false_iff, Option.isNone_iff_eq_none] at hnone
    rw [hnone, Option.getD_none] at heq
    rw [← heq]
    simp [fail, htimely]

/-- What the Server publishes stays known. -/
theorem Inv.change (h : s.Inv env file) {action : AuthorizationServer.Action}
    {authority : AuthorizationServer.Sys}
    (hs : s.authority.step env.config action = some authority) :
    Inv env file { s with authority } := by
  have hreach : (AuthorizationServer.machine env.config file).Reachable authority :=
    Machine.ReachableWhere.tail (a := action) h.authority trivial hs
  have hpublished : s.authority.published ⊆ authority.published ∧
      ∀ server, authority.server = some server → server.snapshot ∈ authority.published := by
    by_cases hstop : action = .stop
    · subst hstop
      obtain ⟨server, -, rfl⟩ := Option.map_eq_some_iff.mp hs
      refine ⟨List.Subset.refl _, ?_⟩
      intro server hserver
      cases hserver
    · rcases AuthorizationServer.Sys.step_published hstop hs with
        ⟨hserver, hsame⟩ | ⟨next, hserver, hmore⟩
      · rw [hserver, hsame]
        exact ⟨List.Subset.refl _, h.current⟩
      · rw [hserver, hmore]
        refine ⟨List.subset_append_left _ _, ?_⟩
        intro server heq
        rw [← Option.some.inj heq]
        exact Log.mem_append_self
  exact
    { authority := hreach
      current := hpublished.2
      cache := h.cache.imp_right fun ⟨older, holder, heq⟩ => ⟨older, hpublished.1 holder, heq⟩
      running := h.running
      waits := h.waits }

theorem Inv.connect (h : s.Inv env file) {instant : ℕ} (hs : s.connect env instant = some s') :
    s'.Inv env file := by
  unfold Sys.connect at hs
  cases hsession : s.session with
  | some session =>
    rw [hsession] at hs
    cases hs
  | none =>
    cases hserver : s.authority.server with
    | none =>
      rw [hsession, hserver] at hs
      cases hs
    | some server =>
      rw [hsession, hserver] at hs
      have hcurrent := h.current server hserver
      have hle : s.cache.generation ≤ server.snapshot.generation := by
        rcases h.cache with hnew | ⟨older, holder, heq⟩
        · rw [hnew]
          exact Nat.zero_le _
        · have hmarks := (AuthorizationServer.Sys.sound_of_reachable h.authority).2
          have hmemory : s.authority.marks.memory = some server.snapshot := by
            simp [AuthorizationServer.Sys.marks, hserver]
          have hbefore := (hmarks.memory server.snapshot hmemory).1 older holder
          rw [heq]
          exact TravelAuthorizationSnapshot.generation_le_of_le hbefore
      obtain ⟨authorization, happly⟩ := h.apply hcurrent hle
      dsimp only at hs
      rw [happly] at hs
      obtain rfl := Option.some.inj hs
      apply h.accept hcurrent authorization
      intro requestId hrequest
      cases hrequest

theorem Inv.command (h : s.Inv env file) {requestId : Uuid} {request : IssuerControlRequest}
    (hs : s.command requestId request = some s') : s'.Inv env file := by
  obtain ⟨session, hsession, hs⟩ := Option.bind_eq_some_iff.mp hs
  have hwaits := h.waits session hsession
  split_ifs at hs
  obtain rfl := Option.some.inj hs
  apply h.frame
  intro session' heq other hother
  rw [← Option.some.inj heq] at hother ⊢
  by_cases hsame : other = requestId
  · left
    rw [hsame, AList.lookup_insert]
    rfl
  · rcases List.mem_append.mp hother with hmem | hmem
    · rcases hwaits other hmem with hpending | hanswered
      · left
        rw [AList.lookup_insert_ne hsame]
        exact hpending
      · exact .inr hanswered
    · exact absurd (List.mem_singleton.mp hmem) hsame

theorem Inv.step (h : s.Inv env file) (hhonest : s.honest action = true)
    (htimely : s.timely action = true) (hs : s.step env action = some s') : s'.Inv env file := by
  cases action with
  | change action =>
    obtain ⟨authority, hauthority, rfl⟩ := Option.map_eq_some_iff.mp hs
    exact h.change hauthority
  | grant asked workId now =>
    obtain ⟨server, -, hs⟩ := Option.bind_eq_some_iff.mp hs
    cases hread : Server.Travels.readAuthorization server.verified asked now with
    | error denial =>
      rw [hread] at hs
      cases hs
    | ok basis =>
      rw [hread] at hs
      dsimp only at hs
      split_ifs at hs
      obtain rfl := Option.some.inj hs
      exact h.frame h.waits
  | connect instant => exact h.connect hs
  | disconnect =>
    obtain ⟨session, -, rfl⟩ := Option.map_eq_some_iff.mp hs
    apply h.frame
    intro session' hsession
    cases hsession
  | restart =>
    obtain rfl := Option.some.inj hs
    refine { h with waits := ?_ }
    intro session' hsession
    cases hsession
  | command requestId request => exact h.command hs
  | deliver message instant now outcome => exact h.deliver hhonest htimely hs
  | heartbeatTick instant =>
    obtain ⟨session, hsession, rfl⟩ := Option.map_eq_some_iff.mp hs
    have hwaits := h.waits session hsession
    split_ifs
    · apply h.frame
      intro session' hsession
      cases hsession
    · apply h.write
      exact hwaits
  | statisticsTick reports =>
    obtain ⟨session, hsession, rfl⟩ := Option.map_eq_some_iff.mp hs
    have hwaits := h.waits session hsession
    apply h.goOn
    exact hwaits

/-- Where no assignment comes for a credential that the Home finds inactive, and no snapshot after a
later one, no message ends a session and no request is lost. -/
theorem served_of_timely (h : (machine env file).ReachableWhere
    (fun s action => s.honest action = true ∧ s.timely action = true) s) : s.Served env := by
  have hstart : Inv env file (machine env file).start := by
    constructor
    · exact .refl
    · intro server hserver
      cases hserver
    · exact .inl rfl
    · rfl
    · intro session hsession
      cases hsession
  have hinv : s.Inv env file := by
    apply h.invariant hstart
    intro t action t' _ ht hok hs
    exact ht.step hok.1 hok.2 hs
  exact hinv.served

end Sys

/-! A Home, a Server that knows one credential, and what that sends. -/

def sampleEnv : Env := ⟨sampleServer, "home-1", .legacy⟩

def sampleSnapshot : TravelAuthorizationSnapshot where
  generation := 2
  credentials := [sampleSignedCredential]

def sampleAsked : Server.Travels.Asked where
  credentialId := 1
  travelId := "travel-1"
  travelSessionId := 9
  homeId := some "home-1"

/-- The Home knows the credential, its issuer asks for a revocation, and the Travel for a route. -/
def routed (grantedAt : ℕ) : List Action :=
  [.change (.load .stored), .connect 0,
    .change (.importCredential sampleSignedCredential "home-1" .stored),
    .deliver (.travelAuthorizationSnapshot sampleSnapshot) 1 grantedAt (.ok none),
    .command 7 (.revoke 1 "lost"), .grant sampleAsked 5 grantedAt]

/-- The assignment is taken up, an enrollment is refused, a result that nobody asked for comes, and
the revocation is answered. -/
def answered : List Action :=
  routed 1000 ++
    [.deliver (.openRelayWork ⟨5, 1⟩) 2 1001 (.ok none),
      .deliver (.enrollment (.remoteEnrollmentSubmit 3)) 3 1002 (.error "inbox is full"),
      .deliver (.publishTravelCredentialResult 8 true 3 none) 4 1003 (.ok none),
      .deliver (.revokeTravelCredentialResult 7 true 3 none) 5 1004 (.ok none)]

namespace Sys

theorem served_of_timely_answered :
    ∃ s, (machine sampleEnv { state := {} }).execWhere
        (fun s action => s.honest action = true ∧ s.timely action = true) answered = some s ∧
      s.works = [⟨5, 1⟩] ∧ s.answers.length = 1 ∧ s.Served sampleEnv := by
  have hrun : ((machine sampleEnv { state := {} }).execWhere
      (fun s action => s.honest action = true ∧ s.timely action = true) answered).map
      (fun s => (s.works, s.answers.length)) = some ([⟨5, 1⟩], 1) := by
    decide +kernel
  obtain ⟨s, hs, heq⟩ := Option.map_eq_some_iff.mp hrun
  have hworks := congrArg Prod.fst heq
  have hanswers := congrArg Prod.snd heq
  exact ⟨s, hs, hworks, hanswers, served_of_timely (Machine.reachableWhere_of_execWhere hs)⟩

/-- The credential expires between the grant of an assignment and its arrival. -/
theorem not_served_of_honest :
    ¬ ∀ s, (machine sampleEnv { state := {} }).ReachableWhere (fun s action => s.honest action = true) s →
      s.Served sampleEnv := by
  intro hall
  have hrun : ((machine sampleEnv { state := {} }).execWhere (fun s action => s.honest action = true)
      (routed 99999 ++ [.deliver (.openRelayWork ⟨5, 1⟩) 2 100000 (.ok none)])).map
      (fun s => s.ended) = some true := by
    decide +kernel
  obtain ⟨s, hs, hended⟩ := Option.map_eq_some_iff.mp hrun
  have hserved := hall s (Machine.reachableWhere_of_execWhere hs)
  rw [hserved.running] at hended
  cases hended

end Sys

end FlowSplice.HomeControl
