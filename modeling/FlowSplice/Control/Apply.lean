import FlowSplice.Lib.Machine
import FlowSplice.Lib.Slots
import FlowSplice.Control.Trust

/-! Concurrent calls of `apply_control_snapshot` in `flowsplice-travel-core/src/lib.rs`, with the
blocking commits that they spawn, and the restarts of the process. A call may be cancelled
wherever it awaits; its commit then runs on. -/
namespace FlowSplice.Control

/-- `deployment_trust`, `directory` and `catalog`. -/
structure Views where
  deploymentTrust : DeploymentTrust
  directory : RelayDirectory
  catalog : Catalog
deriving DecidableEq, Repr

inductive View where
  | deploymentTrust
  | directory
  | catalog
deriving DecidableEq, Repr

namespace Views

def write (views : Views) (view : View) (source : Views) : Views :=
  match view with
  | .deploymentTrust => { views with deploymentTrust := source.deploymentTrust }
  | .directory => { views with directory := source.directory }
  | .catalog => { views with catalog := source.catalog }

def agree (view : View) (views other : Views) : Bool :=
  match view with
  | .deploymentTrust => views.deploymentTrust == other.deploymentTrust
  | .directory => views.directory == other.directory
  | .catalog => views.catalog == other.catalog

theorem ext_agree {views other : Views} (h : ∀ view, agree view views other) : views = other := by
  have ht := h .deploymentTrust
  have hd := h .directory
  have hc := h .catalog
  cases views
  cases other
  simp_all [agree]

@[simp] theorem agree_self (view : View) (views : Views) : agree view views views = true := by
  cases view <;> simp [agree]

@[simp] theorem agree_write_self (view : View) (views source other : Views) :
    agree view (views.write view source) other = agree view source other := by
  cases view <;> rfl

theorem agree_write_ne {view view' : View} (h : view' ≠ view) (views source other : Views) :
    agree view' (views.write view source) other = agree view' views other := by
  cases view <;> cases view' <;> first | rfl | exact absurd rfl h

end Views

def VerifiedControlSnapshot.views (verified : VerifiedControlSnapshot) : Views where
  deploymentTrust := verified.trust
  directory := verified.payload.relayDirectory
  catalog := verified.payload.catalog

/-- Where a call of `apply_control_snapshot` awaits: `control_trust_state`, then `relay_history`,
then its commit, then the lock of the view that it writes next. -/
inductive Phase where
  | verified
  | accepted (proposed : ControlTrustState)
  | committing (proposed : ControlTrustState) (history : List RelayHistoryRecord)
      (outcome : Option Bool)
  | publishing (view : View) (rest : List View)
deriving DecidableEq, Repr

structure Call where
  snapshot : SignedControlSnapshot
  verified : VerifiedControlSnapshot
  phase : Phase := .verified
deriving DecidableEq, Repr

/-- The state that the call holds `control_trust_state` for. -/
def Call.proposed (call : Call) : Option ControlTrustState :=
  match call.phase with
  | .accepted proposed => some proposed
  | .committing proposed _ _ => some proposed
  | _ => none

/-- What `spawn_blocking` runs: a commit of `apply_control_snapshot`, or one of
`record_relay_success` and `record_relay_failure`. -/
inductive BlockingTask where
  | control (caller : ℕ) (proposed : ControlTrustState) (history : List RelayHistoryRecord)
  | relay (record : RelayHistoryRecord)
deriving DecidableEq, Repr

def BlockingTask.applyImmediate (task : BlockingTask) (store : Store) : Store :=
  match task with
  | .control _ proposed history => store.commitSnapshot proposed history
  | .relay record => store.putHistory record

/-- The fields of `AppState` that are used here, the calls and the blocking tasks. -/
structure Process where
  controlTrustState : ControlTrustState
  relayHistory : List RelayHistoryRecord
  views : Views
  controlLock : Option ℕ := none
  historyLock : Option ℕ := none
  calls : Slots Call := {}
  blocking : List BlockingTask := []
deriving DecidableEq, Repr

structure RelayCandidate where
  expectedId : Option String
  managementAddr : String
deriving DecidableEq, Repr

/-- `should_persist_relay_failure`. -/
def shouldPersistRelayFailure (consecutiveFailures : ℕ) (previousFailure : Option ℕ) (now : ℕ) :
    Bool :=
  (consecutiveFailures != 0 && consecutiveFailures &&& (consecutiveFailures - 1) == 0) ||
    previousFailure.all fun last => decide (60 ≤ now - last)

namespace Process

/-- The locks that a call holds are released when it ends. -/
def release (p : Process) (i : ℕ) : Process :=
  { p with
    controlLock := if p.controlLock = some i then none else p.controlLock
    historyLock := if p.historyLock = some i then none else p.historyLock }

def setCall (p : Process) (i : ℕ) (call : Option Call) : Process :=
  { p with calls := p.calls.set i call }

/-- `load_app_state`. -/
def load (loaded : Loaded) (store : Store) : Process where
  controlTrustState := loaded.state
  relayHistory := loadRelayHistory store
  views :=
    { deploymentTrust := loaded.trust
      directory := (loaded.cached.map (·.payload.relayDirectory)).getD {}
      catalog := (loaded.cached.map (·.payload.catalog)).getD {} }

/-- A call up to its first await. The clock is read twice. -/
def receive (p : Process) (env : Installation) (snapshot : SignedControlSnapshot)
    (relayId relaySpki : String) (now later : ℕ) : Process :=
  match env.verify snapshot now with
  | none => p
  | some verified =>
    if requireSubject env verified &&
        configuredHomesAreTrusted env verified.trust verified.payload.catalog later &&
        requireAuthenticatedRelay verified relayId relaySpki then
      { p with calls := p.calls.push { snapshot := snapshot, verified := verified } }
    else p

/-- The call takes `control_trust_state`. It ends, or goes on to `relay_history`. -/
def lock (p : Process) (i : ℕ) : Option Process :=
  match p.calls.get i, p.controlLock with
  | some ⟨snapshot, verified, .verified⟩, none =>
    match p.controlTrustState.accept verified with
    | .ok (true, proposed) =>
      some ({ p with controlLock := some i }.setCall i
        (some ⟨snapshot, verified, .accepted { proposed with cachedSnapshot := some snapshot }⟩))
    | _ => some (p.setCall i none)
  | _, _ => none

/-- The call takes `relay_history` and spawns its commit. -/
def openHistory (p : Process) (i now : ℕ) : Option Process :=
  match p.calls.get i, p.historyLock with
  | some ⟨snapshot, verified, .accepted proposed⟩, none =>
    let history := proposedHistory verified now p.relayHistory
    some ({ p with
      historyLock := some i
      blocking := p.blocking ++ [BlockingTask.control i proposed history] }.setCall i
        (some ⟨snapshot, verified, .committing proposed history none⟩))
  | _, _ => none

/-- The call, if it still awaits its commit, is told how that went. -/
def complete (p : Process) (task : BlockingTask) (ok : Bool) : Process :=
  match task with
  | .relay _ => p
  | .control i _ _ =>
    match p.calls.get i with
    | some ⟨snapshot, verified, .committing proposed history none⟩ =>
      p.setCall i (some ⟨snapshot, verified, .committing proposed history (some ok)⟩)
    | _ => p

/-- The call goes on after its commit: it fails, or takes over what was committed and drops its
locks. -/
def resume (p : Process) (i : ℕ) : Option (Process × Option VerifiedControlSnapshot) :=
  match p.calls.get i with
  | some ⟨snapshot, verified, .committing proposed history (some true)⟩ =>
    some ({ p.release i with controlTrustState := proposed, relayHistory := history }.setCall i
      (some ⟨snapshot, verified, .publishing .deploymentTrust [.directory, .catalog]⟩),
      some verified)
  | some ⟨_, _, .committing _ _ (some false)⟩ => some ((p.release i).setCall i none, none)
  | _ => none

def publish (p : Process) (i : ℕ) : Option Process :=
  match p.calls.get i with
  | some ⟨snapshot, verified, .publishing view rest⟩ =>
    let next := match rest with
      | [] => none
      | view :: rest => some ⟨snapshot, verified, .publishing view rest⟩
    some ({ p with views := p.views.write view verified.views }.setCall i next)
  | _ => none

/-- A call is dropped where it awaits. -/
def cancel (p : Process) (i : ℕ) : Option Process :=
  (p.calls.get i).map fun _ => (p.release i).setCall i none

/-- The first record picked is updated, and persisted if it has to be. -/
def recordRelay (p : Process) (pick : RelayHistoryRecord → Bool)
    (update : RelayHistoryRecord → RelayHistoryRecord) (persist : RelayHistoryRecord → Bool) :
    Option Process :=
  if p.historyLock.isSome then none else
    match p.relayHistory.findIdx? pick, p.relayHistory.find? pick with
    | some i, some record => some { p with
        relayHistory := p.relayHistory.modify i update
        blocking := p.blocking ++ if persist record then [BlockingTask.relay (update record)] else [] }
    | _, _ => some p

/-- `record_relay_success`. -/
def recordRelaySuccess (p : Process) (relayId : String) (now : ℕ) : Option Process :=
  p.recordRelay (fun record => record.relayId == relayId)
    (fun record =>
      { record with lastSuccessUnixSecs := some now, consecutiveFailures := 0 })
    (fun record => decide (0 < record.consecutiveFailures) ||
      record.lastSuccessUnixSecs.all fun last => decide (300 ≤ now - last))

/-- `record_relay_failure`. -/
def recordRelayFailure (p : Process) (relay : RelayCandidate) (now : ℕ) : Option Process :=
  let failed (record : RelayHistoryRecord) : RelayHistoryRecord :=
    { record with
      lastFailureUnixSecs := some now
      consecutiveFailures := min (record.consecutiveFailures + 1) (2 ^ 32 - 1) }
  p.recordRelay
    (fun record => match relay.expectedId with
      | some id => record.relayId == id
      | none => record.managementAddr == relay.managementAddr)
    failed
    (fun record => shouldPersistRelayFailure (failed record).consecutiveFailures
      record.lastFailureUnixSecs now)

end Process

/-- `current` logs the snapshots accepted, and those loaded as the current one. -/
structure Sys where
  disk : Disk
  process : Option Process := none
  current : List VerifiedControlSnapshot := []

inductive Action where
  | start (installed : SignedDeploymentTrust) (now : ℕ) (io : LoadIo)
  | stop
  | receive (snapshot : SignedControlSnapshot) (relayId relaySpki : String) (now later : ℕ)
  | lock (i : ℕ)
  | openHistory (i now : ℕ)
  | commit (k : ℕ) (ok : Bool)
  | resume (i : ℕ)
  | publish (i : ℕ)
  | cancel (i : ℕ)
  | relaySuccess (relayId : String) (now : ℕ)
  | relayFailure (relay : RelayCandidate) (now : ℕ)
deriving DecidableEq, Repr

namespace Sys

/-- A step inside the process. -/
def within (s : Sys) (f : Process → Option Process) : Option Sys :=
  (s.process.bind f).map fun p => { s with process := some p }

def start (s : Sys) (env : Installation) (installed : SignedDeploymentTrust) (now : ℕ)
    (io : LoadIo) : Option Sys :=
  match s.process, loadInitial env s.disk installed now io with
  | none, (.ok loaded, disk) =>
    some { disk, process := some (.load loaded disk.store)
           current := s.current ++ loaded.cached.toList }
  | none, (.error _, disk) => some { s with disk }
  | some _, _ => none

/-- A blocking task runs, out of order with the others. A commit that fails writes nothing. -/
def commit (s : Sys) (k : ℕ) (ok : Bool) : Option Sys :=
  match s.process with
  | none => none
  | some p =>
    (p.blocking[k]?).map fun task =>
      { s with
        disk := if ok then { s.disk with store := task.applyImmediate s.disk.store } else s.disk
        process := some ({ p with blocking := p.blocking.eraseIdx k }.complete task ok) }

def resume (s : Sys) (i : ℕ) : Option Sys :=
  (s.process.bind (·.resume i)).map fun r =>
    { s with process := some r.1, current := s.current ++ r.2.toList }

def step (env : Installation) (s : Sys) : Action → Option Sys
  | .start installed now io => s.start env installed now io
  | .stop => s.process.map fun _ => { s with process := none }
  | .receive snapshot relayId relaySpki now later =>
    s.within fun p => some (p.receive env snapshot relayId relaySpki now later)
  | .lock i => s.within (·.lock i)
  | .openHistory i now => s.within (·.openHistory i now)
  | .commit k ok => s.commit k ok
  | .resume i => s.resume i
  | .publish i => s.within (·.publish i)
  | .cancel i => s.within (·.cancel i)
  | .relaySuccess relayId now => s.within (·.recordRelaySuccess relayId now)
  | .relayFailure relay now => s.within (·.recordRelayFailure relay now)

end Sys

/-- A Travel installation from the disk it finds at first. -/
def machine (env : Installation) (disk : Disk) : Machine Sys Action where
  start := { disk }
  step := Sys.step env

namespace Process
variable {env : Installation} {p p' : Process} {i : ℕ}

/-- How a process moves by itself, without its commits and what they lead to. -/
inductive Moves (env : Installation) (p : Process) : Action → Process → Prop where
  | same (a : Action) : Moves env p a p
  | receive (a : Action) (snapshot : SignedControlSnapshot) (verified : VerifiedControlSnapshot)
      (h : env.contents snapshot = some verified) :
      Moves env p a { p with
        calls := p.calls.push { snapshot := snapshot, verified := verified } }
  | refuse (i : ℕ) (snapshot : SignedControlSnapshot) (verified : VerifiedControlSnapshot)
      (hc : p.calls.get i = some ⟨snapshot, verified, .verified⟩) :
      Moves env p (.lock i) (p.setCall i none)
  | accept (i : ℕ) (snapshot : SignedControlSnapshot) (verified : VerifiedControlSnapshot)
      (proposed : ControlTrustState) (hc : p.calls.get i = some ⟨snapshot, verified, .verified⟩)
      (hl : p.controlLock = none)
      (h : p.controlTrustState.accept verified = .ok (true, proposed)) :
      Moves env p (.lock i) ({ p with controlLock := some i }.setCall i
        (some ⟨snapshot, verified, .accepted { proposed with cachedSnapshot := some snapshot }⟩))
  | openHistory (i now : ℕ) (snapshot : SignedControlSnapshot)
      (verified : VerifiedControlSnapshot) (proposed : ControlTrustState)
      (history : List RelayHistoryRecord)
      (hc : p.calls.get i = some ⟨snapshot, verified, .accepted proposed⟩) :
      Moves env p (.openHistory i now) ({ p with
        historyLock := some i
        blocking := p.blocking ++ [BlockingTask.control i proposed history] }.setCall i
          (some ⟨snapshot, verified, .committing proposed history none⟩))
  | publish (i : ℕ) (snapshot : SignedControlSnapshot) (verified : VerifiedControlSnapshot)
      (view : View) (rest : List View) (next : Option Call)
      (hc : p.calls.get i = some ⟨snapshot, verified, .publishing view rest⟩)
      (hn : (rest = [] ∧ next = none) ∨ ∃ view' rest', rest = view' :: rest' ∧
        next = some ⟨snapshot, verified, .publishing view' rest'⟩) :
      Moves env p (.publish i)
        ({ p with views := p.views.write view verified.views }.setCall i next)
  | cancel (i : ℕ) (call : Call) (hc : p.calls.get i = some call) :
      Moves env p (.cancel i) ((p.release i).setCall i none)
  | record (a : Action) (history : List RelayHistoryRecord) (records : List RelayHistoryRecord) :
      Moves env p a { p with
        relayHistory := history, blocking := p.blocking ++ records.map BlockingTask.relay }

theorem moves_receive (snapshot : SignedControlSnapshot) (relayId relaySpki : String)
    (now later : ℕ) : Moves env p (.receive snapshot relayId relaySpki now later)
      (p.receive env snapshot relayId relaySpki now later) := by
  unfold receive
  split
  · exact .same _
  · next verified hv =>
    split
    · exact .receive _ _ _ (Installation.contents_of_verify hv)
    · exact .same _

theorem moves_lock (h : p.lock i = some p') : Moves env p (.lock i) p' := by
  unfold lock at h
  split at h
  · next snapshot verified hc hl =>
    split at h <;> obtain rfl := Option.some.inj h
    · next proposed ha => exact .accept i snapshot verified proposed hc hl ha
    · exact .refuse i snapshot verified hc
  · cases h

theorem moves_openHistory {now : ℕ} (h : p.openHistory i now = some p') :
    Moves env p (.openHistory i now) p' := by
  unfold openHistory at h
  split at h
  · next snapshot verified proposed hc _ =>
    obtain rfl := Option.some.inj h
    exact .openHistory i now snapshot verified proposed _ hc
  · cases h

theorem moves_publish (h : p.publish i = some p') : Moves env p (.publish i) p' := by
  unfold publish at h
  split at h
  · next snapshot verified view rest hc =>
    obtain rfl := Option.some.inj h
    refine .publish i snapshot verified view rest _ hc ?_
    cases rest with
    | nil => exact .inl ⟨rfl, rfl⟩
    | cons view' rest' => exact .inr ⟨view', rest', rfl, rfl⟩
  · cases h

theorem moves_cancel (h : p.cancel i = some p') : Moves env p (.cancel i) p' := by
  obtain ⟨call, hc, rfl⟩ := Option.map_eq_some_iff.mp h
  exact .cancel i call hc

theorem moves_recordRelay {pick : RelayHistoryRecord → Bool}
    {update : RelayHistoryRecord → RelayHistoryRecord} {persist : RelayHistoryRecord → Bool}
    (a : Action) (h : p.recordRelay pick update persist = some p') : Moves env p a p' := by
  unfold recordRelay at h
  split_ifs at h
  split at h <;> obtain rfl := Option.some.inj h
  · next record _ _ =>
    split_ifs
    · exact .record a _ [update record]
    · exact .record a _ []
  · exact .same a

end Process

namespace Sys
variable {env : Installation} {s s' : Sys} {a : Action}

theorem moves_of_within {f : Process → Option Process}
    (hf : ∀ p p', f p = some p' → p.Moves env a p') (h : s.within f = some s') :
    ∃ p p', s.process = some p ∧ p.Moves env a p' ∧ s' = { s with process := some p' } := by
  obtain ⟨p', hp', rfl⟩ := Option.map_eq_some_iff.mp h
  obtain ⟨p, hp, hfp⟩ := Option.bind_eq_some_iff.mp hp'
  exact ⟨p, p', hp, hf p p' hfp, rfl⟩

/-- A step starts or stops the process, runs a blocking task, resumes a call or is a move of the
process. -/
theorem step_cases (h : s.step env a = some s') :
    (∃ installed now io, a = .start installed now io ∧ s.start env installed now io = some s') ∨
    (a = .stop ∧ s' = { s with process := none }) ∨
    (∃ k ok, a = .commit k ok ∧ s.commit k ok = some s') ∨
    (∃ i, a = .resume i ∧ s.resume i = some s') ∨
    ∃ p p', s.process = some p ∧ p.Moves env a p' ∧ s' = { s with process := some p' } := by
  cases a with
  | start installed now io => exact .inl ⟨installed, now, io, rfl, h⟩
  | stop =>
    obtain ⟨p, -, rfl⟩ := Option.map_eq_some_iff.mp h
    exact .inr (.inl ⟨rfl, rfl⟩)
  | commit k ok => exact .inr (.inr (.inl ⟨k, ok, rfl, h⟩))
  | resume i => exact .inr (.inr (.inr (.inl ⟨i, rfl, h⟩)))
  | receive snapshot relayId relaySpki now later =>
    refine .inr (.inr (.inr (.inr (moves_of_within (fun p p' hp => ?_) h))))
    rw [← Option.some.inj hp]
    exact Process.moves_receive snapshot relayId relaySpki now later
  | lock i => exact .inr (.inr (.inr (.inr (moves_of_within (fun _ _ => Process.moves_lock) h))))
  | openHistory i now =>
    exact .inr (.inr (.inr (.inr (moves_of_within (fun _ _ => Process.moves_openHistory) h))))
  | publish i =>
    exact .inr (.inr (.inr (.inr (moves_of_within (fun _ _ => Process.moves_publish) h))))
  | cancel i =>
    exact .inr (.inr (.inr (.inr (moves_of_within (fun _ _ => Process.moves_cancel) h))))
  | relaySuccess relayId now =>
    exact .inr (.inr (.inr (.inr
      (moves_of_within (fun _ _ => Process.moves_recordRelay _) h))))
  | relayFailure relay now =>
    exact .inr (.inr (.inr (.inr
      (moves_of_within (fun _ _ => Process.moves_recordRelay _) h))))

theorem commit_cases {k : ℕ} {ok : Bool} (h : s.commit k ok = some s') :
    ∃ p task, s.process = some p ∧ p.blocking[k]? = some task ∧
      s' = { s with
        disk := if ok then { s.disk with store := task.applyImmediate s.disk.store } else s.disk
        process := some ({ p with blocking := p.blocking.eraseIdx k }.complete task ok) } := by
  unfold commit at h
  cases hp : s.process with
  | none => simp [hp] at h
  | some p =>
    simp only [hp] at h
    obtain ⟨task, htask, rfl⟩ := Option.map_eq_some_iff.mp h
    exact ⟨p, task, rfl, htask, rfl⟩

theorem resume_cases {i : ℕ} (h : s.resume i = some s') :
    ∃ p snapshot verified proposed history, s.process = some p ∧
      ((p.calls.get i = some ⟨snapshot, verified, .committing proposed history (some true)⟩ ∧
        s' = { s with
          process := some ({ p.release i with
            controlTrustState := proposed, relayHistory := history }.setCall i
              (some ⟨snapshot, verified, .publishing .deploymentTrust [.directory, .catalog]⟩))
          current := s.current ++ [verified] }) ∨
      (p.calls.get i = some ⟨snapshot, verified, .committing proposed history (some false)⟩ ∧
        s' = { s with process := some ((p.release i).setCall i none) })) := by
  obtain ⟨r, hr, rfl⟩ := Option.map_eq_some_iff.mp h
  obtain ⟨p, hp, hr⟩ := Option.bind_eq_some_iff.mp hr
  unfold Process.resume at hr
  split at hr
  · next snapshot verified proposed history hc =>
    obtain rfl := Option.some.inj hr
    exact ⟨p, snapshot, verified, proposed, history, hp, .inl ⟨hc, rfl⟩⟩
  · next snapshot verified proposed history hc =>
    obtain rfl := Option.some.inj hr
    exact ⟨p, snapshot, verified, proposed, history, hp, .inr ⟨hc, by simp⟩⟩
  · cases hr

theorem start_cases {installed : SignedDeploymentTrust} {now : ℕ} {io : LoadIo}
    (h : s.start env installed now io = some s') :
    s.process = none ∧
      ((∃ loaded, (loadInitial env s.disk installed now io).1 = .ok loaded ∧
        s' = ⟨(loadInitial env s.disk installed now io).2,
          some (.load loaded (loadInitial env s.disk installed now io).2.store),
          s.current ++ loaded.cached.toList⟩) ∨
      s' = { s with disk := (loadInitial env s.disk installed now io).2 }) := by
  unfold start at h
  split at h
  · next loaded disk hp hl =>
    obtain rfl := Option.some.inj h
    exact ⟨hp, .inl ⟨loaded, by rw [hl], by rw [hl]⟩⟩
  · next error disk hp hl =>
    obtain rfl := Option.some.inj h
    exact ⟨hp, .inr (by rw [hl])⟩
  · cases h

end Sys

/-! An installation that knows two snapshots of one trust document. -/

def sampleTrust : SignedDeploymentTrust := ⟨"7b7d", "0"⟩

def sampleSnapshot (payloadHex : String) : SignedControlSnapshot := ⟨sampleTrust, payloadHex, "a"⟩

def samplePayload (generation : ℕ) : ControlSnapshotPayload where
  deploymentId := "deployment-1"
  serverId := "server-1"
  signerEpoch := 1
  travelId := "travel-1"
  travelManagementSpkiSha256 := samplePin '3'
  generation := generation
  issuedAtUnixSecs := 1000
  expiresAtUnixSecs := 1300
  relayDirectory :=
    { generation := generation
      relays := [⟨"relay-1", "relay-1.example:8443", "relay-1.example:8444", samplePin '4'⟩] }
  catalog := { generation := generation, homes := [] }

def sampleInstallation : Installation where
  travelId := "travel-1"
  managementSpkiSha256 := samplePin '3'
  homes := ["home-1"]
  deploymentRootPublicKey := sampleKey '0'
  codec := sampleCodec
  controlSnapshot payloadHex :=
    if payloadHex = "05" then some (samplePayload 5)
    else if payloadHex = "06" then some (samplePayload 6)
    else none

/-- A delivery by the Relay of the samples. -/
def sampleDelivery (payloadHex : String) : Action :=
  .receive (sampleSnapshot payloadHex) "relay-1" (samplePin '4') 1000 1000

end FlowSplice.Control
