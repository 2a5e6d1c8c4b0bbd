import Mathlib.Data.List.Sort
import FlowSplice.Control.Snapshot

/-! What a Travel keeps of the control snapshots it accepted: `ControlTrustState`, the Relay
history next to it and `load_initial_control_trust_state` of `flowsplice-travel-core/src/lib.rs`. -/
namespace FlowSplice.Control

def controlTrustStateObjectType : String := "flowsplice.travel_control_high_water"
def relayHistoryVersion : ℕ := 1

structure ControlTrustState where
  objectType : String := controlTrustStateObjectType
  deploymentId : Option String := none
  trustGeneration : ℕ := 0
  trustDigestSha256 : Option String := none
  signerEpoch : ℕ := 0
  snapshotGeneration : ℕ := 0
  snapshotDigestSha256 : Option String := none
  cachedSnapshot : Option SignedControlSnapshot := none
deriving DecidableEq, Repr

/-- The reasons for which `validate_shape` and `accept` bail. -/
inductive TrustError where
  | unsupportedState
  | inconsistentState
  | differentDeployment
  | trustRollback
  | trustConflict
  | epochRollback
  | snapshotConflict
deriving DecidableEq, Repr

namespace ControlTrustState

def validateShape (state : ControlTrustState) : Except TrustError Unit :=
  if state.objectType ≠ controlTrustStateObjectType then .error .unsupportedState
  else if state.snapshotGeneration = 0 ∧
      (state.signerEpoch ≠ 0 ∨ state.snapshotDigestSha256.isSome ∨ state.cachedSnapshot.isSome) then
    .error .inconsistentState
  else .ok ()

/-- `accept`: whether the state changed, and the state after it. -/
def accept (state : ControlTrustState) (snapshot : VerifiedControlSnapshot) :
    Except TrustError (Bool × ControlTrustState) :=
  match state.validateShape with
  | .error error => .error error
  | .ok () =>
    if state.deploymentId.any (· ≠ snapshot.trust.deploymentId) then .error .differentDeployment
    else if snapshot.trust.generation < state.trustGeneration then .error .trustRollback
    else if snapshot.trust.generation = state.trustGeneration ∧ state.trustDigestSha256.isSome ∧
        state.trustDigestSha256 ≠ some snapshot.trustDigestSha256 then
      .error .trustConflict
    else if snapshot.payload.signerEpoch < state.signerEpoch then .error .epochRollback
    else if snapshot.payload.signerEpoch = state.signerEpoch ∧
        snapshot.payload.generation < state.snapshotGeneration then
      .ok (false, state)
    else if snapshot.payload.signerEpoch = state.signerEpoch ∧
        snapshot.payload.generation = state.snapshotGeneration then
      if state.snapshotDigestSha256 ≠ some snapshot.digestSha256 then .error .snapshotConflict
      else .ok (false, state)
    else
      .ok (true, { state with
        deploymentId := some snapshot.trust.deploymentId
        trustGeneration := snapshot.trust.generation
        trustDigestSha256 := some snapshot.trustDigestSha256
        signerEpoch := snapshot.payload.signerEpoch
        snapshotGeneration := snapshot.payload.generation
        snapshotDigestSha256 := some snapshot.digestSha256 })

end ControlTrustState

structure RelayHistoryRecord where
  version : ℕ := relayHistoryVersion
  deploymentId : String
  relayId : String
  managementAddr : String
  managementSpkiSha256 : String
  firstSeenUnixSecs : ℕ
  lastSeenUnixSecs : ℕ
  lastDirectoryGeneration : ℕ
  lastSuccessUnixSecs : Option ℕ := none
  lastFailureUnixSecs : Option ℕ := none
  consecutiveFailures : ℕ := 0
  currentMember : Bool := true
  operatorDisabled : Bool := false
deriving DecidableEq, Repr

/-- `relay_history_records`. -/
def relayHistoryRecords (snapshot : VerifiedControlSnapshot) (now : ℕ) : List RelayHistoryRecord :=
  snapshot.payload.relayDirectory.relays.map fun relay =>
    { deploymentId := snapshot.trust.deploymentId
      relayId := relay.id
      managementAddr := relay.managementAddr
      managementSpkiSha256 := relay.managementSpkiSha256
      firstSeenUnixSecs := now
      lastSeenUnixSecs := now
      lastDirectoryGeneration := snapshot.payload.relayDirectory.generation }

/-- The records after one endpoint of an accepted directory: the first record of its Relay is
brought up to date, or a new one is appended. -/
def recordEndpoint (snapshot : VerifiedControlSnapshot) (now : ℕ) (history : List RelayHistoryRecord)
    (endpoint : RelayEndpoint) : List RelayHistoryRecord :=
  match history.findIdx? (·.relayId == endpoint.id) with
  | some i => history.modify i fun record =>
      { record with
        managementAddr := endpoint.managementAddr
        managementSpkiSha256 := endpoint.managementSpkiSha256
        lastSeenUnixSecs := now
        lastDirectoryGeneration := snapshot.payload.relayDirectory.generation
        currentMember := true
        operatorDisabled := false }
  | none => history ++
      [{ deploymentId := snapshot.trust.deploymentId
         relayId := endpoint.id
         managementAddr := endpoint.managementAddr
         managementSpkiSha256 := endpoint.managementSpkiSha256
         firstSeenUnixSecs := now
         lastSeenUnixSecs := now
         lastDirectoryGeneration := snapshot.payload.relayDirectory.generation }]

/-- The history that `apply_control_snapshot` proposes. -/
def proposedHistory (snapshot : VerifiedControlSnapshot) (now : ℕ)
    (history : List RelayHistoryRecord) : List RelayHistoryRecord :=
  snapshot.payload.relayDirectory.relays.foldl (recordEndpoint snapshot now)
    (history.map fun record => { record with currentMember := false })

/-- The tables of the redb store that are read here. `relayHistory` is keyed by Relay id. -/
structure Store where
  controlState : Option ControlTrustState := none
  relayHistory : List (String × RelayHistoryRecord) := []
  legacyDigest : Option String := none
deriving DecidableEq, Repr

namespace Store

/-- The rows are in the order of their writes. -/
def putHistory (store : Store) (record : RelayHistoryRecord) : Store :=
  { store with
    relayHistory := (record.relayId, record) ::
      store.relayHistory.filter (·.1 ≠ record.relayId) }

/-- The batch that `apply_control_snapshot` commits. -/
def commitSnapshot (store : Store) (proposed : ControlTrustState)
    (history : List RelayHistoryRecord) : Store :=
  history.foldl putHistory { store with controlState := some proposed }

@[simp] theorem foldl_putHistory_controlState (history : List RelayHistoryRecord) (store : Store) :
    (history.foldl putHistory store).controlState = store.controlState := by
  induction history generalizing store with
  | nil => rfl
  | cons record history ih => exact ih _

@[simp] theorem commitSnapshot_controlState (store : Store) (proposed : ControlTrustState)
    (history : List RelayHistoryRecord) :
    (store.commitSnapshot proposed history).controlState = some proposed := by
  simp [commitSnapshot]

end Store

def digitsValue (digits : List Char) : ℕ :=
  digits.foldl (fun n c => 10 * n + (c.toNat - '0'.toNat)) 0

/-- Digits of a `u16` port above zero, with the one leading plus sign that `parse` takes. -/
def validPort (port : List Char) : Bool :=
  let digits := match port with
    | '+' :: rest => rest
    | _ => port
  !digits.isEmpty && digits.all Char.isDigit && decide (0 < digitsValue digits) &&
    decide (digitsValue digits < 2 ^ 16)

/-- A host and a port on either side of the last colon. -/
def validAddress (addr : List Char) : Bool :=
  let port := (addr.reverse.takeWhile (· ≠ ':')).reverse
  decide (port.length + 1 < addr.length) && validPort port

/-- `valid_relay_history_record`. -/
def validRelayHistoryRecord (key : String) (record : RelayHistoryRecord) : Bool :=
  record.version == relayHistoryVersion && key == record.relayId && !record.deploymentId.isEmpty &&
    !record.relayId.isEmpty && validAddress record.managementAddr.toList &&
    validSpkiPin record.managementSpkiSha256 &&
    decide (record.firstSeenUnixSecs ≤ record.lastSeenUnixSecs) &&
    decide (0 < record.lastDirectoryGeneration)

/-- `scan_prefix` of the whole table, in the order of the keys. -/
def Store.scanHistory (store : Store) : List (String × RelayHistoryRecord) :=
  store.relayHistory.insertionSort fun left right => stringBytes left.1 ≤ stringBytes right.1

/-- `load_relay_history`: valid records, without those whose address two identities claim. -/
def loadRelayHistory (store : Store) : List RelayHistoryRecord :=
  let records :=
    (store.scanHistory.filter fun row => validRelayHistoryRecord row.1 row.2).map (·.2)
  records.filter fun record => records.all fun other =>
    other.managementAddr ≠ record.managementAddr ∨
      (other.relayId = record.relayId ∧ other.managementSpkiSha256 = record.managementSpkiSha256)

/-- A control state file from before the store, as it parses, with its digest. -/
structure LegacyFile where
  state : Option ControlTrustState
  digest : String
deriving DecidableEq, Repr

structure Disk where
  store : Store := {}
  legacy : Option LegacyFile := none
deriving DecidableEq, Repr

inductive LoadError where
  | trustInvalid
  | legacyInvalid
  | shape (error : TrustError)
  | differentDeployment
  | trustConflict
  | homesUntrusted
  | commitFailed
  | legacyNotRemoved
deriving DecidableEq, Repr

/-- `state`, `runtime_trust` and `cached`. -/
structure Loaded where
  state : ControlTrustState
  trust : DeploymentTrust
  cached : Option VerifiedControlSnapshot

/-- Whether the commit succeeds, and whether a migrated legacy file can be removed. -/
structure LoadIo where
  committed : Bool := true
  removed : Bool := true
deriving DecidableEq, Repr

/-- The state the load starts from: stored, legacy or new. -/
def Disk.controlState (disk : Disk) : Option ControlTrustState :=
  match disk.store.controlState, disk.legacy with
  | some state, _ => some state
  | none, some legacy => legacy.state
  | none, none => some {}

def Disk.migratingLegacy (disk : Disk) : Bool :=
  disk.store.controlState.isNone && disk.legacy.isSome

/-- The installed trust document raises the mark, or starts it. -/
def ControlTrustState.install (state : ControlTrustState) (trust : DeploymentTrust)
    (trustDigest : String) : ControlTrustState :=
  if trust.generation > state.trustGeneration ∨ state.deploymentId.isNone then
    { state with
      deploymentId := some trust.deploymentId
      trustGeneration := trust.generation
      trustDigestSha256 := some trustDigest }
  else state

/-- `snapshot_matches_high_water`. -/
def ControlTrustState.matchesHighWater (state : ControlTrustState)
    (verified : VerifiedControlSnapshot) : Bool :=
  verified.trust.generation == state.trustGeneration &&
    verified.trustDigestSha256 == state.trustDigestSha256.getD "" &&
    verified.payload.signerEpoch == state.signerEpoch &&
    verified.payload.generation == state.snapshotGeneration &&
    verified.digestSha256 == state.snapshotDigestSha256.getD ""

/-- The cached snapshot, when it can still be used. -/
def ControlTrustState.usableCache (env : Installation) (state : ControlTrustState) (now : ℕ) :
    Option VerifiedControlSnapshot :=
  (state.cachedSnapshot.bind (env.verify · now)).filter fun verified =>
    requireSubject env verified && state.matchesHighWater verified

/-- The snapshot of a legacy state whose Relays are still recorded. -/
def ControlTrustState.historicalSnapshot (env : Installation) (state : ControlTrustState) :
    Option VerifiedControlSnapshot :=
  (state.cachedSnapshot.bind env.verifyAtIssuance).filter fun verified =>
    requireSubject env verified && state.matchesHighWater verified

/-- The batch that the load commits. -/
def Store.commitLoaded (store : Store) (state : ControlTrustState)
    (snapshot : Option VerifiedControlSnapshot) (legacyDigest : Option String) (now : ℕ) : Store :=
  let store := { store with
    controlState := some state, legacyDigest := legacyDigest.or store.legacyDigest }
  match snapshot with
  | some snapshot => (relayHistoryRecords snapshot now).foldl Store.putHistory store
  | none => store

@[simp] theorem Store.commitLoaded_controlState (store : Store) (state : ControlTrustState)
    (snapshot : Option VerifiedControlSnapshot) (legacyDigest : Option String) (now : ℕ) :
    (store.commitLoaded state snapshot legacyDigest now).controlState = some state := by
  cases snapshot <;> simp [commitLoaded]

/-- The rest of the load, once the installed trust document has been taken into the state. -/
def commitInitial (env : Installation) (disk : Disk) (state : ControlTrustState)
    (trust : DeploymentTrust) (now : ℕ) (io : LoadIo) : Except LoadError Loaded × Disk :=
  let cached := state.usableCache env now
  let historical := if disk.migratingLegacy then state.historicalSnapshot env else none
  let runtimeTrust := (cached.map (·.trust)).getD trust
  if cached.any fun snapshot =>
      !configuredHomesAreTrusted env runtimeTrust snapshot.payload.catalog now then
    (.error .homesUntrusted, disk)
  else if !io.committed then (.error .commitFailed, disk)
  else
    let legacyDigest := disk.legacy.map (·.digest)
    let store := disk.store.commitLoaded state (cached.or historical)
      (if disk.migratingLegacy then legacyDigest else none) now
    if legacyDigest.any fun digest => store.legacyDigest = some digest then
      if io.removed then (.ok ⟨state, runtimeTrust, cached⟩, { store := store })
      else (.error .legacyNotRemoved, { disk with store := store })
    else (.ok ⟨state, runtimeTrust, cached⟩, { disk with store := store })

/-- `load_initial_control_trust_state`. -/
def loadInitial (env : Installation) (disk : Disk) (installed : SignedDeploymentTrust) (now : ℕ)
    (io : LoadIo) : Except LoadError Loaded × Disk :=
  match env.verifyTrust installed now with
  | none => (.error .trustInvalid, disk)
  | some (trust, trustDigest) =>
    match disk.controlState with
    | none => (.error .legacyInvalid, disk)
    | some state =>
      match state.validateShape with
      | .error error => (.error (.shape error), disk)
      | .ok () =>
        if state.deploymentId.any (· ≠ trust.deploymentId) then (.error .differentDeployment, disk)
        else if trust.generation = state.trustGeneration ∧ state.trustDigestSha256.isSome ∧
            state.trustDigestSha256 ≠ some trustDigest then
          (.error .trustConflict, disk)
        else commitInitial env disk (state.install trust trustDigest) trust now io

theorem commitInitial_cases (env : Installation) (disk : Disk) (state : ControlTrustState)
    (trust : DeploymentTrust) (now : ℕ) (io : LoadIo) :
    (∃ error, commitInitial env disk state trust now io = (.error error, disk)) ∨
    (commitInitial env disk state trust now io).2.store.controlState = some state ∧
      ∀ loaded, (commitInitial env disk state trust now io).1 = .ok loaded →
        loaded = ⟨state, ((state.usableCache env now).map (·.trust)).getD trust,
          state.usableCache env now⟩ := by
  simp only [commitInitial]
  generalize (if disk.migratingLegacy then state.historicalSnapshot env else none) = historical
  generalize (if disk.migratingLegacy then disk.legacy.map (·.digest) else none) = migrated
  split_ifs
  · exact .inl ⟨_, rfl⟩
  · exact .inl ⟨_, rfl⟩
  · exact .inr ⟨by simp, fun loaded h => (Except.ok.inj h).symm⟩
  · exact .inr ⟨by simp, fun loaded h => by cases h⟩
  · exact .inr ⟨by simp, fun loaded h => (Except.ok.inj h).symm⟩

/-- A load leaves the disk alone, or stores the state that it installed and returns. -/
theorem loadInitial_cases (env : Installation) (disk : Disk) (installed : SignedDeploymentTrust)
    (now : ℕ) (io : LoadIo) :
    (∃ error, loadInitial env disk installed now io = (.error error, disk)) ∨
    ∃ trust trustDigest state, env.verifyTrust installed now = some (trust, trustDigest) ∧
      disk.controlState = some state ∧
      loadInitial env disk installed now io =
        commitInitial env disk (state.install trust trustDigest) trust now io := by
  unfold loadInitial
  split
  · exact .inl ⟨_, rfl⟩
  · next trust trustDigest htrust =>
    split
    · exact .inl ⟨_, rfl⟩
    · next state hstate =>
      split
      · exact .inl ⟨_, rfl⟩
      · split_ifs
        · exact .inl ⟨_, rfl⟩
        · exact .inl ⟨_, rfl⟩
        · exact .inr ⟨trust, trustDigest, state, htrust, hstate, rfl⟩

end FlowSplice.Control
