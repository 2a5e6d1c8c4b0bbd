import FlowSplice.Control.Snapshot
import FlowSplice.Lib.Distinct

/-! Which Relays a Carrier race tries: the candidate selection of `perform_race` and the successive
races of `run_inner` in `flowsplice-travel-core/src/tcp_flow.rs`. -/
namespace FlowSplice.Race
open Control

structure RelayAddressOverride where
  id : String
  managementAddr : String
  dataAddr : String
  bootstrapHint : Bool := false
deriving DecidableEq, Repr

structure RelayCandidate where
  expectedId : Option String
  managementAddr : String
  managementSpkiSha256 : Option String
deriving DecidableEq, Repr

def relayManagementCandidates (id signed pin : String) (overrides : List RelayAddressOverride) :
    List RelayCandidate :=
  let signedCandidate : RelayCandidate := ⟨some id, signed, some pin⟩
  match (overrides.find? (·.id == id)).filter (·.managementAddr != signed) with
  | none => [signedCandidate]
  | some address =>
    let overrideCandidate := { signedCandidate with managementAddr := address.managementAddr }
    if address.bootstrapHint then [signedCandidate, overrideCandidate]
    else [overrideCandidate, signedCandidate]

def signedDirectoryCandidates (directory : RelayDirectory)
    (overrides : List RelayAddressOverride) : List RelayCandidate :=
  directory.relays.flatMap fun relay =>
    relayManagementCandidates relay.id relay.managementAddr relay.managementSpkiSha256 overrides

/-- The slots of a race, given the Relay of the active Carrier. -/
def availableSlots (maxCarriersPerFlow : ℕ) (oldRelayId : Option String) : ℕ :=
  maxCarriersPerFlow - if oldRelayId.isSome then 1 else 0

/-- The loop over the candidates: it skips the active Relay and ends without a Carrier permit. -/
def launch (oldRelayId : Option String) : ℕ → List RelayCandidate → List RelayCandidate
  | _, [] => []
  | permits, relay :: relays =>
    if relay.expectedId.any (oldRelayId == some ·) then launch oldRelayId permits relays
    else match permits with
      | 0 => []
      | permits + 1 => relay :: launch oldRelayId permits relays

/-- The attempts that `perform_race` launches. -/
def performRace (overrides : List RelayAddressOverride) (maxCarriersPerFlow : ℕ)
    (directory : RelayDirectory) (oldRelayId : Option String) (permits : ℕ) :
    List RelayCandidate :=
  launch oldRelayId permits
    ((signedDirectoryCandidates directory overrides).take
      (availableSlots maxCarriersPerFlow oldRelayId))

/-- What changes the active Carrier of a flow. Which Relay carries it after a race is the outcome
of that race. -/
inductive Event
  | race (permits : ℕ) (active : Option String)
  | closed
deriving DecidableEq, Repr

def step : Option String → Event → Option String
  | _, .race _ active => active
  | _, .closed => none

variable (overrides : List RelayAddressOverride) (maxCarriersPerFlow : ℕ)
  (directory : RelayDirectory)

def attempted (oldRelayId : Option String) (permits : ℕ) : List String :=
  (performRace overrides maxCarriersPerFlow directory oldRelayId permits).filterMap (·.expectedId)

/-- The Relays that a recovery race tries, one without an active Carrier. -/
def recoveryAttempts : Option String → Event → List String
  | none, .race permits _ => attempted overrides maxCarriersPerFlow directory none permits
  | _, _ => []

/-- The Relays of the directory other than the active one. -/
def others (oldRelayId : Option String) : Finset String :=
  Distinct.among (oldRelayId != some ·) (directory.relays.map (·.id))

/-- With permits available, a race tries as many other Relays as it has slots for. -/
def TriesOthers (oldRelayId : Option String) : Prop :=
  ∀ permits, availableSlots maxCarriersPerFlow oldRelayId ≤ permits →
    let relays := (attempted overrides maxCarriersPerFlow directory oldRelayId permits).toFinset
    relays ⊆ others directory oldRelayId ∧
      relays.card = min (availableSlots maxCarriersPerFlow oldRelayId)
        (others directory oldRelayId).card

/-- The active Relays of a flow whose races all have permits available. -/
structure IsRun (active : ℕ → Option String) (event : ℕ → Event) : Prop where
  start : active 0 = none
  next : ∀ n, active (n + 1) = step (active n) (event n)
  permits : ∀ n permits result, event n = .race permits result →
    availableSlots maxCarriersPerFlow (active n) ≤ permits

/-- No Relay is left out of the recovery races forever while some Relay is retried. -/
def RetriesAll : Prop :=
  ∀ active event, IsRun maxCarriersPerFlow active event →
    ∀ other, (∀ n, ∃ m ≥ n, other ∈ recoveryAttempts overrides maxCarriersPerFlow directory
        (active m) (event m)) →
      ∀ relay ∈ directory.relays, ∀ n, ∃ m ≥ n, relay.id ∈ recoveryAttempts overrides
        maxCarriersPerFlow directory (active m) (event m)

/-- The management addresses the Travel has for a Relay: the signed one, and that of the first
override with its id when this is another one. -/
def addresses (relay : RelayEndpoint) : ℕ :=
  if (overrides.find? (·.id == relay.id)).any (·.managementAddr != relay.managementAddr) then 2
  else 1

/-- The Relays of the directory in order, each once for every address. -/
def addressed : List String :=
  directory.relays.flatMap fun relay => List.replicate (addresses overrides relay) relay.id

/-- Every Relay other than the active one has an address among the first `n`. -/
def HasOthers (oldRelayId : Option String) (n : ℕ) : Prop :=
  ∀ id ∈ addressed overrides directory, (oldRelayId != some id) = true →
    id ∈ (addressed overrides directory).take n

/-- There are `n` addresses, and the first `n` are those of different Relays, none the active one. -/
def StartsDifferent (oldRelayId : Option String) (n : ℕ) : Prop :=
  n ≤ (addressed overrides directory).length ∧ ((addressed overrides directory).take n).Nodup ∧
    ∀ id ∈ (addressed overrides directory).take n, (oldRelayId != some id) = true

section Candidates
variable {overrides} {maxCarriersPerFlow} {directory}

theorem addresses_pos (relay : RelayEndpoint) : 0 < addresses overrides relay := by
  unfold addresses
  split <;> omega

theorem expectedId_relayManagementCandidates (relay : RelayEndpoint) :
    (relayManagementCandidates relay.id relay.managementAddr relay.managementSpkiSha256
      overrides).map (·.expectedId) =
      (List.replicate (addresses overrides relay) relay.id).map some := by
  unfold relayManagementCandidates addresses
  cases hfind : overrides.find? (·.id == relay.id) with
  | none => simp
  | some address =>
    by_cases haddr : address.managementAddr = relay.managementAddr
    · simp [Option.filter, haddr]
    · by_cases hhint : address.bootstrapHint = true <;> simp [Option.filter, haddr, hhint]

theorem expectedId_signedDirectoryCandidates :
    (signedDirectoryCandidates directory overrides).map (·.expectedId) =
      (addressed overrides directory).map some := by
  unfold signedDirectoryCandidates addressed
  simp only [List.map_flatMap, expectedId_relayManagementCandidates]

/-- With a permit for each candidate the loop only leaves out the active Relay. -/
theorem launch_eq_filter {oldRelayId : Option String} {relays : List RelayCandidate} {permits : ℕ}
    (h : relays.length ≤ permits) :
    launch oldRelayId permits relays =
      relays.filter fun relay => !relay.expectedId.any (oldRelayId == some ·) := by
  induction relays generalizing permits with
  | nil => rfl
  | cons relay relays ih =>
    rw [List.length_cons] at h
    by_cases hskip : relay.expectedId.any (oldRelayId == some ·) = true
    · have hrest := @ih permits (by omega)
      simp [launch, hskip, hrest]
    · cases permits with
      | zero => omega
      | succ permits =>
        have hrest := @ih permits (by omega)
        simp [launch, hskip, hrest]

theorem expectedId_filter {oldRelayId : Option String} {relays : List RelayCandidate}
    {ids : List String} (h : relays.map (·.expectedId) = ids.map some) :
    (relays.filter fun relay => !relay.expectedId.any (oldRelayId == some ·)).filterMap
      (·.expectedId) = ids.filter (oldRelayId != some ·) := by
  induction relays generalizing ids with
  | nil =>
    cases ids with
    | nil => rfl
    | cons id ids => simp at h
  | cons relay relays ih =>
    cases ids with
    | nil => simp at h
    | cons id ids =>
      simp only [List.map_cons, List.cons.injEq] at h
      have hrest := ih h.2
      by_cases hskip : oldRelayId = some id
      · simpa [List.filter_cons, h.1, hskip] using hrest
      · simpa [List.filter_cons, h.1, hskip] using hrest

theorem attempted_eq {oldRelayId : Option String} {permits : ℕ}
    (h : availableSlots maxCarriersPerFlow oldRelayId ≤ permits) :
    attempted overrides maxCarriersPerFlow directory oldRelayId permits =
      ((addressed overrides directory).take (availableSlots maxCarriersPerFlow oldRelayId)).filter
        (oldRelayId != some ·) := by
  have hlength : ((signedDirectoryCandidates directory overrides).take
      (availableSlots maxCarriersPerFlow oldRelayId)).length ≤ permits := by
    rw [List.length_take]
    omega
  unfold attempted performRace
  rw [launch_eq_filter hlength]
  apply expectedId_filter
  rw [List.map_take, expectedId_signedDirectoryCandidates, List.map_take]

theorem mem_addressed {id : String} :
    id ∈ addressed overrides directory ↔ id ∈ directory.relays.map (·.id) := by
  unfold addressed
  simp only [List.mem_flatMap, List.mem_replicate, List.mem_map]
  constructor
  · rintro ⟨relay, hrelay, -, hid⟩
    exact ⟨relay, hrelay, hid.symm⟩
  · rintro ⟨relay, hrelay, hid⟩
    have hpos : 0 < addresses overrides relay := addresses_pos relay
    exact ⟨relay, hrelay, by omega, hid.symm⟩

theorem others_eq {oldRelayId : Option String} :
    others directory oldRelayId =
      Distinct.among (oldRelayId != some ·) (addressed overrides directory) := by
  ext id
  unfold others
  rw [Distinct.mem_among, Distinct.mem_among, mem_addressed]

theorem triesOthers_iff {oldRelayId : Option String} :
    TriesOthers overrides maxCarriersPerFlow directory oldRelayId ↔
      HasOthers overrides directory oldRelayId (availableSlots maxCarriersPerFlow oldRelayId) ∨
        StartsDifferent overrides directory oldRelayId
          (availableSlots maxCarriersPerFlow oldRelayId) := by
  unfold HasOthers StartsDifferent
  rw [← Distinct.card_among_take_iff, ← others_eq]
  constructor
  · intro h
    have hcard := (h _ le_rfl).2
    rw [attempted_eq le_rfl] at hcard
    exact hcard
  · intro hcard permits hpermits
    rw [attempted_eq hpermits]
    refine ⟨?_, hcard⟩
    rw [others_eq]
    exact Distinct.among_mono (List.take_subset _ _)

@[simp] theorem recoveryAttempts_race {permits : ℕ} {result : Option String} :
    recoveryAttempts overrides maxCarriersPerFlow directory none (.race permits result) =
      attempted overrides maxCarriersPerFlow directory none permits := rfl

theorem mem_recoveryAttempts {id : String} {permits : ℕ} {result : Option String}
    (h : maxCarriersPerFlow ≤ permits) :
    id ∈ recoveryAttempts overrides maxCarriersPerFlow directory none (.race permits result) ↔
      id ∈ (addressed overrides directory).take maxCarriersPerFlow := by
  have hslots : availableSlots maxCarriersPerFlow none ≤ permits := h
  rw [recoveryAttempts_race, attempted_eq hslots]
  simp [availableSlots]

/-- The Relay of a flow that wins every recovery race, and whose Carrier closes before the next. -/
def winner (relayId : String) (n : ℕ) : Option String := if n % 2 = 0 then none else some relayId

def winsAndCloses (maxCarriersPerFlow : ℕ) (relayId : String) (n : ℕ) : Event :=
  if n % 2 = 0 then .race maxCarriersPerFlow (some relayId) else .closed

theorem isRun_winner (relayId : String) :
    IsRun maxCarriersPerFlow (winner relayId) (winsAndCloses maxCarriersPerFlow relayId) where
  start := rfl
  next n := by
    by_cases hwins : n % 2 = 0
    · have hclosed : (n + 1) % 2 ≠ 0 := by omega
      simp [winner, winsAndCloses, step, hwins, hclosed]
    · have hrace : (n + 1) % 2 = 0 := by omega
      simp [winner, winsAndCloses, step, hwins, hrace]
  permits n permits result h := by
    unfold winsAndCloses at h
    by_cases hwins : n % 2 = 0
    · rw [if_pos hwins, Event.race.injEq] at h
      simp [winner, availableSlots, hwins, h.1]
    · rw [if_neg hwins] at h
      cases h

theorem mem_recoveryAttempts_winner {id relayId : String} {n : ℕ} :
    id ∈ recoveryAttempts overrides maxCarriersPerFlow directory (winner relayId n)
        (winsAndCloses maxCarriersPerFlow relayId n) ↔
      n % 2 = 0 ∧ id ∈ (addressed overrides directory).take maxCarriersPerFlow := by
  unfold winner winsAndCloses
  by_cases hwins : n % 2 = 0
  · rw [if_pos hwins, if_pos hwins, mem_recoveryAttempts le_rfl]
    simp [hwins]
  · rw [if_neg hwins, if_neg hwins]
    simp [recoveryAttempts, hwins]

/-- A Relay within the slots is tried again and again. -/
theorem retried_winner {id relayId : String}
    (h : id ∈ (addressed overrides directory).take maxCarriersPerFlow) (n : ℕ) :
    ∃ m ≥ n, id ∈ recoveryAttempts overrides maxCarriersPerFlow directory (winner relayId m)
      (winsAndCloses maxCarriersPerFlow relayId m) := by
  have hwins : 2 * n % 2 = 0 := by omega
  exact ⟨2 * n, by omega, mem_recoveryAttempts_winner.mpr ⟨hwins, h⟩⟩

theorem retriesAll_of_hasOthers (h : HasOthers overrides directory none maxCarriersPerFlow) :
    RetriesAll overrides maxCarriersPerFlow directory := by
  intro active event hrun other hretried relay hrelay n
  obtain ⟨m, hm, hother⟩ := hretried n
  refine ⟨m, hm, ?_⟩
  cases hactive : active m with
  | some carried =>
    rw [hactive] at hother
    simp [recoveryAttempts] at hother
  | none =>
    cases hevent : event m with
    | closed =>
      rw [hactive, hevent] at hother
      simp [recoveryAttempts] at hother
    | race permits result =>
      have hslots := hrun.permits m permits result hevent
      rw [hactive] at hslots
      rw [mem_recoveryAttempts (by simpa [availableSlots] using hslots)]
      exact h relay.id (mem_addressed.mpr (List.mem_map_of_mem hrelay)) rfl

/-- The first Relay is in every recovery race, so each must be. -/
theorem hasOthers_of_retriesAll (hmax : 0 < maxCarriersPerFlow)
    (h : RetriesAll overrides maxCarriersPerFlow directory) :
    HasOthers overrides directory none maxCarriersPerFlow := by
  intro id hid _
  have hmem := mem_addressed.mp hid
  rw [List.mem_map] at hmem
  obtain ⟨relay, hrelay, rfl⟩ := hmem
  cases hall : addressed overrides directory with
  | nil => simp [hall] at hid
  | cons first ids =>
    have hfirst : first ∈ (addressed overrides directory).take maxCarriersPerFlow := by
      rw [hall]
      cases maxCarriersPerFlow with
      | zero => omega
      | succ slots => simp
    obtain ⟨m, -, htried⟩ :=
      h _ _ (isRun_winner first) first (retried_winner hfirst) relay hrelay 0
    rw [← hall]
    exact (mem_recoveryAttempts_winner.mp htried).2

/-- A race tries the other Relays, and the recovery races retry all of them, exactly when every
Relay has an address among as many as there are Carriers, and the race's slots either reach every
other Relay or go to as many different ones. -/
theorem triesOthers_and_retriesAll_iff {oldRelayId : Option String}
    (hmax : 2 ≤ maxCarriersPerFlow) :
    TriesOthers overrides maxCarriersPerFlow directory oldRelayId ∧
        RetriesAll overrides maxCarriersPerFlow directory ↔
      HasOthers overrides directory none maxCarriersPerFlow ∧
        (HasOthers overrides directory oldRelayId (availableSlots maxCarriersPerFlow oldRelayId) ∨
          StartsDifferent overrides directory oldRelayId
            (availableSlots maxCarriersPerFlow oldRelayId)) := by
  constructor
  · rintro ⟨htries, hretries⟩
    exact ⟨hasOthers_of_retriesAll (by omega) hretries, triesOthers_iff.mp htries⟩
  · rintro ⟨hall, hothers⟩
    exact ⟨triesOthers_iff.mpr hothers, retriesAll_of_hasOthers hall⟩

end Candidates

/-- Two Relays, and another management address for the first. -/
def sampleDirectory : RelayDirectory where
  generation := 1
  relays := [⟨"relay-1", "relay-1.example:8443", "relay-1.example:8444", "11"⟩,
    ⟨"relay-2", "relay-2.example:8443", "relay-2.example:8444", "22"⟩]

def sampleOverrides : List RelayAddressOverride :=
  [⟨"relay-1", "10.0.2.2:18443", "10.0.2.2:18444", false⟩]

theorem triesOthers_and_retriesAll_three :
    2 ≤ 3 ∧ TriesOthers sampleOverrides 3 sampleDirectory none ∧
      RetriesAll sampleOverrides 3 sampleDirectory :=
  ⟨by decide, (triesOthers_and_retriesAll_iff (by decide)).mpr
    ⟨by unfold HasOthers; decide, .inl (by unfold HasOthers; decide)⟩⟩

/-- With two slots the two addresses of the first Relay take both, in every recovery race; and
without the override the active first Relay takes the slot for the second. -/
theorem not_triesOthers_of_twoSlots :
    ¬ TriesOthers sampleOverrides 2 sampleDirectory none ∧
      ¬ RetriesAll sampleOverrides 2 sampleDirectory ∧
      ¬ TriesOthers [] 2 sampleDirectory (some "relay-1") := by
  refine ⟨?_, ?_, ?_⟩
  · intro h
    have hcard := (h 2 (by decide)).2
    revert hcard
    decide
  · intro h
    have hfirst : "relay-1" ∈ (addressed sampleOverrides sampleDirectory).take 2 := by decide
    have hmem : sampleDirectory.relays[1] ∈ sampleDirectory.relays := by decide
    obtain ⟨m, -, htried⟩ :=
      h _ _ (isRun_winner "relay-1") "relay-1" (retried_winner hfirst) _ hmem 0
    have hlast := (mem_recoveryAttempts_winner.mp htried).2
    revert hlast
    decide
  · intro h
    have hcard := (h 1 (by decide)).2
    revert hcard
    decide

end FlowSplice.Race
