import FlowSplice.Control.Apply
import FlowSplice.Server.Signable

/-! When a Travel takes a control snapshot that a Relay delivers, and when it starts from the one
it has cached: both depend on what the snapshot shows of every configured Home. -/
namespace FlowSplice.Control

/-- What the catalog shows of a Home and what the trust document says about it agree: a credential
that is shown is good now and the Home's own, and without one the Home is in the document. -/
def HomePresent (env : Installation) (trust : DeploymentTrust) (catalog : Catalog) (now : ℕ)
    (homeId : String) : Prop :=
  match (catalog.homes.find? (·.homeId == homeId)).bind (·.endpointCredential) with
  | some credential => ∃ endpoint, credential.verify env.codec trust now = some endpoint ∧
      endpoint.homeId = homeId
  | none => ∃ endpoint ∈ trust.homeEndpoints, endpoint.homeId = homeId

/-- All configured Homes are, those that are offline as well. -/
def EveryHomePresent (env : Installation) (trust : DeploymentTrust) (catalog : Catalog)
    (now : ℕ) : Prop :=
  ∀ homeId ∈ env.homes, HomePresent env trust catalog now homeId

/-- A Home that is trusted, by the document or by a credential, whether it is online or not. -/
def HomeTrusted (env : Installation) (trust : DeploymentTrust) (now : ℕ) (homeId : String) :
    Prop :=
  (∃ endpoint ∈ trust.homeEndpoints, endpoint.homeId = homeId) ∨
    ∃ credential endpoint, SignedHomeEndpointCredential.verify env.codec credential trust now =
      some endpoint ∧ endpoint.homeId = homeId

/-- `apply_control_snapshot` up to its commit, when no other call is at work: whether it changes
`control_trust_state`, and the state that it goes on to commit. -/
def applyControlSnapshot (env : Installation) (state : ControlTrustState)
    (snapshot : SignedControlSnapshot) (relayId relaySpki : String) (now later : ℕ) :
    Option (Bool × ControlTrustState) :=
  match env.verify snapshot now with
  | none => none
  | some verified =>
    if requireSubject env verified &&
        configuredHomesAreTrusted env verified.trust verified.payload.catalog later &&
        requireAuthenticatedRelay verified relayId relaySpki then
      match state.accept verified with
      | .error _ => none
      | .ok (true, proposed) => some (true, { proposed with cachedSnapshot := some snapshot })
      | .ok (false, proposed) => some (false, proposed)
    else none

/-- The snapshot is at or above the marks of the state, which are well formed. -/
structure AtOrAbove (state : ControlTrustState) (verified : VerifiedControlSnapshot) : Prop where
  shape : state.validateShape = .ok ()
  deployment : ∀ id, state.deploymentId = some id → id = verified.trust.deploymentId
  trust : state.trustGeneration ≤ verified.trust.generation
  trustDigest : verified.trust.generation = state.trustGeneration →
    ∀ digest, state.trustDigestSha256 = some digest → digest = verified.trustDigestSha256
  epoch : state.signerEpoch ≤ verified.payload.signerEpoch
  generation : verified.payload.signerEpoch = state.signerEpoch →
    state.snapshotGeneration ≤ verified.payload.generation
  digest : verified.payload.signerEpoch = state.signerEpoch →
    verified.payload.generation = state.snapshotGeneration →
    state.snapshotDigestSha256 = some verified.digestSha256

/-- A snapshot that is signed and in force, meant for this Travel, brought by a Relay that it
lists, and at or above the marks. -/
structure Deliverable (env : Installation) (state : ControlTrustState)
    (snapshot : SignedControlSnapshot) (verified : VerifiedControlSnapshot)
    (relayId relaySpki : String) (now : ℕ) : Prop where
  verify : env.verify snapshot now = some verified
  subject : requireSubject env verified = true
  relay : requireAuthenticatedRelay verified relayId relaySpki = true
  above : AtOrAbove state verified

/-- A disk whose cached snapshot is still in force and is the one of its marks, under an installed
trust document that is not newer. -/
structure Restartable (env : Installation) (disk : Disk) (snapshot : SignedControlSnapshot)
    (verified : VerifiedControlSnapshot) (installed : SignedDeploymentTrust) (now : ℕ) :
    Prop where
  verify : env.verify snapshot now = some verified
  subject : requireSubject env verified = true
  state : ∃ state trust trustDigest, disk.controlState = some state ∧
    env.verifyTrust installed now = some (trust, trustDigest) ∧
    state.cachedSnapshot = some snapshot ∧ state.matchesHighWater verified = true ∧
    state.validateShape = .ok () ∧ state.deploymentId = some trust.deploymentId ∧
    trust.generation ≤ state.trustGeneration ∧
    (trust.generation = state.trustGeneration → state.trustDigestSha256 = some trustDigest)

theorem isSome_resolveHomeEndpoint_iff {codec : Codec} {trust : DeploymentTrust}
    {homeId : String} {credential : Option SignedHomeEndpointCredential} {now : ℕ} :
    (trust.resolveHomeEndpoint codec homeId credential now).isSome = true ↔
      match credential with
      | some credential => ∃ endpoint, credential.verify codec trust now = some endpoint ∧
          endpoint.homeId = homeId
      | none => ∃ endpoint ∈ trust.homeEndpoints, endpoint.homeId = homeId := by
  cases credential with
  | none => simp [DeploymentTrust.resolveHomeEndpoint, DeploymentTrust.homeEndpoint]
  | some credential =>
    simp only [DeploymentTrust.resolveHomeEndpoint, Option.isSome_map, Option.isSome_iff_exists,
      Option.filter_eq_some_iff, beq_iff_eq]

/-- What `configured_homes_are_trusted` asks of a snapshot. -/
theorem configuredHomesAreTrusted_iff {env : Installation} {trust : DeploymentTrust}
    {catalog : Catalog} {now : ℕ} :
    configuredHomesAreTrusted env trust catalog now = true ↔
      EveryHomePresent env trust catalog now := by
  unfold configuredHomesAreTrusted EveryHomePresent
  rw [List.all_eq_true]
  apply forall_congr'
  intro homeId
  apply imp_congr_right
  intro _
  exact isSome_resolveHomeEndpoint_iff

namespace AtOrAbove
variable {state : ControlTrustState} {verified : VerifiedControlSnapshot}

/-- Nothing in the marks refuses the snapshot. -/
theorem accept_ok (h : AtOrAbove state verified) : ∃ r, state.accept verified = .ok r := by
  have hdeployment : state.deploymentId.any (· ≠ verified.trust.deploymentId) = false := by
    cases hid : state.deploymentId with
    | none => rfl
    | some id => simp [h.deployment id hid]
  unfold ControlTrustState.accept
  rw [h.shape, hdeployment]
  dsimp only
  rw [if_neg (by simp), if_neg (Nat.not_lt.mpr h.trust)]
  split_ifs with hconflict hepoch _ hsame hdigest
  · obtain ⟨hgen, hsome, hne⟩ := hconflict
    obtain ⟨digest, hd⟩ := Option.isSome_iff_exists.mp hsome
    rw [hd, h.trustDigest hgen digest hd] at hne
    exact absurd rfl hne
  · have hle := h.epoch
    omega
  · exact ⟨_, rfl⟩
  · exact absurd (h.digest hsame.1 hsame.2) hdigest
  · exact ⟨_, rfl⟩
  · exact ⟨_, rfl⟩

end AtOrAbove

section Delivery
variable {env : Installation} {state : ControlTrustState} {snapshot : SignedControlSnapshot}
  {verified : VerifiedControlSnapshot} {relayId relaySpki : String} {now later : ℕ}

/-- A delivery goes through exactly when every configured Home is present. -/
theorem isSome_applyControlSnapshot
    (h : Deliverable env state snapshot verified relayId relaySpki now) :
    (applyControlSnapshot env state snapshot relayId relaySpki now later).isSome = true ↔
      EveryHomePresent env verified.trust verified.payload.catalog later := by
  obtain ⟨⟨changed, proposed⟩, haccept⟩ := h.above.accept_ok
  rw [← configuredHomesAreTrusted_iff]
  unfold applyControlSnapshot
  rw [h.verify]
  dsimp only
  rw [h.subject, h.relay, haccept, Bool.true_and, Bool.and_true]
  split_ifs with hhomes
  · cases changed <;> simp [hhomes]
  · simp [hhomes]

end Delivery

/-- A restart takes the cached snapshot exactly when every configured Home is present, and
otherwise the Travel does not start. -/
theorem loadInitial_iff {env : Installation} {disk : Disk} {snapshot : SignedControlSnapshot}
    {verified : VerifiedControlSnapshot} {installed : SignedDeploymentTrust} {now : ℕ}
    (h : Restartable env disk snapshot verified installed now) :
    ((∃ loaded, (loadInitial env disk installed now {}).1 = .ok loaded ∧
        loaded.cached = some verified) ↔
      EveryHomePresent env verified.trust verified.payload.catalog now) ∧
    (¬ EveryHomePresent env verified.trust verified.payload.catalog now →
      loadInitial env disk installed now {} = (.error .homesUntrusted, disk)) := by
  obtain ⟨state, trust, trustDigest, hstate, htrust, hcached, hmark, hshape, hid, hgen,
    hdigest⟩ := h.state
  have hinstall : state.install trust trustDigest = state := by
    unfold ControlTrustState.install
    rw [if_neg (by simp [hid, hgen])]
  have hcache : state.usableCache env now = some verified := by
    unfold ControlTrustState.usableCache
    rw [hcached, Option.bind_some, h.verify, Option.filter_some, h.subject, hmark]
    rfl
  have hload : loadInitial env disk installed now {} =
      commitInitial env disk state trust now {} := by
    unfold loadInitial
    rw [htrust, hstate]
    dsimp only
    rw [hshape]
    dsimp only
    rw [if_neg (by simp [hid]), if_neg, hinstall]
    rintro ⟨heq, -, hne⟩
    exact hne (hdigest heq)
  have haccept : configuredHomesAreTrusted env verified.trust verified.payload.catalog now = true →
      ∃ loaded, (commitInitial env disk state trust now {}).1 = .ok loaded ∧
        loaded.cached = some verified := by
    intro hhomes
    unfold commitInitial
    rw [hcache]
    dsimp only
    generalize (if disk.migratingLegacy then disk.legacy.map (·.digest) else none) = migrated
    generalize (if disk.migratingLegacy then state.historicalSnapshot env else none) = historical
    rw [if_neg (by simp [hhomes])]
    have hcommitted : ¬ (!({} : LoadIo).committed) = true := Bool.false_ne_true
    rw [if_neg hcommitted]
    split_ifs with hdigest hremoved
    · exact ⟨_, rfl, rfl⟩
    · exact absurd rfl hremoved
    · exact ⟨_, rfl, rfl⟩
  have hrefuse : configuredHomesAreTrusted env verified.trust verified.payload.catalog now ≠ true →
      commitInitial env disk state trust now {} = (.error .homesUntrusted, disk) := by
    intro hhomes
    unfold commitInitial
    rw [hcache]
    dsimp only
    rw [if_pos (by simp [hhomes])]
  rw [hload, ← configuredHomesAreTrusted_iff]
  refine ⟨⟨?_, haccept⟩, hrefuse⟩
  rintro ⟨loaded, hok, -⟩
  by_contra hhomes
  rw [hrefuse hhomes] at hok
  cases hok

/-! The call on its own in the process. -/

/-- No call holds a lock, and no commit is under way. -/
structure Process.Idle (p : Process) : Prop where
  controlLock : p.controlLock = none
  historyLock : p.historyLock = none
  blocking : p.blocking = []

/-- What a call does after its delivery: it takes both locks, commits and writes the views. -/
def callActions (i now : ℕ) : List Action :=
  [.lock i, .openHistory i now, .commit 0 true, .resume i, .publish i, .publish i, .publish i]

/-- The actions one after the other. -/
def Sys.run (env : Installation) (s : Sys) (actions : List Action) : Option Sys :=
  actions.foldlM (Sys.step env) s

section Run
variable {env : Installation} {s : Sys} {p : Process} {snapshot : SignedControlSnapshot}
  {relayId relaySpki : String} {now later : ℕ}

theorem receive_of_none
    (h : applyControlSnapshot env p.controlTrustState snapshot relayId relaySpki now later = none)
    {verified : VerifiedControlSnapshot} (ha : AtOrAbove p.controlTrustState verified)
    (hv : env.verify snapshot now = some verified) :
    p.receive env snapshot relayId relaySpki now later = p := by
  obtain ⟨⟨changed, proposed⟩, haccept⟩ := ha.accept_ok
  unfold applyControlSnapshot at h
  unfold Process.receive
  rw [hv] at h ⊢
  dsimp only at h ⊢
  split_ifs at h ⊢ with hok
  · rw [haccept] at h
    cases changed <;> cases h
  · rfl

theorem receive_of_some {proposed : ControlTrustState} {verified : VerifiedControlSnapshot}
    (hv : env.verify snapshot now = some verified)
    (h : applyControlSnapshot env p.controlTrustState snapshot relayId relaySpki now later =
      some (true, proposed)) :
    p.receive env snapshot relayId relaySpki now later =
        { p with calls := p.calls.push { snapshot := snapshot, verified := verified } } ∧
      ∃ accepted, p.controlTrustState.accept verified = .ok (true, accepted) ∧
        proposed = { accepted with cachedSnapshot := some snapshot } := by
  unfold applyControlSnapshot at h
  unfold Process.receive
  rw [hv] at h ⊢
  dsimp only at h ⊢
  split_ifs at h ⊢ with hok
  refine ⟨rfl, ?_⟩
  split at h
  · cases h
  · next accepted haccept =>
    have heq := Option.some.inj h
    exact ⟨accepted, haccept, (congrArg Prod.snd heq).symm⟩
  · cases h

/-- A call that goes through alone leaves its snapshot in the store and in the views. -/
theorem run_of_apply {proposed : ControlTrustState} {verified : VerifiedControlSnapshot}
    (hp : s.process = some p) (hidle : p.Idle) (hv : env.verify snapshot now = some verified)
    (h : applyControlSnapshot env p.controlTrustState snapshot relayId relaySpki now later =
      some (true, proposed)) (t : ℕ) :
    ∃ s' p', s.run env (.receive snapshot relayId relaySpki now later ::
        callActions p.calls.next t) = some s' ∧ s'.process = some p' ∧
      p'.controlTrustState = proposed ∧ p'.views = verified.views ∧
      s'.disk.store.controlState = some proposed ∧ s'.current = s.current ++ [verified] := by
  obtain ⟨hreceive, accepted, haccept, hproposed⟩ := receive_of_some hv h
  obtain ⟨hlock, hhistory, hblocking⟩ := hidle
  have hget : (p.calls.push { snapshot := snapshot, verified := verified }).get p.calls.next =
      some ⟨snapshot, verified, .verified⟩ := by
    rw [Slots.get_push, if_pos rfl]
  have hlt : p.calls.next <
      (p.calls.push { snapshot := snapshot, verified := verified }).next := by
    rw [Slots.next_push]
    omega
  subst hproposed
  simp [Sys.run, callActions, Sys.step, Sys.within, hp, hreceive, Process.lock, hget, hlock,
    haccept, Process.openHistory, Process.setCall, Slots.get_set_of_lt, Slots.next_set, hlt,
    hhistory, Sys.commit, hblocking, Process.complete, BlockingTask.applyImmediate, Sys.resume,
    Process.resume, Process.release, Process.publish, Views.write,
    VerifiedControlSnapshot.views]

/-- A snapshot that could be taken is, and a restart takes the cached one, exactly when every
configured Home is present. Otherwise the process stays as it was. -/
theorem accepts_iff_everyHomePresent {verified : VerifiedControlSnapshot}
    (hp : s.process = some p) (hidle : p.Idle)
    (h : Deliverable env p.controlTrustState snapshot verified relayId relaySpki now) :
    ((applyControlSnapshot env p.controlTrustState snapshot relayId relaySpki now later).isSome =
        true ↔ EveryHomePresent env verified.trust verified.payload.catalog later) ∧
    (¬ EveryHomePresent env verified.trust verified.payload.catalog later →
      s.step env (.receive snapshot relayId relaySpki now later) = some s) ∧
    (∀ proposed t, applyControlSnapshot env p.controlTrustState snapshot relayId relaySpki now
        later = some (true, proposed) →
      ∃ s' p', s.run env (.receive snapshot relayId relaySpki now later ::
          callActions p.calls.next t) = some s' ∧ s'.process = some p' ∧
        p'.controlTrustState = proposed ∧ p'.views = verified.views ∧
        s'.disk.store.controlState = some proposed ∧ s'.current = s.current ++ [verified]) ∧
    ∀ disk installed restart, Restartable env disk snapshot verified installed restart →
      ((∃ loaded, (loadInitial env disk installed restart {}).1 = .ok loaded ∧
          loaded.cached = some verified) ↔
        EveryHomePresent env verified.trust verified.payload.catalog restart) := by
  have happly : (applyControlSnapshot env p.controlTrustState snapshot relayId relaySpki now
      later).isSome = true ↔ EveryHomePresent env verified.trust verified.payload.catalog later :=
    isSome_applyControlSnapshot h
  refine ⟨happly, ?_, ?_, ?_⟩
  · intro habsent
    have hnone : applyControlSnapshot env p.controlTrustState snapshot relayId relaySpki now later =
        none := by
      rw [← Option.not_isSome_iff_eq_none, happly]
      exact habsent
    have hsame := receive_of_none hnone h.above h.verify
    show s.within (fun p => some (p.receive env snapshot relayId relaySpki now later)) = some s
    unfold Sys.within
    rw [hp, Option.bind_some, hsame, Option.map_some, ← hp]
  · intro proposed t hsome
    exact run_of_apply hp hidle h.verify hsome t
  · intro disk installed restart hrestart
    exact (loadInitial_iff hrestart).1

end Run

/-! The Server shows a Home only while it is connected. -/

/-- A Home that has disconnected has no entry in what the Server shows any Travel. -/
theorem not_shown_of_disconnected {homes : Server.HomeRegistry}
    (h : Server.Travels.HomesSound homes) {homeId : String} {sessionId : Uuid}
    (hsession : homes.sessions.lookup homeId = some sessionId) (codec : Codec)
    (credentials : List TravelCredential) (trust : Option DeploymentTrust) (now : ℕ) :
    ∀ shown ∈ (catalogForCredentials codec (homes.remove homeId sessionId).1.catalog credentials
      trust now).homes, shown.homeId ≠ homeId := by
  intro shown hshown heq
  obtain ⟨home, hhome, hfor⟩ := List.mem_filterMap.mp hshown
  have hperm := List.perm_insertionSort (fun left right : HomeCatalog =>
    stringBytes left.homeId ≤ stringBytes right.homeId)
    (homes.remove homeId sessionId).1.catalogs.values
  obtain ⟨id, hlookup⟩ := Table.mem_values.mp (hperm.mem_iff.mp hhome)
  have hid : home.homeId = id := (h.remove homeId sessionId id home hlookup).1
  have hsame := homeId_of_homeForCredentials hfor
  have hkey : id = homeId := by rw [← hid, ← hsame, heq]
  subst hkey
  unfold Server.HomeRegistry.remove at hlookup
  rw [if_neg (by simp [hsession])] at hlookup
  split_ifs at hlookup with hsome
  · rw [AList.lookup_erase] at hlookup
    cases hlookup
  · dsimp only at hlookup
    rw [hlookup] at hsome
    exact hsome rfl

/-- One configured Home that the trust document leaves out is missing as soon as it has
disconnected, whichever Homes are online. -/
theorem absent_of_disconnected {env : Installation} {homes : Server.HomeRegistry}
    (h : Server.Travels.HomesSound homes) {homeId : String} {sessionId : Uuid}
    (hsession : homes.sessions.lookup homeId = some sessionId) (hconfigured : homeId ∈ env.homes)
    {trust : DeploymentTrust} (hstatic : ∀ endpoint ∈ trust.homeEndpoints, endpoint.homeId ≠ homeId)
    (codec : Codec) (credentials : List TravelCredential) (now later : ℕ) :
    ¬ EveryHomePresent env trust (catalogForCredentials codec
      (homes.remove homeId sessionId).1.catalog credentials (some trust) now) later := by
  intro hall
  have hpresent := hall homeId hconfigured
  have hshown := not_shown_of_disconnected h hsession codec credentials (some trust) now
  have hfind : (catalogForCredentials codec (homes.remove homeId sessionId).1.catalog credentials
      (some trust) now).homes.find? (·.homeId == homeId) = none := by
    rw [List.find?_eq_none]
    intro shown hmem heq
    exact hshown shown hmem (beq_iff_eq.mp heq)
  unfold HomePresent at hpresent
  rw [hfind] at hpresent
  obtain ⟨endpoint, hmem, heq⟩ := hpresent
  exact hstatic endpoint hmem heq

/-! Two Homes, the second trusted through a credential that the first may issue. -/

def sampleEndpoint : HomeEndpointCredential where
  deploymentId := "deployment-1"
  credentialId := 1
  authorityId := "enrollment-1"
  authorityEpoch := 1
  enrollmentRequestId := 1
  homeId := "home-2"
  managementSpkiSha256 := samplePin '5'
  businessSpkiSha256 := samplePin '6'
  notBeforeUnixSecs := 500
  notAfterUnixSecs := 1200

def sampleTwoDeployment : DeploymentTrust :=
  { sampleDeployment with
    homeEnrollmentAuthorities := [⟨"enrollment-1", 1, "home-1", sampleKey 'e'⟩] }

/-- The first Home shows no credential, the second one its own. -/
def sampleHomes : Server.HomeRegistry :=
  let homes : Server.HomeRegistry := {}
  let homes := (homes.register { homeId := "home-1", homeAlias := "one" } 1).1
  (homes.register { homeId := "home-2", homeAlias := "two"
                    endpointCredential := some ⟨"enrollment-1", "0e", "e"⟩ } 2).1

def sampleTwoPayload (generation : ℕ) (homes : Server.HomeRegistry) : ControlSnapshotPayload :=
  { samplePayload generation with catalog := homes.catalog }

/-- The snapshot of generation six is from after the second Home has disconnected. -/
def sampleTwoInstallation : Installation where
  travelId := "travel-1"
  managementSpkiSha256 := samplePin '3'
  homes := ["home-1", "home-2"]
  deploymentRootPublicKey := sampleKey '0'
  codec := { sampleCodec with
    trust := fun payloadHex => if payloadHex = "7b7d" then some sampleTwoDeployment else none
    endpoint := fun payloadHex => if payloadHex = "0e" then some sampleEndpoint else none }
  controlSnapshot payloadHex :=
    if payloadHex = "05" then some (sampleTwoPayload 5 sampleHomes)
    else if payloadHex = "06" then some (sampleTwoPayload 6 (sampleHomes.remove "home-2" 2).1)
    else none

def sampleVerified (payloadHex : String) (payload : ControlSnapshotPayload) :
    VerifiedControlSnapshot where
  trust := sampleTwoDeployment
  trustDigestSha256 := sampleCodec.sha256 "7b7d"
  payload := payload
  digestSha256 := sampleCodec.sha256 payloadHex

theorem atOrAbove_fresh (verified : VerifiedControlSnapshot) (h : verified.payload.generation ≠ 0) :
    AtOrAbove {} verified := by
  refine ⟨rfl, by simp, Nat.zero_le _, by simp, Nat.zero_le _, fun _ => Nat.zero_le _, ?_⟩
  intro _ hgen
  exact absurd hgen h

theorem verify_sample :
    sampleTwoInstallation.verify (sampleSnapshot "05") 1000 =
        some (sampleVerified "05" (sampleTwoPayload 5 sampleHomes)) ∧
      sampleTwoInstallation.verify (sampleSnapshot "06") 1000 =
        some (sampleVerified "06" (sampleTwoPayload 6 (sampleHomes.remove "home-2" 2).1)) := by
  constructor <;> decide +kernel

theorem deliverable_both : Deliverable sampleTwoInstallation {} (sampleSnapshot "05")
    (sampleVerified "05" (sampleTwoPayload 5 sampleHomes)) "relay-1" (samplePin '4') 1000 := by
  refine ⟨verify_sample.1, by decide, by decide, ?_⟩
  exact atOrAbove_fresh _ (by decide)

theorem deliverable_one : Deliverable sampleTwoInstallation {} (sampleSnapshot "06")
    (sampleVerified "06" (sampleTwoPayload 6 (sampleHomes.remove "home-2" 2).1)) "relay-1"
    (samplePin '4') 1000 := by
  refine ⟨verify_sample.2, by decide, by decide, ?_⟩
  exact atOrAbove_fresh _ (by decide)

/-- A Travel that has taken nothing yet. -/
def sampleFresh : Process := { controlTrustState := {}, relayHistory := [], views :=
  ⟨sampleTwoDeployment, {}, {}⟩ }

/-- The first snapshot as it is cached. -/
def sampleCached : Disk where
  store.controlState := some
    { deploymentId := some "deployment-1", trustGeneration := 1
      trustDigestSha256 := some (sampleCodec.sha256 "7b7d"), signerEpoch := 1
      snapshotGeneration := 5, snapshotDigestSha256 := some (sampleCodec.sha256 "05")
      cachedSnapshot := some (sampleSnapshot "05") }

theorem restartable_both (restart : ℕ)
    (hv : sampleTwoInstallation.verify (sampleSnapshot "05") restart =
      some (sampleVerified "05" (sampleTwoPayload 5 sampleHomes)))
    (ht : sampleTwoInstallation.verifyTrust sampleTrust restart =
      some (sampleTwoDeployment, sampleCodec.sha256 "7b7d")) :
    Restartable sampleTwoInstallation sampleCached (sampleSnapshot "05")
      (sampleVerified "05" (sampleTwoPayload 5 sampleHomes)) sampleTrust restart := by
  refine ⟨hv, by decide, _, _, _, rfl, ht, rfl, by decide, rfl, rfl, ?_, ?_⟩
  · exact Nat.le_refl 1
  · intro _
    rfl

/-- With both Homes online the snapshot is taken. A restart takes it as well, until the credential
in it has expired. -/
theorem accepts_iff_everyHomePresent_both :
    (applyControlSnapshot sampleTwoInstallation {} (sampleSnapshot "05") "relay-1" (samplePin '4')
        1000 1000).isSome = true ∧
    (∃ loaded, (loadInitial sampleTwoInstallation sampleCached sampleTrust 1100 {}).1 =
      .ok loaded) ∧
    ¬ ∃ loaded, (loadInitial sampleTwoInstallation sampleCached sampleTrust 1250 {}).1 =
      .ok loaded ∧ loaded.cached = some (sampleVerified "05" (sampleTwoPayload 5 sampleHomes)) := by
  have hprocess : ({ disk := {}, process := some sampleFresh } : Sys).process = some sampleFresh :=
    rfl
  have hidle : sampleFresh.Idle := ⟨rfl, rfl, rfl⟩
  obtain ⟨happly, -, -, hrestart⟩ := accepts_iff_everyHomePresent hprocess hidle deliverable_both
  have hpresent : ∀ now, configuredHomesAreTrusted sampleTwoInstallation sampleTwoDeployment
      sampleHomes.catalog now = true → EveryHomePresent sampleTwoInstallation
        sampleTwoDeployment sampleHomes.catalog now :=
    fun now => configuredHomesAreTrusted_iff.mp
  refine ⟨happly.mpr (hpresent 1000 (by decide +kernel)), ?_, ?_⟩
  · have hearly := hrestart sampleCached sampleTrust 1100
      (restartable_both 1100 (by decide +kernel) (by decide +kernel))
    obtain ⟨loaded, hok, -⟩ := hearly.mpr (hpresent 1100 (by decide +kernel))
    exact ⟨loaded, hok⟩
  · have hlate := hrestart sampleCached sampleTrust 1250
      (restartable_both 1250 (by decide +kernel) (by decide +kernel))
    intro hok
    have htrusted := configuredHomesAreTrusted_iff.mpr (hlate.mp hok)
    exact absurd htrusted (by decide +kernel)

/-- The second Home disconnects, and the Travel takes no snapshot any more. -/
theorem not_accepts_disconnected :
    applyControlSnapshot sampleTwoInstallation {} (sampleSnapshot "06") "relay-1"
      (samplePin '4') 1000 1000 = none ∧
    ¬ ∀ env state snapshot verified relayId relaySpki now,
      Deliverable env state snapshot verified relayId relaySpki now →
      (∀ homeId ∈ env.homes, HomeTrusted env verified.trust now homeId) →
      (applyControlSnapshot env state snapshot relayId relaySpki now now).isSome = true := by
  have hnone : applyControlSnapshot sampleTwoInstallation {} (sampleSnapshot "06") "relay-1"
      (samplePin '4') 1000 1000 = none := by
    decide +kernel
  refine ⟨hnone, ?_⟩
  intro hall
  have htrusted : ∀ homeId ∈ sampleTwoInstallation.homes,
      HomeTrusted sampleTwoInstallation sampleTwoDeployment 1000 homeId := by
    intro homeId hmem
    rcases List.mem_pair.mp hmem with rfl | rfl
    · exact .inl ⟨_, List.mem_singleton_self _, rfl⟩
    · exact .inr ⟨⟨"enrollment-1", "0e", "e"⟩, sampleEndpoint, by decide +kernel, rfl⟩
  have hsome := hall _ _ _ _ _ _ _ deliverable_one htrusted
  rw [hnone] at hsome
  cases hsome

end FlowSplice.Control
