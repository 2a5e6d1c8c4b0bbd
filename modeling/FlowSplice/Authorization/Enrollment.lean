import FlowSplice.Authorization.Followers

/-! Enrollment requests are spent when a credential is imported: `import_credential` of
`server/src/authorization.rs`, over all runs of the Server on one state file. -/
namespace FlowSplice

def hexDigit (b : UInt8) : ℕ :=
  if isAsciiDigit b then b.toNat - 48
  else if isAsciiUppercase b then b.toNat - 55
  else b.toNat - 87

/-- `hex::decode`, of an even number of digits. -/
def decodeHex : List UInt8 → List ℕ
  | high :: low :: rest => (16 * hexDigit high + hexDigit low) :: decodeHex rest
  | _ => []

/-- The bytes that the fingerprint of the enrollment request denotes. -/
def TravelCredential.fingerprint (credential : TravelCredential) : List ℕ :=
  decodeHex (stringBytes credential.enrollmentRequestSha256)

/-- An import that succeeded: it added the credential, or it was a retry. -/
structure Accepted where
  credential : TravelCredential
  added : Bool
deriving DecidableEq, Repr

namespace ServerAuthorization
variable {config : ServerConfig} {server next : ServerAuthorization}

theorem withSnapshot_used {snapshot : TravelAuthorizationSnapshot}
    {authorities : List TrustedTravelAuthority}
    (h : server.withSnapshot config snapshot authorities = .ok next) :
    next.snapshot = snapshot ∧ next.usedEnrollmentRequests = server.usedEnrollmentRequests := by
  unfold withSnapshot at h
  split at h
  · obtain rfl := Except.ok.inj h
    exact ⟨rfl, rfl⟩
  · cases h

/-- The credentials and the spent requests are left alone. -/
def Retains (server next : ServerAuthorization) : Prop :=
  next.snapshot.credentials = server.snapshot.credentials ∧
    next.usedEnrollmentRequests = server.usedEnrollmentRequests

theorem withHomeEndpoint_retains {endpoint : SignedHomeEndpointCredential}
    (h : server.withHomeEndpoint config endpoint = .ok next) : server.Retains next := by
  obtain ⟨bumped, hbump, h⟩ := bind_ok h
  obtain ⟨authorities, -, h⟩ := bind_ok h
  obtain ⟨hsnapshot, hused⟩ := withSnapshot_used h
  have hcredentials : bumped.credentials = server.snapshot.credentials := by
    rw [TravelAuthorizationSnapshot.bump_eq hbump]
  exact ⟨by rw [hsnapshot, hcredentials], hused⟩

theorem importHomeEndpoint_retains {signed : SignedHomeEndpointCredential} {now : ℕ}
    (h : server.importHomeEndpoint config signed now = .ok (some next)) :
    server.Retains next := by
  obtain ⟨endpoint, -, h⟩ := bind_ok h
  split_ifs at h
  split at h
  · split_ifs at h
    cases h
  · obtain ⟨next', h', heq⟩ := map_ok h
    obtain rfl := Option.some.inj heq
    exact withHomeEndpoint_retains h'

theorem importBusinessHome_retains {endpoint : SignedHomeEndpointCredential}
    {grant : SignedHomeServiceGrant} {now : ℕ}
    (h : server.importBusinessHome config endpoint grant now = .ok (some next)) :
    server.Retains next := by
  obtain ⟨approved, -, h⟩ := bind_ok h
  split at h
  · split_ifs at h
    cases h
  · split_ifs at h
    obtain ⟨next', h', heq⟩ := bind_ok h
    obtain rfl := Option.some.inj (Except.ok.inj heq)
    have hretains := withHomeEndpoint_retains h'
    exact ⟨hretains.1, hretains.2⟩

theorem revokeFromHome_retains {credentialId : Uuid} {reason publisherHomeId : String} {now : ℕ}
    (h : server.revokeFromHome config credentialId reason publisherHomeId now = .ok (some next)) :
    server.Retains next := by
  obtain ⟨credential, -, h⟩ := bind_ok h
  obtain ⟨authority, -, h⟩ := bind_ok h
  split_ifs at h
  · cases h
  · obtain ⟨bumped, hbump, h⟩ := bind_ok h
    obtain ⟨next', h', heq⟩ := map_ok h
    obtain rfl := Option.some.inj heq
    obtain ⟨hsnapshot, hused⟩ := withSnapshot_used h'
    have hcredentials : bumped.credentials = server.snapshot.credentials := by
      rw [TravelAuthorizationSnapshot.bump_eq hbump]
    exact ⟨by rw [hsnapshot, hcredentials], hused⟩

theorem payload_of_verify {codec : AuthorizationCodec} {signed : SignedTravelCredential}
    {authority : TrustedTravelAuthority} {credential : TravelCredential}
    (h : signed.verify codec authority = some credential) :
    codec.credential signed.payloadHex = some credential := by
  unfold SignedTravelCredential.verify at h
  split_ifs at h
  have hkey := (Option.filter_eq_some_iff.mp h).1
  unfold SignedTravelCredential.verifyPublicKey at hkey
  split_ifs at hkey
  exact (Option.filter_eq_some_iff.mp hkey).1

/-- An import adds a credential with a new request, or finds its payload in the snapshot. -/
theorem importCredential_ok {signed : SignedTravelCredential} {publisherHomeId : String}
    {result : Option ServerAuthorization}
    (h : server.importCredential config signed publisherHomeId = .ok result) :
    ∃ credential, config.codec.credential signed.payloadHex = some credential ∧
      ((result = none ∧ ∃ existing ∈ server.snapshot.credentials,
        existing.payloadHex = signed.payloadHex) ∨
      ∃ next, result = some next ∧
        credential.enrollmentRequestSha256 ∉ server.usedEnrollmentRequests ∧
        next.snapshot.credentials = server.snapshot.credentials ++ [signed] ∧
        next.usedEnrollmentRequests =
          insert credential.enrollmentRequestSha256 server.usedEnrollmentRequests) := by
  obtain ⟨authority, -, h⟩ := bind_ok h
  split_ifs at h
  obtain ⟨credential, hcredential, h⟩ := bind_ok h
  refine ⟨credential, payload_of_verify (orError_ok hcredential), ?_⟩
  split at h
  · next existing hexisting =>
    split_ifs at h with hsame
    exact .inl ⟨(Except.ok.inj h).symm, existing, List.mem_of_find?_eq_some hexisting, hsame⟩
  · split_ifs at h with hused
    obtain ⟨bumped, hbump, h⟩ := bind_ok h
    obtain ⟨next', h', heq⟩ := bind_ok h
    obtain ⟨hsnapshot, -⟩ := withSnapshot_used h'
    have hcredentials : bumped.credentials = server.snapshot.credentials := by
      rw [TravelAuthorizationSnapshot.bump_eq hbump]
    refine .inr ⟨_, (Except.ok.inj heq).symm, hused, ?_, rfl⟩
    show next'.snapshot.credentials = _
    rw [hsnapshot, hcredentials]

end ServerAuthorization

theorem fromState_retains {config : ServerConfig} {authorities : List TrustedTravelAuthority}
    {state : PersistentAuthorizationState} {server : ServerAuthorization}
    (h : config.fromState authorities state = .ok server) :
    server.snapshot = state.snapshot ∧
      server.usedEnrollmentRequests = state.usedEnrollmentRequests := by
  unfold ServerConfig.fromState at h
  split_ifs at h
  split at h
  · cases h
  · split_ifs at h
    rw [← Except.ok.inj h]
    exact ⟨rfl, rfl⟩

theorem loadState_retains {config : ServerConfig} {file : AuthorizationFile}
    {server : ServerAuthorization} (h : loadState config file = .ok server) :
    server.snapshot.credentials = file.state.snapshot.credentials ∧
      server.usedEnrollmentRequests = file.state.usedEnrollmentRequests := by
  unfold loadState at h
  split_ifs at h
  all_goals
    obtain ⟨snapshot, hsnapshot, h⟩ := bind_ok h
    obtain ⟨authorities, -, h⟩ := bind_ok h
    obtain ⟨hserver, hused⟩ := fromState_retains h
  · refine ⟨?_, hused⟩
    rw [hserver, TravelAuthorizationSnapshot.bump_eq hsnapshot]
  · refine ⟨?_, hused⟩
    rw [hserver, ← Except.ok.inj hsnapshot]

namespace Enrollment

/-- A run of the Server, with the imports that succeeded. -/
structure History where
  sys : AuthorizationServer.Sys
  accepted : List Accepted := []

/-- What an action accepts: an import that returns `Ok`. -/
def accepts (config : ServerConfig) (s : AuthorizationServer.Sys) :
    AuthorizationServer.Action → Option Accepted
  | .importCredential signed publisherHomeId outcome =>
    s.server.bind fun server =>
      match server.importCredential config signed publisherHomeId with
      | .ok none => (config.codec.credential signed.payloadHex).map (⟨·, false⟩)
      | .ok (some next) =>
        if (next.persist config s.file outcome).1.isOk then
          (config.codec.credential signed.payloadHex).map (⟨·, true⟩)
        else none
      | .error _ => none
  | _ => none

/-- The Server of `AuthorizationServer.machine`, observed. -/
def machine (config : ServerConfig) (file : AuthorizationFile) :
    Machine History AuthorizationServer.Action where
  start := { sys := { file } }
  step h action := (h.sys.step config action).map fun sys =>
    ⟨sys, h.accepted ++ (accepts config h.sys action).toList⟩

/-- A fingerprint is accepted for one credential, and added once. -/
def SingleUse (accepted : List Accepted) : Prop :=
  accepted.Pairwise fun x y => x.credential.fingerprint = y.credential.fingerprint →
    y.credential.credentialId = x.credential.credentialId ∧ y.added = false

/-- An import spells a fingerprint that was accepted before as it was spelled then. -/
def spelled (config : ServerConfig) (h : History) : AuthorizationServer.Action → Prop
  | .importCredential signed _ _ =>
    ∀ credential ∈ config.codec.credential signed.payloadHex, ∀ x ∈ h.accepted,
      x.credential.fingerprint = credential.fingerprint →
        x.credential.enrollmentRequestSha256 = credential.enrollmentRequestSha256
  | _ => True

instance (config : ServerConfig) (h : History) (action : AuthorizationServer.Action) :
    Decidable (spelled config h action) :=
  match action with
  | .importCredential _ _ _ => inferInstanceAs (Decidable (∀ _ ∈ _, _))
  | .load _ | .stop | .importHomeEndpoint _ _ _ | .importBusinessHome _ _ _ _
  | .revokeFromHome _ _ _ _ _ => inferInstanceAs (Decidable True)

/-- The credentials of a snapshot, as they are decoded. -/
def payloads (config : ServerConfig) (credentials : List SignedTravelCredential) :
    List TravelCredential :=
  credentials.filterMap (config.codec.credential ·.payloadHex)

/-- What was accepted is there, and the requests of the credentials are spent, each on one. -/
structure Spent (config : ServerConfig) (accepted : List Accepted)
    (credentials : List SignedTravelCredential) (used : Finset String) : Prop where
  accepted : ∀ x ∈ accepted, x.credential ∈ payloads config credentials
  distinct : ((payloads config credentials).map (·.enrollmentRequestSha256)).Nodup
  used : ∀ credential ∈ payloads config credentials, credential.enrollmentRequestSha256 ∈ used

section
variable {config : ServerConfig} {accepted : List Accepted}
  {credentials : List SignedTravelCredential} {used : Finset String}
  {signed : SignedTravelCredential} {credential : TravelCredential}

theorem payloads_append (h : config.codec.credential signed.payloadHex = some credential) :
    payloads config (credentials ++ [signed]) = payloads config credentials ++ [credential] := by
  simp [payloads, h]

theorem mem_payloads {existing : SignedTravelCredential} (he : existing ∈ credentials)
    (hsame : existing.payloadHex = signed.payloadHex)
    (h : config.codec.credential signed.payloadHex = some credential) :
    credential ∈ payloads config credentials :=
  List.mem_filterMap.mpr ⟨existing, he, by rw [hsame, h]⟩

theorem Spent.accept {added : Bool} (hs : Spent config accepted credentials used)
    (h : credential ∈ payloads config credentials) :
    Spent config (accepted ++ [⟨credential, added⟩]) credentials used := by
  refine ⟨fun x hx => ?_, hs.distinct, hs.used⟩
  rcases List.mem_append.mp hx with hx | hx
  · exact hs.accepted x hx
  · rw [List.mem_singleton.mp hx]
    exact h

theorem Spent.append (hs : Spent config accepted credentials used)
    (h : config.codec.credential signed.payloadHex = some credential)
    (hnew : credential.enrollmentRequestSha256 ∉ used) :
    Spent config accepted (credentials ++ [signed])
      (insert credential.enrollmentRequestSha256 used) := by
  have hp : payloads config (credentials ++ [signed]) = payloads config credentials ++ [credential] :=
    payloads_append h
  constructor
  · intro x hx
    rw [hp]
    exact List.mem_append_left _ (hs.accepted x hx)
  · rw [hp, List.map_append, List.nodup_append]
    refine ⟨hs.distinct, List.nodup_singleton _, ?_⟩
    intro request hrequest other hother heq
    obtain ⟨x, hx, rfl⟩ := List.mem_map.mp hrequest
    have hother : other = credential.enrollmentRequestSha256 := List.mem_singleton.mp hother
    apply hnew
    rw [← hother, ← heq]
    exact hs.used x hx
  · intro x hx
    rw [hp] at hx
    rcases List.mem_append.mp hx with hx | hx
    · exact Finset.mem_insert_of_mem (hs.used x hx)
    · rw [List.mem_singleton.mp hx]
      exact Finset.mem_insert_self _ _

/-- One more import is of a new fingerprint, or of the credential that spent it. -/
theorem Spent.single_use {added : Bool}
    (hs : Spent config accepted credentials used) (hsingle : SingleUse accepted)
    (hspelled : ∀ x ∈ accepted, x.credential.fingerprint = credential.fingerprint →
      x.credential.enrollmentRequestSha256 = credential.enrollmentRequestSha256)
    (hnew : added = true ∧ credential.enrollmentRequestSha256 ∉ used ∨
      added = false ∧ credential ∈ payloads config credentials) :
    SingleUse (accepted ++ [⟨credential, added⟩]) := by
  unfold SingleUse
  rw [List.pairwise_append]
  refine ⟨hsingle, List.pairwise_singleton _ _, ?_⟩
  intro x hx y hy hfingerprint
  obtain rfl := List.mem_singleton.mp hy
  have hrequest := hspelled x hx hfingerprint
  rcases hnew with ⟨-, hunused⟩ | ⟨hretry, hmem⟩
  · have hused := hs.used _ (hs.accepted x hx)
    rw [hrequest] at hused
    exact absurd hused hunused
  · have heq := List.inj_on_of_nodup_map hs.distinct (hs.accepted x hx) hmem hrequest
    exact ⟨by rw [heq], hretry⟩

end

/-- Memory and the state file both show what was accepted. -/
structure Inv (config : ServerConfig) (h : History) : Prop where
  singleUse : SingleUse h.accepted
  server : ∀ server, h.sys.server = some server →
    Spent config h.accepted server.snapshot.credentials server.usedEnrollmentRequests ∧
      server.snapshot.credentials ⊆ h.sys.file.state.snapshot.credentials
  file : Spent config h.accepted h.sys.file.state.snapshot.credentials
    h.sys.file.state.usedEnrollmentRequests

section
variable {config : ServerConfig} {s s' : AuthorizationServer.Sys} {accepted : List Accepted}

/-- The state file is replaced by that of a Server that has what was accepted. -/
theorem Inv.write {server : ServerAuthorization} (hi : Inv config ⟨s, accepted⟩)
    (hs : Spent config accepted server.snapshot.credentials server.usedEnrollmentRequests)
    (hm : ∀ running, s.server = some running →
      running.snapshot.credentials ⊆ server.snapshot.credentials) :
    Inv config ⟨{ s with file := { state := server.state } }, accepted⟩ := by
  refine ⟨hi.singleUse, fun running hrunning => ?_, hs⟩
  exact ⟨(hi.server running hrunning).1, hm running hrunning⟩

/-- A Server takes over what is in the state file. -/
theorem Inv.adopt {server : ServerAuthorization} {published : List TravelAuthorizationSnapshot}
    (hi : Inv config ⟨s, accepted⟩)
    (hs : Spent config accepted server.snapshot.credentials server.usedEnrollmentRequests)
    (hm : server.snapshot.credentials ⊆ s.file.state.snapshot.credentials) :
    Inv config ⟨{ s with server := some server, published := published }, accepted⟩ := by
  refine ⟨hi.singleUse, fun running hrunning => ?_, hi.file⟩
  obtain rfl := Option.some.inj hrunning
  exact ⟨hs, hm⟩

theorem Inv.stop {published : List TravelAuthorizationSnapshot} (hi : Inv config ⟨s, accepted⟩) :
    Inv config ⟨⟨s.file, none, published⟩, accepted⟩ :=
  ⟨hi.singleUse, fun _ hrunning => (by cases hrunning), hi.file⟩

theorem load_inv {outcome : StoreOutcome} (hi : Inv config ⟨s, accepted⟩)
    (h : s.load config outcome = some s') : Inv config ⟨s', accepted⟩ := by
  unfold AuthorizationServer.Sys.load loadWithTrust at h
  cases hserver : s.server with
  | some running => simp [hserver] at h
  | none =>
    cases hload : loadState config s.file with
    | error error =>
      simp only [hserver, hload, Option.some.injEq] at h
      rw [← h]
      exact hi.stop
    | ok server =>
      obtain ⟨hcredentials, hused⟩ := loadState_retains hload
      have hs : Spent config accepted server.snapshot.credentials
          server.usedEnrollmentRequests := by
        rw [hcredentials, hused]
        exact hi.file
      have hwritten := hi.write hs fun running hrunning => by simp [hserver] at hrunning
      by_cases hlegacy : s.file.legacy = true
      · rcases server.persist_cases config s.file outcome with hp | ⟨error, hp | hp⟩ <;>
          simp only [hserver, hload, hlegacy, hp, if_true, Except.map, Option.some.injEq] at h <;>
          rw [← h]
        · exact hwritten.adopt hs (List.Subset.refl _)
        · exact hwritten.stop
        · exact hi.stop
      · have hlegacy : s.file.legacy = false := by simpa using hlegacy
        simp only [hserver, hload, hlegacy, Bool.false_eq_true, if_false, Option.some.injEq] at h
        rw [← h]
        exact hi.adopt hs (by rw [hcredentials]; exact List.Subset.refl _)

/-- An operation that leaves the credentials alone. -/
theorem operate_inv {propose : ServerAuthorization →
      Except AuthorizationError (Option ServerAuthorization)} {outcome : StoreOutcome}
    (hpropose : ∀ server next, propose server = .ok (some next) → server.Retains next)
    (hi : Inv config ⟨s, accepted⟩) (h : s.operate config propose outcome = some s') :
    Inv config ⟨s', accepted⟩ := by
  obtain ⟨server, hserver, rfl⟩ := Option.map_eq_some_iff.mp h
  split
  · next next hnext =>
    obtain ⟨hcredentials, hused⟩ := hpropose server next hnext
    obtain ⟨hs, -⟩ := hi.server server hserver
    rw [← hcredentials, ← hused] at hs
    have hwritten := hi.write hs fun running hrunning => by
      obtain rfl := Option.some.inj (hserver.symm.trans hrunning)
      rw [hcredentials]
      exact List.Subset.refl _
    rcases next.persist_cases config s.file outcome with hp | ⟨error, hp | hp⟩ <;> rw [hp]
    · exact hwritten.adopt hs (List.Subset.refl _)
    · exact hwritten
    · exact hi
  · exact hi

/-- An import keeps the invariant, with what it accepts. -/
theorem importCredential_inv {signed : SignedTravelCredential} {publisherHomeId : String}
    {outcome : StoreOutcome} (hi : Inv config ⟨s, accepted⟩)
    (hspelled : spelled config ⟨s, accepted⟩ (.importCredential signed publisherHomeId outcome))
    (h : s.operate config (·.importCredential config signed publisherHomeId) outcome = some s') :
    Inv config ⟨s', accepted ++
      (accepts config s (.importCredential signed publisherHomeId outcome)).toList⟩ := by
  obtain ⟨server, hserver, rfl⟩ := Option.map_eq_some_iff.mp h
  obtain ⟨hs, hsubset⟩ := hi.server server hserver
  cases himport : server.importCredential config signed publisherHomeId with
  | error error => simpa [accepts, hserver, himport] using hi
  | ok result =>
    obtain ⟨credential, hdecoded, hresult⟩ := ServerAuthorization.importCredential_ok himport
    have hspelled := hspelled credential hdecoded
    rcases hresult with ⟨rfl, existing, hexisting, hsame⟩ | ⟨next, rfl, hunused, hcredentials, hused⟩
    · have hmem := mem_payloads hexisting hsame hdecoded
      have hfile := mem_payloads (hsubset hexisting) hsame hdecoded
      have haccepts : accepts config s (.importCredential signed publisherHomeId outcome) =
          some ⟨credential, false⟩ := by
        simp [accepts, hserver, himport, hdecoded]
      simp only [haccepts, himport, Option.toList_some]
      constructor
      · exact hs.single_use hi.singleUse hspelled (.inr ⟨rfl, hmem⟩)
      · intro running hrunning
        obtain rfl := Option.some.inj (hserver.symm.trans hrunning)
        exact ⟨hs.accept hmem, hsubset⟩
      · exact hi.file.accept hfile
    · have hnext := hs.append hdecoded hunused
      rw [← hcredentials, ← hused] at hnext
      have hwritten := hi.write hnext fun running hrunning => by
        obtain rfl := Option.some.inj (hserver.symm.trans hrunning)
        rw [hcredentials]
        exact List.subset_append_left _ _
      have hmem : credential ∈ payloads config next.snapshot.credentials := by
        rw [hcredentials, payloads_append hdecoded]
        exact List.mem_append_right _ List.mem_cons_self
      have haccepts : accepts config s (.importCredential signed publisherHomeId outcome) =
          if (next.persist config s.file outcome).1.isOk then some ⟨credential, true⟩
          else none := by
        simp [accepts, hserver, himport, hdecoded]
      rw [haccepts]
      rcases next.persist_cases config s.file outcome with hp | ⟨error, hp | hp⟩ <;>
        simp only [himport, hp, Except.isOk, Except.toBool, if_true, Option.toList_some]
      · constructor
        · exact hs.single_use hi.singleUse hspelled (.inl ⟨rfl, hunused⟩)
        · intro running hrunning
          obtain rfl := Option.some.inj hrunning
          exact ⟨hnext.accept hmem, List.Subset.refl _⟩
        · exact hnext.accept hmem
      · simpa using hwritten
      · simpa using hi

end

theorem step_inv {config : ServerConfig} {file : AuthorizationFile} {h h' : History}
    {a : AuthorizationServer.Action} (hi : Inv config h) (hspelled : spelled config h a)
    (hs : (machine config file).step h a = some h') : Inv config h' := by
  obtain ⟨s', hstep, rfl⟩ := Option.map_eq_some_iff.mp hs
  cases a with
  | load outcome => simpa [accepts] using load_inv hi hstep
  | stop =>
    obtain ⟨server, -, rfl⟩ := Option.map_eq_some_iff.mp hstep
    simpa [accepts] using hi.stop
  | importHomeEndpoint signed now outcome =>
    have hinv := operate_inv (fun _ _ => ServerAuthorization.importHomeEndpoint_retains) hi hstep
    simpa [accepts] using hinv
  | importBusinessHome endpoint grant now outcome =>
    have hinv := operate_inv (fun _ _ => ServerAuthorization.importBusinessHome_retains) hi hstep
    simpa [accepts] using hinv
  | revokeFromHome credentialId reason publisherHomeId now outcome =>
    have hinv := operate_inv (fun _ _ => ServerAuthorization.revokeFromHome_retains) hi hstep
    simpa [accepts] using hinv
  | importCredential signed publisherHomeId outcome => exact importCredential_inv hi hspelled hstep

/-- Where fingerprints are spelled as they were before, each is used for one credential. -/
theorem single_use_of_spelled (config : ServerConfig) (file : AuthorizationFile)
    (hfresh : file.state.snapshot.credentials = []) (h : History)
    (hr : (machine config file).ReachableWhere (spelled config) h) : SingleUse h.accepted := by
  have hinit : Inv config (machine config file).start := by
    refine ⟨List.Pairwise.nil, fun _ hserver => (by cases hserver), ?_⟩
    have hnone : payloads config file.state.snapshot.credentials = [] := by
      rw [hfresh]
      rfl
    constructor
    · exact fun _ hx => (by cases hx)
    · simp [machine, hnone]
    · simp [machine, hnone]
  have hinv := hr.invariant hinit fun t a t' _ hi hok hs => step_inv hi hok hs
  exact hinv.singleUse

/-- Two credentials whose requests are one fingerprint in lower and in upper case. -/
def spellingServer : ServerConfig where
  codec :=
    { sampleServer.codec with
      credential := fun payloadHex =>
        if payloadHex = "c1" then
          some { sampleCredential with enrollmentRequestSha256 := samplePin 'a' }
        else if payloadHex = "c2" then
          some { sampleCredential with
            credentialId := 2, enrollmentRequestSha256 := samplePin 'A' }
        else none }
  trust := sampleDeployment
  encodedLen _ := 1000

/-- A credential is imported, revoked, and sent again after a restart. -/
theorem single_use_of_spelled_retry :
    ∃ h, (machine spellingServer { state := {} }).execWhere (spelled spellingServer)
      [.load .stored, .importCredential ⟨"authority-1", "c1", "b"⟩ "home-1" .stored,
        .revokeFromHome 1 "lost" "home-1" 1000 .stored, .stop, .load .stored,
        .importCredential ⟨"authority-1", "c1", "b"⟩ "home-1" .stored] = some h ∧
    h.accepted.map (·.added) = [true, false] ∧ SingleUse h.accepted := by
  have hrun : ((machine spellingServer { state := {} }).execWhere (spelled spellingServer)
      [.load .stored, .importCredential ⟨"authority-1", "c1", "b"⟩ "home-1" .stored,
        .revokeFromHome 1 "lost" "home-1" 1000 .stored, .stop, .load .stored,
        .importCredential ⟨"authority-1", "c1", "b"⟩ "home-1" .stored]).map
      (fun h => h.accepted.map (·.added)) = some [true, false] := by
    decide +kernel
  obtain ⟨h, hexec, heq⟩ := Option.map_eq_some_iff.mp hrun
  exact ⟨h, hexec, heq, single_use_of_spelled spellingServer { state := {} } rfl h
    (Machine.reachableWhere_of_execWhere hexec)⟩

/-- The request of a revoked credential is used again in upper case. -/
theorem not_single_use_of_reachable :
    ¬ ∀ (config : ServerConfig) (file : AuthorizationFile) (h : History),
      file.state.snapshot.credentials = [] → (machine config file).Reachable h →
      SingleUse h.accepted := by
  intro hall
  have hrun : ((machine spellingServer { state := {} }).exec
      [.load .stored, .importCredential ⟨"authority-1", "c1", "b"⟩ "home-1" .stored,
        .revokeFromHome 1 "lost" "home-1" 1000 .stored,
        .importCredential ⟨"authority-1", "c2", "b"⟩ "home-1" .stored]).map
      (fun h => h.accepted.map fun x =>
        (x.credential.fingerprint, x.credential.credentialId, x.added)) =
      some [(List.replicate 32 170, 1, true), (List.replicate 32 170, 2, true)] := by
    decide +kernel
  obtain ⟨h, hexec, heq⟩ := Option.map_eq_some_iff.mp hrun
  have hsingle := hall spellingServer { state := {} } h rfl (Machine.reachable_of_exec hexec)
  have hpairs := List.pairwise_map (f := fun x : Accepted =>
    (x.credential.fingerprint, x.credential.credentialId, x.added))
    (R := fun x y => x.1 = y.1 → y.2.1 = x.2.1 ∧ y.2.2 = false) |>.mpr hsingle
  rw [heq] at hpairs
  have hsecond := List.rel_of_pairwise_cons hpairs List.mem_cons_self rfl
  simp at hsecond

end Enrollment

end FlowSplice
