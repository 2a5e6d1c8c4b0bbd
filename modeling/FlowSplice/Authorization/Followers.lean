import FlowSplice.Lib.HighWater
import FlowSplice.Authorization.Server

/-! What the Server publishes rises, and is accepted by every follower. The snapshot of the
Server and its state file refine a high-water mark with a durable copy. -/
namespace FlowSplice

/-- A snapshot is followed by itself, and by those of a later generation that revoke no less. -/
instance : LE TravelAuthorizationSnapshot where
  le a b := a = b ∨ a.generation < b.generation ∧ a.revoked ⊆ b.revoked

namespace TravelAuthorizationSnapshot
variable {a b : TravelAuthorizationSnapshot}

theorem le_iff : a ≤ b ↔ a = b ∨ a.generation < b.generation ∧ a.revoked ⊆ b.revoked := Iff.rfl

instance : Preorder TravelAuthorizationSnapshot where
  le_refl _ := .inl rfl
  le_trans a b c hab hbc := by
    rcases hab with rfl | ⟨hg, hr⟩
    · exact hbc
    · rcases hbc with rfl | ⟨hg', hr'⟩
      · exact .inr ⟨hg, hr⟩
      · exact .inr ⟨Nat.lt_trans hg hg', hr.trans hr'⟩

theorem revoked_subset_of_le (h : a ≤ b) : a.revoked ⊆ b.revoked := by
  rcases h with rfl | ⟨-, h⟩
  · exact Finset.Subset.refl _
  · exact h

theorem generation_le_of_le (h : a ≤ b) : a.generation ≤ b.generation := by
  rcases h with rfl | ⟨h, -⟩
  · exact Nat.le_refl _
  · exact Nat.le_of_lt h

theorem eq_of_le_of_generation_eq (h : a ≤ b) (hg : a.generation = b.generation) : a = b := by
  rcases h with rfl | ⟨h, -⟩
  · rfl
  · omega

theorem bump_eq {snapshot bumped : TravelAuthorizationSnapshot} (h : snapshot.bump = .ok bumped) :
    bumped = { snapshot with generation := snapshot.generation + 1 } := by
  unfold bump at h
  split_ifs at h
  exact (Except.ok.inj h).symm

/-- What is added to a bumped snapshot comes after it. -/
theorem le_of_bump {snapshot bumped next : TravelAuthorizationSnapshot}
    (h : snapshot.bump = .ok bumped) (hg : next.generation = bumped.generation)
    (hr : bumped.revocations <+: next.revocations) : snapshot ≤ next := by
  obtain rfl := bump_eq h
  refine .inr ⟨by rw [hg]; exact Nat.lt_succ_self _, fun id hid => ?_⟩
  obtain ⟨revocation, hm, rfl⟩ := List.mem_map.mp (List.mem_toFinset.mp hid)
  exact List.mem_toFinset.mpr (List.mem_map_of_mem (hr.subset hm))

end TravelAuthorizationSnapshot

theorem bind_ok {ε α β : Type} {x : Except ε α} {f : α → Except ε β} {b : β}
    (h : x >>= f = .ok b) : ∃ a, x = .ok a ∧ f a = .ok b := by
  cases x with
  | error e => cases h
  | ok a => exact ⟨a, rfl, h⟩

theorem map_ok {ε α β : Type} {x : Except ε α} {f : α → β} {b : β} (h : f <$> x = .ok b) :
    ∃ a, x = .ok a ∧ f a = b := by
  cases x with
  | error e => cases h
  | ok a => exact ⟨a, rfl, Except.ok.inj h⟩

theorem orError_ok {ε α : Type*} {error : ε} {x : Option α} {a : α}
    (h : orError error x = .ok a) : x = some a := by
  cases x with
  | none => cases h
  | some b => rw [Except.ok.inj h]

namespace ServerAuthorization
variable {config : ServerConfig} {server next : ServerAuthorization}

/-- The Server holds its snapshot verified against the authorities it delegates to. -/
def Sound (config : ServerConfig) (server : ServerAuthorization) : Prop :=
  config.authorities server.snapshot = some server.authorities ∧
    config.verify server.snapshot server.authorities = some server.verified

/-- What an operation may propose. -/
def Advances (config : ServerConfig) (server next : ServerAuthorization) : Prop :=
  next.Sound config ∧ server.snapshot ≤ next.snapshot

theorem withSnapshot_ok {snapshot : TravelAuthorizationSnapshot}
    {authorities : List TrustedTravelAuthority}
    (h : server.withSnapshot config snapshot authorities = .ok next) :
    next.snapshot = snapshot ∧ next.authorities = authorities ∧
      config.verify snapshot authorities = some next.verified := by
  unfold withSnapshot at h
  split at h
  · next verified hv =>
    obtain rfl := Except.ok.inj h
    exact ⟨rfl, rfl, hv⟩
  · cases h

theorem withHomeEndpoint_advances {endpoint : SignedHomeEndpointCredential}
    (h : server.withHomeEndpoint config endpoint = .ok next) : server.Advances config next := by
  obtain ⟨bumped, hbump, h⟩ := bind_ok h
  obtain ⟨authorities, hauth, h⟩ := bind_ok h
  obtain ⟨hsnap, hauths, hverify⟩ := withSnapshot_ok h
  refine ⟨⟨?_, ?_⟩, ?_⟩
  · rw [hsnap, hauths]
    exact orError_ok hauth
  · rw [hsnap, hauths]
    exact hverify
  · rw [hsnap]
    exact TravelAuthorizationSnapshot.le_of_bump hbump rfl (List.prefix_refl _)

/-- A snapshot with the same Home endpoints is verified against the same authorities. -/
theorem withSnapshot_advances {bumped snapshot : TravelAuthorizationSnapshot}
    (hs : server.Sound config) (hbump : server.snapshot.bump = .ok bumped)
    (h : server.withSnapshot config snapshot server.authorities = .ok next)
    (hg : snapshot.generation = bumped.generation)
    (hr : bumped.revocations <+: snapshot.revocations)
    (he : snapshot.homeEndpointCredentials = bumped.homeEndpointCredentials) :
    server.Advances config next := by
  obtain ⟨hsnap, hauths, hverify⟩ := withSnapshot_ok h
  obtain rfl := TravelAuthorizationSnapshot.bump_eq hbump
  refine ⟨⟨?_, ?_⟩, ?_⟩
  · rw [hsnap, hauths, ← hs.1]
    simp [ServerConfig.authorities, he]
  · rw [hsnap, hauths]
    exact hverify
  · rw [hsnap]
    exact TravelAuthorizationSnapshot.le_of_bump hbump hg hr

theorem importHomeEndpoint_advances {signed : SignedHomeEndpointCredential} {now : ℕ}
    (h : server.importHomeEndpoint config signed now = .ok (some next)) :
    server.Advances config next := by
  obtain ⟨endpoint, -, h⟩ := bind_ok h
  split_ifs at h
  split at h
  · split_ifs at h
    cases h
  · obtain ⟨next', h', heq⟩ := map_ok h
    obtain rfl := Option.some.inj heq
    exact withHomeEndpoint_advances h'

theorem importBusinessHome_advances {endpoint : SignedHomeEndpointCredential}
    {grant : SignedHomeServiceGrant} {now : ℕ}
    (h : server.importBusinessHome config endpoint grant now = .ok (some next)) :
    server.Advances config next := by
  obtain ⟨approved, -, h⟩ := bind_ok h
  split at h
  · split_ifs at h
    cases h
  · split_ifs at h
    obtain ⟨next', h', heq⟩ := bind_ok h
    obtain rfl := Option.some.inj (Except.ok.inj heq)
    have hadv := withHomeEndpoint_advances h'
    exact ⟨hadv.1, hadv.2⟩

theorem revokeFromHome_advances {credentialId : Uuid} {reason publisherHomeId : String} {now : ℕ}
    (hs : server.Sound config)
    (h : server.revokeFromHome config credentialId reason publisherHomeId now = .ok (some next)) :
    server.Advances config next := by
  obtain ⟨credential, -, h⟩ := bind_ok h
  obtain ⟨authority, -, h⟩ := bind_ok h
  split_ifs at h
  · cases h
  · obtain ⟨bumped, hbump, h⟩ := bind_ok h
    obtain ⟨next', h', heq⟩ := map_ok h
    obtain rfl := Option.some.inj heq
    exact withSnapshot_advances hs hbump h' rfl (List.prefix_append _ _) rfl

/-- The revocations are left alone. -/
def KeepsRevocations (server next : ServerAuthorization) : Prop :=
  next.snapshot.revocations = server.snapshot.revocations

theorem withHomeEndpoint_keeps {endpoint : SignedHomeEndpointCredential}
    (h : server.withHomeEndpoint config endpoint = .ok next) : server.KeepsRevocations next := by
  obtain ⟨bumped, hbump, h⟩ := bind_ok h
  obtain ⟨authorities, -, h⟩ := bind_ok h
  obtain ⟨hsnapshot, -, -⟩ := withSnapshot_ok h
  unfold KeepsRevocations
  rw [hsnapshot, TravelAuthorizationSnapshot.bump_eq hbump]

theorem importHomeEndpoint_keeps {signed : SignedHomeEndpointCredential} {now : ℕ}
    (h : server.importHomeEndpoint config signed now = .ok (some next)) :
    server.KeepsRevocations next := by
  obtain ⟨endpoint, -, h⟩ := bind_ok h
  split_ifs at h
  split at h
  · split_ifs at h
    cases h
  · obtain ⟨next', h', heq⟩ := map_ok h
    obtain rfl := Option.some.inj heq
    exact withHomeEndpoint_keeps h'

theorem importBusinessHome_keeps {endpoint : SignedHomeEndpointCredential}
    {grant : SignedHomeServiceGrant} {now : ℕ}
    (h : server.importBusinessHome config endpoint grant now = .ok (some next)) :
    server.KeepsRevocations next := by
  obtain ⟨approved, -, h⟩ := bind_ok h
  split at h
  · split_ifs at h
    cases h
  · split_ifs at h
    obtain ⟨next', h', heq⟩ := bind_ok h
    have hkeeps := withHomeEndpoint_keeps h'
    rw [← Option.some.inj (Except.ok.inj heq)]
    exact hkeeps

theorem importCredential_keeps {signed : SignedTravelCredential} {publisherHomeId : String}
    (h : server.importCredential config signed publisherHomeId = .ok (some next)) :
    server.KeepsRevocations next := by
  obtain ⟨authority, -, h⟩ := bind_ok h
  split_ifs at h
  obtain ⟨credential, -, h⟩ := bind_ok h
  split at h
  · split_ifs at h
    cases h
  · split_ifs at h
    obtain ⟨bumped, hbump, h⟩ := bind_ok h
    obtain ⟨next', h', heq⟩ := bind_ok h
    obtain ⟨hsnapshot, -, -⟩ := withSnapshot_ok h'
    rw [← Option.some.inj (Except.ok.inj heq)]
    unfold KeepsRevocations
    rw [hsnapshot, TravelAuthorizationSnapshot.bump_eq hbump]

theorem mem_revoked_iff {snapshot : TravelAuthorizationSnapshot} {credentialId : Uuid} :
    credentialId ∈ snapshot.revoked ↔
      snapshot.revocations.any (·.credentialId == credentialId) = true := by
  simp [TravelAuthorizationSnapshot.revoked]

theorem revokeFromHome_unchanged {credentialId : Uuid} {reason publisherHomeId : String} {now : ℕ}
    (h : server.revokeFromHome config credentialId reason publisherHomeId now = .ok none) :
    credentialId ∈ server.snapshot.revoked := by
  obtain ⟨credential, -, h⟩ := bind_ok h
  obtain ⟨authority, -, h⟩ := bind_ok h
  split_ifs at h with hforeign hrevoked
  · exact mem_revoked_iff.mpr hrevoked
  · obtain ⟨bumped, -, h⟩ := bind_ok h
    obtain ⟨next', -, heq⟩ := map_ok h
    cases heq

theorem revokeFromHome_revokes {credentialId : Uuid} {reason publisherHomeId : String} {now : ℕ}
    (h : server.revokeFromHome config credentialId reason publisherHomeId now = .ok (some next)) :
    credentialId ∉ server.snapshot.revoked ∧
      next.snapshot.revoked = insert credentialId server.snapshot.revoked := by
  obtain ⟨credential, -, h⟩ := bind_ok h
  obtain ⟨authority, -, h⟩ := bind_ok h
  split_ifs at h with hforeign hrevoked
  · cases h
  · obtain ⟨bumped, hbump, h⟩ := bind_ok h
    obtain ⟨next', h', heq⟩ := map_ok h
    obtain rfl := Option.some.inj heq
    obtain ⟨hsnapshot, -, -⟩ := withSnapshot_ok h'
    have hbumped : bumped.revocations = server.snapshot.revocations := by
      rw [TravelAuthorizationSnapshot.bump_eq hbump]
    constructor
    · rw [mem_revoked_iff]
      exact hrevoked
    · unfold TravelAuthorizationSnapshot.revoked
      rw [hsnapshot]
      ext id
      simp [hbumped, eq_comm]

theorem importCredential_advances {signed : SignedTravelCredential} {publisherHomeId : String}
    (hs : server.Sound config)
    (h : server.importCredential config signed publisherHomeId = .ok (some next)) :
    server.Advances config next := by
  obtain ⟨authority, -, h⟩ := bind_ok h
  split_ifs at h
  obtain ⟨credential, -, h⟩ := bind_ok h
  split at h
  · split_ifs at h
    cases h
  · split_ifs at h
    obtain ⟨bumped, hbump, h⟩ := bind_ok h
    obtain ⟨next', h', heq⟩ := bind_ok h
    obtain rfl := Option.some.inj (Except.ok.inj heq)
    have hadv := withSnapshot_advances hs hbump h' rfl (List.prefix_refl _) rfl
    exact ⟨hadv.1, hadv.2⟩

/-- A write that succeeds has written the state; one that fails may have. -/
theorem persist_cases (config : ServerConfig) (server : ServerAuthorization)
    (file : AuthorizationFile) (outcome : StoreOutcome) :
    server.persist config file outcome = (.ok (), { state := server.state }) ∨
    ∃ error, server.persist config file outcome = (.error error, { state := server.state }) ∨
      server.persist config file outcome = (.error error, file) := by
  unfold persist
  split_ifs
  · exact .inr ⟨_, .inr rfl⟩
  · cases outcome with
    | stored => exact .inl rfl
    | replaced => exact .inr ⟨_, .inl rfl⟩
    | unchanged => exact .inr ⟨_, .inr rfl⟩

end ServerAuthorization

theorem fromState_sound {config : ServerConfig} {authorities : List TrustedTravelAuthority}
    {state : PersistentAuthorizationState} {server : ServerAuthorization}
    (hauth : config.authorities state.snapshot = some authorities)
    (h : config.fromState authorities state = .ok server) :
    server.snapshot = state.snapshot ∧ server.Sound config := by
  unfold ServerConfig.fromState at h
  split_ifs at h
  split at h
  · cases h
  · next verified hverified =>
    split_ifs at h
    obtain rfl := Except.ok.inj h
    exact ⟨rfl, hauth, hverified⟩

theorem loadState_sound {config : ServerConfig} {file : AuthorizationFile}
    {server : ServerAuthorization} (h : loadState config file = .ok server) :
    server.Sound config ∧ (file.legacy = false → server.snapshot = file.state.snapshot) := by
  unfold loadState at h
  split_ifs at h with hgrants hlegacy
  · obtain ⟨snapshot, -, h⟩ := bind_ok h
    obtain ⟨authorities, hauth, h⟩ := bind_ok h
    exact ⟨(fromState_sound (orError_ok hauth) h).2, fun hf => by simp [hlegacy] at hf⟩
  · obtain ⟨snapshot, hsnapshot, h⟩ := bind_ok h
    obtain rfl := Except.ok.inj hsnapshot
    obtain ⟨authorities, hauth, h⟩ := bind_ok h
    obtain ⟨hsnap, hsound⟩ := fromState_sound (orError_ok hauth) h
    exact ⟨hsound, fun _ => hsnap⟩

/-- A load takes the snapshot of the file, or writes a later one for a legacy file. -/
theorem loadWithTrust_cases (config : ServerConfig) (file : AuthorizationFile)
    (outcome : StoreOutcome) :
    (∃ error, loadWithTrust config file outcome = (.error error, file)) ∨
    ∃ server : ServerAuthorization, server.Sound config ∧
      ((file.legacy = false ∧ server.snapshot = file.state.snapshot ∧
        loadWithTrust config file outcome = (.ok server, file)) ∨
      (file.legacy = true ∧
        (loadWithTrust config file outcome = (.ok server, { state := server.state }) ∨
        ∃ error, loadWithTrust config file outcome =
          (.error error, { state := server.state })))) := by
  unfold loadWithTrust
  split
  · exact .inl ⟨_, rfl⟩
  · next server hloaded =>
    obtain ⟨hsound, hsnap⟩ := loadState_sound hloaded
    by_cases hlegacy : file.legacy = true
    · rw [if_pos hlegacy]
      rcases server.persist_cases config file outcome with hp | ⟨error, hp | hp⟩ <;> rw [hp]
      · exact .inr ⟨server, hsound, .inr ⟨hlegacy, .inl rfl⟩⟩
      · exact .inr ⟨server, hsound, .inr ⟨hlegacy, .inr ⟨error, rfl⟩⟩⟩
      · exact .inl ⟨error, rfl⟩
    · rw [if_neg hlegacy]
      have hlegacy : file.legacy = false := by simpa using hlegacy
      exact .inr ⟨server, hsound, .inl ⟨hlegacy, hsnap hlegacy, rfl⟩⟩

/-- What Relay and Home do with a snapshot: `apply_authorization_snapshot` up to its write. -/
def follow (config : ServerConfig) (cache : AuthorizationCache)
    (snapshot : TravelAuthorizationSnapshot) : Option AuthorizationCache :=
  ((config.authorities snapshot).bind (config.verify snapshot)).bind cache.accept

namespace AuthorizationServer.Sys
variable {config : ServerConfig} {file : AuthorizationFile} {s s' : Sys} {a : Action}

/-- The Server is sound, and so is what was published. -/
structure Kept (config : ServerConfig) (s : Sys) : Prop where
  server : ∀ server, s.server = some server → server.Sound config
  published : ∀ snapshot ∈ s.published, ∃ server : ServerAuthorization,
    server.Sound config ∧ server.snapshot = snapshot

/-- The snapshots published, in memory and on disk. A legacy file has not been published from. -/
def marks (s : Sys) : HighWater.State TravelAuthorizationSnapshot where
  log := s.published
  memory := s.server.map (·.snapshot)
  durable := if s.file.legacy then none else some s.file.state.snapshot

theorem Kept.publish {server : ServerAuthorization} (hk : s.Kept config)
    (hs : server.Sound config) (file : AuthorizationFile) :
    Kept config ⟨file, some server, s.published ++ [server.snapshot]⟩ := by
  refine ⟨fun server' h' => ?_, fun snapshot hm => ?_⟩
  · obtain rfl := Option.some.inj h'
    exact hs
  · rcases List.mem_append.mp hm with hm | hm
    · exact hk.published snapshot hm
    · exact ⟨server, hs, (List.mem_singleton.mp hm).symm⟩

theorem load_step {outcome : StoreOutcome} (hk : s.Kept config)
    (h : s.load config outcome = some s') :
    s'.Kept config ∧ HighWater.Steps s.marks s'.marks := by
  unfold load at h
  cases hserver : s.server with
  | some server => simp [hserver] at h
  | none =>
    have hnone : ∀ file, Kept config ⟨file, none, s.published⟩ := fun _ =>
      ⟨fun _ hs => (by cases hs), hk.published⟩
    rcases loadWithTrust_cases config s.file outcome with
      ⟨error, he⟩ | ⟨server, hsound, ⟨hlegacy, hsnap, he⟩ | ⟨hlegacy, he | ⟨error, he⟩⟩⟩ <;>
      simp only [hserver, he, Option.some.injEq] at h <;> subst h
    · have heq : s.marks = marks ⟨s.file, none, s.published⟩ := by simp [marks, hserver]
      exact ⟨hnone _, heq ▸ .refl⟩
    · have hbefore : s.marks = ⟨s.published, none, some server.snapshot⟩ := by
        simp [marks, hserver, hlegacy, hsnap]
      have hafter : marks ⟨s.file, some server, s.published ++ [server.snapshot]⟩ =
          ⟨s.published ++ [server.snapshot], some server.snapshot, some server.snapshot⟩ := by
        simp [marks, hlegacy, hsnap]
      rw [hbefore, hafter]
      refine ⟨hk.publish hsound _, .tail (.single (.recover server.snapshot fun d hd => ?_))
        (.note server.snapshot rfl)⟩
      exact le_of_eq (Option.some.inj hd).symm
    · have hbefore : s.marks = ⟨s.published, none, none⟩ := by simp [marks, hserver, hlegacy]
      rw [hbefore]
      exact ⟨hk.publish hsound _, .tail (.single (.recover server.snapshot fun d hd => by cases hd))
        (.note server.snapshot rfl)⟩
    · have hbefore : s.marks = ⟨s.published, none, none⟩ := by simp [marks, hserver, hlegacy]
      rw [hbefore]
      exact ⟨hnone _, .single (.restore server.snapshot rfl fun d hd => by cases hd)⟩

theorem operate_step {propose : ServerAuthorization →
      Except AuthorizationError (Option ServerAuthorization)} {outcome : StoreOutcome}
    (hpropose : ∀ server next, server.Sound config → propose server = .ok (some next) →
      server.Advances config next)
    (hk : s.Kept config) (h : s.operate config propose outcome = some s') :
    s'.Kept config ∧ HighWater.Steps s.marks s'.marks := by
  obtain ⟨server, hserver, rfl⟩ := Option.map_eq_some_iff.mp h
  have hsame : s.Kept config ∧ HighWater.Steps s.marks s.marks := ⟨hk, .refl⟩
  split
  · next next hnext =>
    obtain ⟨hsound, hle⟩ := hpropose server next (hk.server server hserver) hnext
    have hmem : s.marks.memory = some server.snapshot := by simp [marks, hserver]
    have hwrite := HighWater.Step.persist server.snapshot next.snapshot hmem hle
    rcases next.persist_cases config s.file outcome with hp | ⟨error, hp | hp⟩ <;> rw [hp]
    · exact ⟨hk.publish hsound _, .tail (.single hwrite)
        (.adopt server.snapshot next.snapshot next.snapshot hmem rfl hle le_rfl)⟩
    · exact ⟨⟨hk.server, hk.published⟩, .single hwrite⟩
    · exact hsame
  · exact hsame

/-- The Server refines a mark with a durable copy. -/
theorem step_sound (hk : s.Kept config) (h : s.step config a = some s') :
    s'.Kept config ∧ HighWater.Steps s.marks s'.marks := by
  cases a with
  | load outcome => exact load_step hk h
  | stop =>
    obtain ⟨server, -, rfl⟩ := Option.map_eq_some_iff.mp h
    exact ⟨⟨fun _ hs => (by cases hs), hk.published⟩, .single .lose⟩
  | importHomeEndpoint signed now outcome =>
    exact operate_step (fun _ _ _ => ServerAuthorization.importHomeEndpoint_advances) hk h
  | importBusinessHome endpoint grant now outcome =>
    exact operate_step (fun _ _ _ => ServerAuthorization.importBusinessHome_advances) hk h
  | revokeFromHome credentialId reason publisherHomeId now outcome =>
    exact operate_step (fun _ _ => ServerAuthorization.revokeFromHome_advances) hk h
  | importCredential signed publisherHomeId outcome =>
    exact operate_step (fun _ _ => ServerAuthorization.importCredential_advances) hk h

/-- After an operation the Server is the one before it, or the one that was proposed. -/
theorem operate_cases {propose : ServerAuthorization →
      Except AuthorizationError (Option ServerAuthorization)} {outcome : StoreOutcome}
    {server : ServerAuthorization} (hserver : s.server = some server)
    (h : s.operate config propose outcome = some s') :
    s'.server = some server ∨
      ∃ next, propose server = .ok (some next) ∧ s'.server = some next := by
  unfold operate at h
  rw [hserver, Option.map_some] at h
  rw [← Option.some.inj h]
  split
  · next next hnext =>
    split
    · exact .inr ⟨next, hnext, rfl⟩
    · exact .inl rfl
  · exact .inl hserver

theorem operate_server {propose : ServerAuthorization →
      Except AuthorizationError (Option ServerAuthorization)} {outcome : StoreOutcome}
    {server : ServerAuthorization}
    (hpropose : ∀ server next, server.Sound config → propose server = .ok (some next) →
      server.Advances config next)
    (hk : s.Kept config) (hserver : s.server = some server)
    (h : s.operate config propose outcome = some s') :
    ∃ next, s'.server = some next ∧ server.snapshot ≤ next.snapshot := by
  rcases operate_cases hserver h with hsame | ⟨next, hnext, hserver'⟩
  · exact ⟨server, hsame, le_rfl⟩
  · exact ⟨next, hserver', (hpropose server next (hk.server server hserver) hnext).2⟩

/-- A Server that runs on holds a snapshot that is not behind the one that it held. -/
theorem step_server {server : ServerAuthorization} (hk : s.Kept config) (ha : a ≠ .stop)
    (hserver : s.server = some server) (h : s.step config a = some s') :
    ∃ next, s'.server = some next ∧ server.snapshot ≤ next.snapshot := by
  cases a with
  | load outcome =>
    simp only [step, load, hserver] at h
    cases h
  | stop => exact absurd rfl ha
  | importHomeEndpoint signed now outcome =>
    exact operate_server (fun _ _ _ => ServerAuthorization.importHomeEndpoint_advances) hk hserver h
  | importBusinessHome endpoint grant now outcome =>
    exact operate_server (fun _ _ _ => ServerAuthorization.importBusinessHome_advances) hk hserver h
  | revokeFromHome credentialId reason publisherHomeId now outcome =>
    exact operate_server (fun _ _ => ServerAuthorization.revokeFromHome_advances) hk hserver h
  | importCredential signed publisherHomeId outcome =>
    exact operate_server (fun _ _ => ServerAuthorization.importCredential_advances) hk hserver h

/-- Only a revocation adds to what is revoked. -/
theorem step_keeps {server next : ServerAuthorization} (hstop : a ≠ .stop)
    (hrevoke : ∀ id reason home now outcome, a ≠ .revokeFromHome id reason home now outcome)
    (hserver : s.server = some server) (hnext : s'.server = some next)
    (h : s.step config a = some s') : server.KeepsRevocations next := by
  have hoperate : ∀ propose outcome, s.operate config propose outcome = some s' →
      (∀ proposed, propose server = .ok (some proposed) → server.KeepsRevocations proposed) →
      server.KeepsRevocations next := fun propose outcome h hkeeps => by
    rcases operate_cases hserver h with hsame | ⟨proposed, hproposed, hserver'⟩
    · rw [hnext] at hsame
      rw [Option.some.inj hsame]
      rfl
    · rw [hnext] at hserver'
      rw [Option.some.inj hserver']
      exact hkeeps proposed hproposed
  cases a with
  | load outcome =>
    simp only [step, load, hserver] at h
    cases h
  | stop => exact absurd rfl hstop
  | importHomeEndpoint signed now outcome =>
    exact hoperate _ _ h fun _ => ServerAuthorization.importHomeEndpoint_keeps
  | importBusinessHome endpoint grant now outcome =>
    exact hoperate _ _ h fun _ => ServerAuthorization.importBusinessHome_keeps
  | revokeFromHome credentialId reason publisherHomeId now outcome =>
    exact absurd rfl (hrevoke _ _ _ _ _)
  | importCredential signed publisherHomeId outcome =>
    exact hoperate _ _ h fun _ => ServerAuthorization.importCredential_keeps

theorem operate_published {propose : ServerAuthorization →
      Except AuthorizationError (Option ServerAuthorization)} {outcome : StoreOutcome}
    (h : s.operate config propose outcome = some s') :
    (s'.server = s.server ∧ s'.published = s.published) ∨
      ∃ next, s'.server = some next ∧ s'.published = s.published ++ [next.snapshot] := by
  obtain ⟨server, hserver, rfl⟩ := Option.map_eq_some_iff.mp h
  split
  · next next hnext =>
    split
    · exact .inr ⟨next, rfl, rfl⟩
    · exact .inl ⟨rfl, rfl⟩
  · exact .inl ⟨rfl, rfl⟩

/-- A Server that runs on either stays as it is, or publishes its new snapshot. -/
theorem step_published (ha : a ≠ .stop) (h : s.step config a = some s') :
    (s'.server = s.server ∧ s'.published = s.published) ∨
      ∃ next, s'.server = some next ∧ s'.published = s.published ++ [next.snapshot] := by
  cases a with
  | load outcome =>
    simp only [step, load] at h
    split at h
    · rw [← Option.some.inj h]
      exact .inr ⟨_, rfl, rfl⟩
    · rw [← Option.some.inj h]
      exact .inl ⟨rfl, rfl⟩
    · cases h
  | stop => exact absurd rfl ha
  | importHomeEndpoint _ _ _ | importBusinessHome _ _ _ _ | revokeFromHome _ _ _ _ _
  | importCredential _ _ _ => exact operate_published h

theorem sound_of_reachable (h : (machine config file).Reachable s) :
    s.Kept config ∧ HighWater.Inv s.marks :=
  h.invariant (P := fun s => s.Kept config ∧ HighWater.Inv s.marks)
    ⟨⟨fun _ hs => (by cases hs), fun _ hm => (by cases hm)⟩, HighWater.Inv.initial _⟩
    fun _ _ _ hi hs =>
      have hstep := step_sound hi.1 hs
      ⟨hstep.1, hi.2.steps hstep.2⟩

/-- Of two published snapshots, the one of the smaller generation is not ahead. -/
theorem le_of_generation_le {older newer : TravelAuthorizationSnapshot}
    (h : (machine config file).Reachable s) (ho : older ∈ s.published) (hn : newer ∈ s.published)
    (hle : older.generation ≤ newer.generation) : older ≤ newer := by
  have hrising := (sound_of_reachable h).2.rising
  rcases Log.rel_or_rel hrising ho hn with rfl | hbefore | hafter
  · exact le_rfl
  · exact hbefore
  · have hge := TravelAuthorizationSnapshot.generation_le_of_le hafter
    have heq : newer.generation = older.generation := by omega
    rw [TravelAuthorizationSnapshot.eq_of_le_of_generation_eq hafter heq]

end AuthorizationServer.Sys

/-- What a follower of a snapshot remembers. -/
def ServerConfig.cacheOf (config : ServerConfig) (snapshot : TravelAuthorizationSnapshot) :
    AuthorizationCache where
  generation := snapshot.generation
  snapshotSha256 := config.codec.snapshotSha256 snapshot
  revokedCredentials := snapshot.revoked

theorem follow_of_sound {config : ServerConfig} {server : ServerAuthorization}
    {cache : AuthorizationCache} (hs : server.Sound config)
    (hcache : cache = {} ∨ ∃ older, cache = config.cacheOf older ∧ older ≤ server.snapshot) :
    follow config cache server.snapshot = some (config.cacheOf server.snapshot) := by
  obtain ⟨hgen, -, hsha, hrevoked⟩ := VerifiedAuthorization.verify_spec hs.2
  simp only [follow, hs.1, Option.bind_some, hs.2, AuthorizationCache.accept, hgen, hsha, hrevoked]
  rcases hcache with rfl | ⟨older, rfl, hle⟩
  · simp [ServerConfig.cacheOf]
  · rw [if_neg, if_neg, if_pos]
    · rfl
    · exact TravelAuthorizationSnapshot.revoked_subset_of_le hle
    · rintro ⟨-, hg, -, hne⟩
      rw [TravelAuthorizationSnapshot.eq_of_le_of_generation_eq hle hg.symm] at hne
      exact hne rfl
    · exact Nat.not_lt.mpr (TravelAuthorizationSnapshot.generation_le_of_le hle)

/-- A follower accepts what rises, from its default cache or one that is not ahead. -/
theorem foldlM_follow {config : ServerConfig} {sent : List TravelAuthorizationSnapshot}
    {cache : AuthorizationCache} (hrising : sent.Pairwise (· ≤ ·))
    (hsound : ∀ snapshot ∈ sent, ∃ server : ServerAuthorization, server.Sound config ∧
      server.snapshot = snapshot)
    (hcache : cache = {} ∨
      ∃ older, cache = config.cacheOf older ∧ ∀ snapshot ∈ sent, older ≤ snapshot) :
    ∃ last, sent.foldlM (follow config) cache = some last := by
  induction sent generalizing cache with
  | nil => exact ⟨cache, rfl⟩
  | cons snapshot sent ih =>
    obtain ⟨hhead, htail⟩ := List.pairwise_cons.mp hrising
    obtain ⟨server, hs, rfl⟩ := hsound snapshot List.mem_cons_self
    have hfollow := follow_of_sound hs (hcache.imp id fun ⟨older, hc, hle⟩ =>
      ⟨older, hc, hle _ List.mem_cons_self⟩)
    rw [List.foldlM_cons, hfollow]
    exact ih htail (fun snapshot hm => hsound snapshot (List.mem_cons_of_mem _ hm))
      (.inr ⟨server.snapshot, rfl, hhead⟩)

/-- What one snapshot may be followed by. -/
def TravelAuthorizationSnapshot.Follows (older newer : TravelAuthorizationSnapshot) : Prop :=
  older.generation ≤ newer.generation ∧ (older.generation = newer.generation → older = newer) ∧
    older.revoked ⊆ newer.revoked

/-- Every follower accepts what the Server publishes, across restarts and failed writes. -/
theorem published_accepted {config : ServerConfig} {file : AuthorizationFile}
    {s : AuthorizationServer.Sys} (h : (AuthorizationServer.machine config file).Reachable s) :
    (∀ sent, HighWater.Replays s.published sent →
      ∃ cache, sent.foldlM (follow config) {} = some cache) ∧
    s.published.Pairwise TravelAuthorizationSnapshot.Follows := by
  obtain ⟨hk, hinv⟩ := AuthorizationServer.Sys.sound_of_reachable h
  refine ⟨fun sent hsent => ?_, hinv.rising.imp fun hle => ?_⟩
  · exact foldlM_follow (hsent.rising hinv.rising)
      (fun snapshot hm => hk.published snapshot (hsent.mem hm)) (.inl rfl)
  · exact ⟨TravelAuthorizationSnapshot.generation_le_of_le hle,
      TravelAuthorizationSnapshot.eq_of_le_of_generation_eq hle,
      TravelAuthorizationSnapshot.revoked_subset_of_le hle⟩

/-- A legacy file, a credential, a revocation whose write reports a failure, and a restart. -/
theorem published_accepted_restart :
    ∃ s, (AuthorizationServer.machine sampleServer ⟨{}, true⟩).exec
      [.load .stored, .importCredential sampleSignedCredential "home-1" .stored,
        .revokeFromHome 1 "lost" "home-1" 1000 .replaced, .stop, .load .stored] = some s ∧
    s.published.map (fun snapshot => (snapshot.generation, snapshot.revoked)) =
      [(2, ∅), (3, ∅), (4, {1})] ∧
    (∀ sent, HighWater.Replays s.published sent →
      ∃ cache, sent.foldlM (follow sampleServer) {} = some cache) ∧
    s.published.Pairwise TravelAuthorizationSnapshot.Follows := by
  have hrun : ((AuthorizationServer.machine sampleServer ⟨{}, true⟩).exec
      [.load .stored, .importCredential sampleSignedCredential "home-1" .stored,
        .revokeFromHome 1 "lost" "home-1" 1000 .replaced, .stop, .load .stored]).map
      (fun s => s.published.map fun snapshot => (snapshot.generation, snapshot.revoked)) =
        some [(2, ∅), (3, ∅), (4, {1})] := by
    decide +kernel
  obtain ⟨s, hs, heq⟩ := Option.map_eq_some_iff.mp hrun
  exact ⟨s, hs, heq, published_accepted (Machine.reachable_of_exec hs)⟩

end FlowSplice
