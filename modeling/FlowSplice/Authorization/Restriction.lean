import FlowSplice.Authorization.Followers

/-! What an operation of the Server may do to the grants of business Homes, and what it leaves
behind when it fails. -/
namespace FlowSplice

namespace ServerAuthorization
variable {config : ServerConfig} {server next : ServerAuthorization}

/-- The endpoint that a grant binds, and the Home that they are for. -/
def Binds (config : ServerConfig) (grant : SignedHomeServiceGrant)
    (endpoint : SignedHomeEndpointCredential) (homeId : String) : Prop :=
  ∃ approved, grant.verifyBinding config.codec.toCodec config.trust endpoint = some approved ∧
    approved.homeId = homeId

/-- No endpoint goes, and no grant; a grant that comes is the first of its Home. -/
structure Restricts (config : ServerConfig) (server next : ServerAuthorization) : Prop where
  endpoints : server.snapshot.homeEndpointCredentials ⊆ next.snapshot.homeEndpointCredentials
  grants : next.businessHomeGrants = server.businessHomeGrants ∨
    ∃ homeId grant, server.businessHomeGrants.lookup homeId = none ∧
      next.businessHomeGrants = server.businessHomeGrants ++ [(homeId, grant)] ∧
      ∃ endpoint ∈ next.snapshot.homeEndpointCredentials, Binds config grant endpoint homeId

/-- What an operation does that brings no grant. -/
def KeepsGrants (server next : ServerAuthorization) : Prop :=
  server.snapshot.homeEndpointCredentials ⊆ next.snapshot.homeEndpointCredentials ∧
    next.businessHomeGrants = server.businessHomeGrants

theorem KeepsGrants.restricts (h : server.KeepsGrants next) : server.Restricts config next :=
  ⟨h.1, .inl h.2⟩

theorem withSnapshot_businessHomeGrants {snapshot : TravelAuthorizationSnapshot}
    {authorities : List TrustedTravelAuthority}
    (h : server.withSnapshot config snapshot authorities = .ok next) :
    next.businessHomeGrants = server.businessHomeGrants := by
  unfold withSnapshot at h
  split at h
  · rw [← Except.ok.inj h]
  · cases h

theorem withHomeEndpoint_ok {endpoint : SignedHomeEndpointCredential}
    (h : server.withHomeEndpoint config endpoint = .ok next) :
    next.snapshot.homeEndpointCredentials =
        server.snapshot.homeEndpointCredentials ++ [endpoint] ∧
      next.businessHomeGrants = server.businessHomeGrants := by
  obtain ⟨bumped, hbump, h⟩ := bind_ok h
  obtain ⟨authorities, -, h⟩ := bind_ok h
  have hsnapshot := (withSnapshot_ok h).1
  have hgrants := withSnapshot_businessHomeGrants h
  refine ⟨?_, hgrants⟩
  rw [hsnapshot, TravelAuthorizationSnapshot.bump_eq hbump]

theorem importHomeEndpoint_keepsGrants {signed : SignedHomeEndpointCredential} {now : ℕ}
    (h : server.importHomeEndpoint config signed now = .ok (some next)) :
    server.KeepsGrants next := by
  obtain ⟨endpoint, -, h⟩ := bind_ok h
  split_ifs at h
  split at h
  · split_ifs at h
    cases h
  · obtain ⟨next', h', heq⟩ := map_ok h
    obtain rfl := Option.some.inj heq
    have hnext := withHomeEndpoint_ok h'
    constructor
    · rw [hnext.1]
      exact List.subset_append_left _ _
    · exact hnext.2

theorem verifyBinding_of_verify {codec : Codec} {grant : SignedHomeServiceGrant}
    {trust : DeploymentTrust} {endpoint : SignedHomeEndpointCredential} {now : ℕ}
    {approved : HomeServiceGrant} (h : grant.verify codec trust endpoint now = some approved) :
    grant.verifyBinding codec trust endpoint = some approved := by
  obtain ⟨_, -, h⟩ := Option.bind_eq_some_iff.mp h
  exact (Option.filter_eq_some_iff.mp h).1

/-- A new grant is for the Home that it was verified for. -/
theorem importBusinessHome_ok {endpoint : SignedHomeEndpointCredential}
    {grant : SignedHomeServiceGrant} {now : ℕ}
    (h : server.importBusinessHome config endpoint grant now = .ok (some next)) :
    ∃ approved, grant.verify config.codec.toCodec config.trust endpoint now = some approved ∧
      server.businessHomeGrants.lookup approved.homeId = none ∧
      next.businessHomeGrants = server.businessHomeGrants ++ [(approved.homeId, grant)] ∧
      next.snapshot.homeEndpointCredentials =
        server.snapshot.homeEndpointCredentials ++ [endpoint] := by
  obtain ⟨approved, happroved, h⟩ := bind_ok h
  split at h
  · split_ifs at h
    cases h
  · next hnone =>
    split_ifs at h
    obtain ⟨next', h', heq⟩ := bind_ok h
    obtain rfl := Option.some.inj (Except.ok.inj heq)
    have hnext := withHomeEndpoint_ok h'
    exact ⟨approved, orError_ok happroved, hnone, rfl, hnext.1⟩

theorem importBusinessHome_restricts {endpoint : SignedHomeEndpointCredential}
    {grant : SignedHomeServiceGrant} {now : ℕ}
    (h : server.importBusinessHome config endpoint grant now = .ok (some next)) :
    server.Restricts config next := by
  obtain ⟨approved, hverify, hnone, hgrants, hendpoints⟩ := importBusinessHome_ok h
  constructor
  · rw [hendpoints]
    exact List.subset_append_left _ _
  · have hmem : endpoint ∈ next.snapshot.homeEndpointCredentials := by
      rw [hendpoints]
      exact List.mem_append_right _ (List.mem_singleton_self _)
    exact .inr ⟨approved.homeId, grant, hnone, hgrants, endpoint, hmem, approved,
      verifyBinding_of_verify hverify, rfl⟩

theorem revokeFromHome_keepsGrants {credentialId : Uuid} {reason publisherHomeId : String} {now : ℕ}
    (h : server.revokeFromHome config credentialId reason publisherHomeId now = .ok (some next)) :
    server.KeepsGrants next := by
  obtain ⟨credential, -, h⟩ := bind_ok h
  obtain ⟨authority, -, h⟩ := bind_ok h
  split_ifs at h
  · cases h
  · obtain ⟨bumped, hbump, h⟩ := bind_ok h
    obtain ⟨next', h', heq⟩ := map_ok h
    obtain rfl := Option.some.inj heq
    constructor
    · rw [(withSnapshot_ok h').1, TravelAuthorizationSnapshot.bump_eq hbump]
      exact List.Subset.refl _
    · exact withSnapshot_businessHomeGrants h'

theorem importCredential_keepsGrants {signed : SignedTravelCredential} {publisherHomeId : String}
    (h : server.importCredential config signed publisherHomeId = .ok (some next)) :
    server.KeepsGrants next := by
  obtain ⟨authority, -, h⟩ := bind_ok h
  split_ifs at h
  obtain ⟨credential, -, h⟩ := bind_ok h
  split at h
  · split_ifs at h
    cases h
  · split_ifs at h
    obtain ⟨bumped, hbump, h⟩ := bind_ok h
    obtain ⟨next', h', heq⟩ := bind_ok h
    obtain rfl := Option.some.inj (Except.ok.inj heq)
    have hgrants := withSnapshot_businessHomeGrants h'
    constructor
    · show server.snapshot.homeEndpointCredentials ⊆ next'.snapshot.homeEndpointCredentials
      rw [(withSnapshot_ok h').1, TravelAuthorizationSnapshot.bump_eq hbump]
      exact List.Subset.refl _
    · exact hgrants

theorem Restricts.lookup {homeId : String} {grant : SignedHomeServiceGrant}
    (h : server.Restricts config next) (hgrant : server.businessHomeGrants.lookup homeId = some grant) :
    next.businessHomeGrants.lookup homeId = some grant := by
  rcases h.grants with hsame | ⟨_, _, -, hgrants, -⟩
  · rw [hsame]
    exact hgrant
  · rw [hgrants, List.lookup_append, hgrant]
    rfl

theorem validateBusinessGrants_iff {state : PersistentAuthorizationState} :
    config.validateBusinessGrants state = true ↔
      ∀ p ∈ state.businessHomeGrants, ∃ endpoint ∈ state.snapshot.homeEndpointCredentials,
        Binds config p.2 endpoint p.1 := by
  simp only [ServerConfig.validateBusinessGrants, List.all_eq_true, List.any_eq_true,
    Option.any_eq_true_iff_get, Binds]
  constructor
  · intro h p hp
    obtain ⟨endpoint, hmem, hsome, hhome⟩ := h p hp
    exact ⟨endpoint, hmem, _, (Option.some_get hsome).symm, eq_of_beq hhome⟩
  · intro h p hp
    obtain ⟨endpoint, hmem, approved, hbinding, hhome⟩ := h p hp
    refine ⟨endpoint, hmem, ?_⟩
    rw [hbinding]
    exact ⟨rfl, beq_iff_eq.mpr hhome⟩

/-- What an operation proposes would be accepted again by a load. -/
theorem Restricts.validates (h : server.Restricts config next)
    (hvalid : config.validateBusinessGrants server.state = true) :
    config.validateBusinessGrants next.state = true := by
  rw [validateBusinessGrants_iff] at hvalid ⊢
  intro p hp
  have hkept : p ∈ server.businessHomeGrants →
      ∃ endpoint ∈ next.snapshot.homeEndpointCredentials, Binds config p.2 endpoint p.1 := by
    intro hold
    obtain ⟨endpoint, hmem, hbinds⟩ := hvalid p hold
    exact ⟨endpoint, h.endpoints hmem, hbinds⟩
  rcases h.grants with hsame | ⟨homeId, grant, -, hgrants, hnew⟩
  · apply hkept
    rw [← hsame]
    exact hp
  · have hp : p ∈ next.businessHomeGrants := hp
    rw [hgrants] at hp
    rcases List.mem_append.mp hp with hold | hlast
    · exact hkept hold
    · rw [List.mem_singleton.mp hlast]
      exact hnew

end ServerAuthorization

theorem fromState_ok {config : ServerConfig} {authorities : List TrustedTravelAuthority}
    {state : PersistentAuthorizationState} {server : ServerAuthorization}
    (h : config.fromState authorities state = .ok server) : server.state = state := by
  unfold ServerConfig.fromState at h
  split_ifs at h with hversion hsize
  split at h
  · cases h
  · split_ifs at h
    rw [← Except.ok.inj h]
    simp only [Bool.or_eq_true, Bool.not_eq_true', bne_iff_ne, ne_eq, not_or, not_not] at hversion
    unfold ServerAuthorization.state
    rw [← hversion.2]

/-- A load takes the grants of a file that are bound to its endpoints. -/
theorem loadState_ok {config : ServerConfig} {file : AuthorizationFile}
    {server : ServerAuthorization} (h : loadState config file = .ok server) :
    config.validateBusinessGrants server.state = true ∧
      server.businessHomeGrants = file.state.businessHomeGrants ∧
      (file.legacy = false → server.state = file.state) := by
  unfold loadState at h
  split_ifs at h with hgrants hlegacy
  · obtain ⟨snapshot, hbump, h⟩ := bind_ok h
    obtain ⟨authorities, -, h⟩ := bind_ok h
    have hstate := fromState_ok h
    simp only [Bool.not_eq_true', Bool.not_eq_false] at hgrants
    rw [hstate, TravelAuthorizationSnapshot.bump_eq hbump]
    refine ⟨hgrants, congrArg (·.businessHomeGrants) hstate, fun hf => ?_⟩
    rw [hlegacy] at hf
    cases hf
  · obtain ⟨snapshot, hsnapshot, h⟩ := bind_ok h
    obtain rfl := Except.ok.inj hsnapshot
    obtain ⟨authorities, -, h⟩ := bind_ok h
    have hstate := fromState_ok h
    simp only [Bool.not_eq_true', Bool.not_eq_false] at hgrants
    rw [hstate]
    exact ⟨hgrants, congrArg (·.businessHomeGrants) hstate, fun _ => rfl⟩

namespace AuthorizationServer

/-- How the write of an operation goes, if it comes to one. -/
def Action.outcome : Action → Option StoreOutcome
  | .load _ | .stop => none
  | .importHomeEndpoint _ _ outcome | .importBusinessHome _ _ _ outcome
  | .revokeFromHome _ _ _ _ outcome | .importCredential _ _ outcome => some outcome

namespace Sys
variable {config : ServerConfig} {s s' : Sys} {a : Action}

/-- What an operation returns: whether it changed anything, or its error. -/
def returns (s : Sys) (config : ServerConfig)
    (propose : ServerAuthorization → Except AuthorizationError (Option ServerAuthorization))
    (outcome : StoreOutcome) : Option (Except AuthorizationError Bool) :=
  s.server.map fun server =>
    match propose server with
    | .error error => .error error
    | .ok none => .ok false
    | .ok (some next) => (next.persist config s.file outcome).1.map fun _ => true

def result (config : ServerConfig) (s : Sys) :
    Action → Option (Except AuthorizationError Bool)
  | .load _ | .stop => none
  | .importHomeEndpoint signed now outcome =>
    s.returns config (·.importHomeEndpoint config signed now) outcome
  | .importBusinessHome endpoint grant now outcome =>
    s.returns config (·.importBusinessHome config endpoint grant now) outcome
  | .revokeFromHome credentialId reason publisherHomeId now outcome =>
    s.returns config (·.revokeFromHome config credentialId reason publisherHomeId now) outcome
  | .importCredential signed publisherHomeId outcome =>
    s.returns config (·.importCredential config signed publisherHomeId) outcome

theorem operate_of_error {propose : ServerAuthorization →
      Except AuthorizationError (Option ServerAuthorization)} {outcome : StoreOutcome}
    {error : AuthorizationError} (h : s.returns config propose outcome = some (.error error))
    (houtcome : outcome ≠ .replaced) : s.operate config propose outcome = some s := by
  obtain ⟨server, hserver, hreturns⟩ := Option.map_eq_some_iff.mp h
  refine Option.map_eq_some_iff.mpr ⟨server, hserver, ?_⟩
  cases hpropose : propose server with
  | error _ => rfl
  | ok proposed =>
    cases proposed with
    | none => rfl
    | some next =>
      rw [hpropose] at hreturns
      dsimp only at hreturns ⊢
      unfold ServerAuthorization.persist at hreturns ⊢
      split_ifs at hreturns ⊢ with hsize
      · rfl
      · cases outcome with
        | stored => cases hreturns
        | replaced => exact absurd rfl houtcome
        | unchanged => rfl

/-- An operation that fails leaves the Server and its file alone, unless its write failed after it
had replaced the file. -/
theorem step_of_error {error : AuthorizationError} (h : s.result config a = some (.error error))
    (houtcome : a.outcome ≠ some .replaced) : s.step config a = some s := by
  have hne : ∀ outcome, a.outcome = some outcome → outcome ≠ .replaced := by
    intro outcome ha heq
    rw [ha, heq] at houtcome
    exact houtcome rfl
  cases a with
  | load _ => cases h
  | stop => cases h
  | importHomeEndpoint _ _ outcome => exact operate_of_error h (hne outcome rfl)
  | importBusinessHome _ _ _ outcome => exact operate_of_error h (hne outcome rfl)
  | revokeFromHome _ _ _ _ outcome => exact operate_of_error h (hne outcome rfl)
  | importCredential _ _ outcome => exact operate_of_error h (hne outcome rfl)

/-- What the Server holds, its file holds, and a load of it would accept the grants. -/
structure Reloads (config : ServerConfig) (s : Sys) : Prop where
  file : ∀ server, s.server = some server → s.file = { state := server.state }
  grants : ∀ server, s.server = some server → config.validateBusinessGrants server.state = true

/-- The grant of a Home, where the Server and its file have it. -/
structure Keeps (s : Sys) (homeId : String) (grant : SignedHomeServiceGrant) : Prop where
  server : ∀ server, s.server = some server →
    server.businessHomeGrants.lookup homeId = some grant
  file : s.file.state.businessHomeGrants.lookup homeId = some grant

/-- What changes the Server: it stops, it loads its file, or an operation is stored. -/
inductive Changes (config : ServerConfig) (s s' : Sys) : Prop where
  | idle (h : s' = s)
  | stop (hserver : s'.server = none) (hfile : s'.file = s.file)
  | refuse (hserver : s.server = none) (hserver' : s'.server = none)
      (hgrants : s'.file.state.businessHomeGrants = s.file.state.businessHomeGrants)
  | load (server : ServerAuthorization) (hserver : s.server = none)
      (hserver' : s'.server = some server) (hfile : s'.file = { state := server.state })
      (hvalid : config.validateBusinessGrants server.state = true)
      (hgrants : server.businessHomeGrants = s.file.state.businessHomeGrants)
  | operate (server next : ServerAuthorization) (hserver : s.server = some server)
      (hserver' : s'.server = some next) (hfile : s'.file = { state := next.state })
      (hrestricts : server.Restricts config next)

theorem changes_of_load {outcome : StoreOutcome} (h : s.load config outcome = some s') :
    s.Changes config s' := by
  unfold load at h
  cases hserver : s.server with
  | some server =>
    rw [hserver] at h
    cases h
  | none =>
    rw [hserver] at h
    unfold loadWithTrust at h
    cases hload : loadState config s.file with
    | error error =>
      rw [hload] at h
      rw [← Option.some.inj h]
      exact .refuse hserver rfl rfl
    | ok server =>
      rw [hload] at h
      obtain ⟨hvalid, hgrants, hstate⟩ := loadState_ok hload
      dsimp only at h
      by_cases hlegacy : s.file.legacy = true
      · rw [if_pos hlegacy] at h
        unfold ServerAuthorization.persist at h
        split_ifs at h
        · rw [← Option.some.inj h]
          exact .refuse hserver rfl rfl
        · cases outcome with
          | stored =>
            rw [← Option.some.inj h]
            exact .load server hserver rfl rfl hvalid hgrants
          | replaced =>
            rw [← Option.some.inj h]
            exact .refuse hserver rfl hgrants
          | unchanged =>
            rw [← Option.some.inj h]
            exact .refuse hserver rfl rfl
      · rw [if_neg hlegacy] at h
        rw [← Option.some.inj h]
        have hlegacy : s.file.legacy = false := by simpa using hlegacy
        have hfile : s.file = { state := server.state } := by
          rw [hstate hlegacy, ← hlegacy]
        exact .load server hserver rfl hfile hvalid hgrants

theorem changes_of_operate {propose : ServerAuthorization →
      Except AuthorizationError (Option ServerAuthorization)} {outcome : StoreOutcome}
    (hpropose : ∀ server next, propose server = .ok (some next) → server.Restricts config next)
    (houtcome : outcome ≠ .replaced) (h : s.operate config propose outcome = some s') :
    s.Changes config s' := by
  obtain ⟨server, hserver, rfl⟩ := Option.map_eq_some_iff.mp h
  split
  · next next hnext =>
    unfold ServerAuthorization.persist
    split_ifs with hsize
    · exact .idle rfl
    · cases outcome with
      | stored => exact .operate server next hserver rfl rfl (hpropose server next hnext)
      | replaced => exact absurd rfl houtcome
      | unchanged => exact .idle rfl
  · exact .idle rfl

theorem changes_of_step (houtcome : a.outcome ≠ some .replaced)
    (h : s.step config a = some s') : s.Changes config s' := by
  have hne : ∀ outcome, a.outcome = some outcome → outcome ≠ .replaced := by
    intro outcome ha heq
    rw [ha, heq] at houtcome
    exact houtcome rfl
  cases a with
  | load outcome => exact changes_of_load h
  | stop =>
    obtain ⟨server, -, rfl⟩ := Option.map_eq_some_iff.mp h
    exact .stop rfl rfl
  | importHomeEndpoint _ _ outcome =>
    exact changes_of_operate (fun _ _ h => (ServerAuthorization.importHomeEndpoint_keepsGrants h).restricts)
      (hne outcome rfl) h
  | importBusinessHome _ _ _ outcome =>
    exact changes_of_operate (fun _ _ => ServerAuthorization.importBusinessHome_restricts)
      (hne outcome rfl) h
  | revokeFromHome _ _ _ _ outcome =>
    exact changes_of_operate (fun _ _ h => (ServerAuthorization.revokeFromHome_keepsGrants h).restricts)
      (hne outcome rfl) h
  | importCredential _ _ outcome =>
    exact changes_of_operate (fun _ _ h => (ServerAuthorization.importCredential_keepsGrants h).restricts)
      (hne outcome rfl) h

/-- A Home gets its grant by the import of its enrollment. -/
theorem importBusinessHome_of_new {server next : ServerAuthorization} {homeId : String}
    (hserver : s.server = some server) (hnext : s'.server = some next)
    (h : s.step config a = some s') (hnone : server.businessHomeGrants.lookup homeId = none)
    (hsome : next.businessHomeGrants.lookup homeId ≠ none) :
    ∃ endpoint grant now outcome approved, a = .importBusinessHome endpoint grant now outcome ∧
      grant.verify config.codec.toCodec config.trust endpoint now = some approved ∧
      approved.homeId = homeId := by
  have hoperate : ∀ propose outcome, s.operate config propose outcome = some s' →
      (∀ proposed, propose server = .ok (some proposed) → server.KeepsGrants proposed) →
      False := by
    intro propose outcome h hkeeps
    apply hsome
    rcases operate_cases hserver h with hsame | ⟨proposed, hproposed, hserver'⟩
    · rw [hnext] at hsame
      rw [Option.some.inj hsame]
      exact hnone
    · rw [hnext] at hserver'
      rw [Option.some.inj hserver', (hkeeps proposed hproposed).2]
      exact hnone
  cases a with
  | load outcome =>
    simp only [step, load, hserver] at h
    cases h
  | stop =>
    obtain ⟨_, -, rfl⟩ := Option.map_eq_some_iff.mp h
    cases hnext
  | importHomeEndpoint signed now outcome =>
    exact (hoperate _ _ h fun _ => ServerAuthorization.importHomeEndpoint_keepsGrants).elim
  | importBusinessHome endpoint grant now outcome =>
    rcases operate_cases hserver h with hsame | ⟨proposed, hproposed, hserver'⟩
    · rw [hnext] at hsame
      rw [Option.some.inj hsame] at hsome
      exact absurd hnone hsome
    · obtain ⟨approved, hverify, -, hgrants, -⟩ := ServerAuthorization.importBusinessHome_ok hproposed
      refine ⟨endpoint, grant, now, outcome, approved, rfl, hverify, ?_⟩
      by_contra hne
      rw [hnext] at hserver'
      apply hsome
      rw [Option.some.inj hserver', hgrants, List.lookup_append, hnone]
      simp [Ne.symm hne]
  | revokeFromHome credentialId reason publisherHomeId now outcome =>
    exact (hoperate _ _ h fun _ => ServerAuthorization.revokeFromHome_keepsGrants).elim
  | importCredential signed publisherHomeId outcome =>
    exact (hoperate _ _ h fun _ => ServerAuthorization.importCredential_keepsGrants).elim

theorem Reloads.changes (hi : s.Reloads config) (h : s.Changes config s') :
    s'.Reloads config := by
  constructor
  · intro current hcurrent
    cases h with
    | idle h =>
      rw [h] at hcurrent ⊢
      exact hi.file current hcurrent
    | stop hserver _ =>
      rw [hserver] at hcurrent
      cases hcurrent
    | refuse _ hserver _ =>
      rw [hserver] at hcurrent
      cases hcurrent
    | load server _ hserver hfile _ _ =>
      rw [hserver] at hcurrent
      rw [← Option.some.inj hcurrent]
      exact hfile
    | operate server next _ hserver hfile _ =>
      rw [hserver] at hcurrent
      rw [← Option.some.inj hcurrent]
      exact hfile
  · intro current hcurrent
    cases h with
    | idle h =>
      rw [h] at hcurrent
      exact hi.grants current hcurrent
    | stop hserver _ =>
      rw [hserver] at hcurrent
      cases hcurrent
    | refuse _ hserver _ =>
      rw [hserver] at hcurrent
      cases hcurrent
    | load server _ hserver _ hvalid _ =>
      rw [hserver] at hcurrent
      rw [← Option.some.inj hcurrent]
      exact hvalid
    | operate server next hserver hserver' _ hrestricts =>
      rw [hserver'] at hcurrent
      rw [← Option.some.inj hcurrent]
      exact hrestricts.validates (hi.grants server hserver)

theorem Keeps.changes {homeId : String} {grant : SignedHomeServiceGrant}
    (hk : s.Keeps homeId grant) (h : s.Changes config s') : s'.Keeps homeId grant := by
  cases h with
  | idle h =>
    rw [h]
    exact hk
  | stop hserver hfile =>
    constructor
    · intro current hcurrent
      rw [hserver] at hcurrent
      cases hcurrent
    · rw [hfile]
      exact hk.file
  | refuse _ hserver hgrants =>
    constructor
    · intro current hcurrent
      rw [hserver] at hcurrent
      cases hcurrent
    · rw [hgrants]
      exact hk.file
  | load server _ hserver hfile _ hgrants =>
    have hlookup : server.businessHomeGrants.lookup homeId = some grant := by
      rw [hgrants]
      exact hk.file
    constructor
    · intro current hcurrent
      rw [hserver] at hcurrent
      rw [← Option.some.inj hcurrent]
      exact hlookup
    · rw [hfile]
      exact hlookup
  | operate server next hserver hserver' hfile hrestricts =>
    have hlookup := hrestricts.lookup (hk.server server hserver)
    constructor
    · intro current hcurrent
      rw [hserver'] at hcurrent
      rw [← Option.some.inj hcurrent]
      exact hlookup
    · rw [hfile]
      exact hlookup

end Sys
end AuthorizationServer
end FlowSplice
