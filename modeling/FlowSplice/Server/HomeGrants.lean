import FlowSplice.Authorization.Restriction
import FlowSplice.Server.Reports

/-! The Homes that have a signed grant, as they register at the Server and are shown to Travels:
`handle_home` of `server/src/main.rs` beside the operations of `server/src/authorization.rs`. -/
namespace FlowSplice.Server.HomeGrants

open Control (HomeCatalog Catalog Service)
open Travels (Config validateHomeServices)

/-- `home_endpoint_credential`. -/
def homeEndpointCredential (config : Config) (server : ServerAuthorization) (homeId : String)
    (now : ℕ) : Option SignedHomeEndpointCredential :=
  server.snapshot.homeEndpointCredentials.find? fun credential =>
    (credential.verify config.codec.toCodec config.trust now).any (·.homeId == homeId)

/-- How far a call is with a catalog that its Home has sent. The grant is read when the services
have been checked, and the catalog is registered later. -/
inductive Phase where
  | waiting
  | validated (home : HomeCatalog)
  | granted (home : HomeCatalog)
deriving DecidableEq, Repr

/-- A call of `handle_home`, with its session once it has registered. -/
structure Call where
  homeId : String
  endpointCredential : Option SignedHomeEndpointCredential
  sessionId : Option Uuid := none
  phase : Phase := .waiting
deriving DecidableEq, Repr

structure Sys where
  authority : AuthorizationServer.Sys
  homes : HomeRegistry := {}
  calls : Slots Call := {}

/-- `register` stands for the first catalog of a session and for the later ones. A call that leaves
takes its session along, and the process all calls. -/
inductive Action where
  | authority (action : AuthorizationServer.Action)
  | connect (homeId : String) (now resolvedAt : ℕ)
  | validate (i : ℕ) (home : HomeCatalog) (now : ℕ)
  | grant (i : ℕ)
  | register (i : ℕ) (sessionId : Uuid)
  | heartbeat (i : ℕ) (now : ℕ)
  | leave (i : ℕ)

namespace Sys
variable (s : Sys)

/-- `clear_home_session`, at the end of a call. -/
def leave (i : ℕ) (call : Call) : Sys :=
  { s with
    homes := match call.sessionId with
      | some sessionId => (s.homes.remove call.homeId sessionId).1
      | none => s.homes
    calls := s.calls.set i none }

/-- A catalog of a session that has registered is an update. -/
def register (i : ℕ) (call : Call) (home : HomeCatalog) (sessionId : Uuid) : Sys :=
  match call.sessionId with
  | none =>
    { s with
      homes := (s.homes.register home sessionId).1
      calls := s.calls.set i (some { call with sessionId := some sessionId, phase := .waiting }) }
  | some sessionId =>
    { s with
      homes := (s.homes.updateCatalog home sessionId).1
      calls := s.calls.set i (some { call with phase := .waiting }) }

/-- `homes` are the Homes of the Server's configuration. -/
def step (config : Config) (homes : List String) : Action → Option Sys
  | .authority action =>
    (s.authority.step config.toServerConfig action).map fun authority =>
      if authority.server.isSome then { s with authority } else { authority }
  | .connect homeId now resolvedAt =>
    s.authority.server.bind fun server =>
      let endpointCredential := homeEndpointCredential config server homeId now
      if endpointCredential.isNone && !homes.contains homeId ||
          (config.trust.resolveHomeEndpoint config.codec.toCodec homeId endpointCredential
            resolvedAt).isNone then none
      else some { s with calls := s.calls.push { homeId, endpointCredential } }
  | .validate i home now =>
    s.authority.server.bind fun server => (s.calls.get i).bind fun call =>
      if call.phase ≠ .waiting then none
      else if home.homeId = call.homeId ∧ home.endpointCredential = call.endpointCredential ∧
          validateHomeServices config server call.homeId call.endpointCredential home.services now =
            true then
        some { s with calls := s.calls.set i (some { call with phase := .validated home }) }
      else some (s.leave i call)
  | .grant i =>
    s.authority.server.bind fun server => (s.calls.get i).bind fun call =>
      match call.phase with
      | .validated home =>
        let home := { home with serviceGrant := server.businessHomeGrants.lookup call.homeId }
        if Control.validateCatalog { generation := 1, homes := [home] } then
          some { s with calls := s.calls.set i (some { call with phase := .granted home }) }
        else some (s.leave i call)
      | _ => none
  | .register i sessionId =>
    (s.calls.get i).bind fun call =>
      match call.phase with
      | .granted home => some (s.register i call home sessionId)
      | _ => none
  | .heartbeat i now =>
    s.authority.server.bind fun server => (s.calls.get i).bind fun call =>
      if call.phase ≠ .waiting ∨ call.sessionId = none then none
      else if validateHomeServices config server call.homeId call.endpointCredential [] now then
        some s
      else some (s.leave i call)
  | .leave i => (s.calls.get i).map fun call => s.leave i call

end Sys

def machine (config : Config) (homes : List String) (file : AuthorizationFile) :
    Machine Sys Action where
  start := { authority := { file } }
  step s := s.step config homes

/-- A catalog without a grant that is about to be registered. -/
def Call.Generic (call : Call) : Prop :=
  match call.phase with
  | .granted home => home.serviceGrant = none
  | _ => False

instance (call : Call) : Decidable call.Generic := by
  unfold Call.Generic
  split <;> infer_instance

/-- No write fails after it has replaced the file. The first grant of a Home comes while no catalog
of the Home is listed, and none is about to be. -/
def Sys.Fresh (config : Config) (s : Sys) : Action → Prop
  | .authority action => action.outcome ≠ some .replaced ∧
    match action with
    | .importBusinessHome endpoint grant now _ =>
      ∀ server ∈ s.authority.server,
        ∀ approved ∈ grant.verify config.codec.toCodec config.trust endpoint now,
          server.businessHomeGrants.lookup approved.homeId = none →
            s.homes.catalogs.lookup approved.homeId = none ∧
              ¬ s.calls.Holds fun call => call.homeId = approved.homeId ∧ call.Generic
    | _ => True
  | _ => True

instance (config : Config) (s : Sys) (a : Action) : Decidable (s.Fresh config a) := by
  cases a with
  | authority action => cases action <;> unfold Sys.Fresh <;> infer_instance
  | _ => unfold Sys.Fresh; infer_instance

/-- The Home of a grant is listed with the grant only. Whoever it is shown to is shown services that
the grant approves, while the grant is valid for the endpoint that is shown. -/
structure Sys.Restricted (config : Config) (s : Sys) (homeId : String)
    (grant : SignedHomeServiceGrant) : Prop where
  listed : ∀ home, s.homes.catalogs.lookup homeId = some home → home.serviceGrant = some grant
  shown : ∀ credentials now,
    ∀ home ∈ (catalogForCredentials config.codec.toCodec s.homes.catalog credentials
      (some config.trust) now).homes, home.homeId = homeId →
    ∃ endpoint approved, home.endpointCredential = some endpoint ∧
      grant.verify config.codec.toCodec config.trust endpoint now = some approved ∧
      approved.homeId = homeId ∧
      ∀ service ∈ home.services, ∃ allowed ∈ approved.services,
        allowed.serviceId = service.id ∧ allowed.protocol = service.protocol

/-- The Server holds the grant of the Home. -/
def Sys.Granted (s : Sys) (homeId : String) (grant : SignedHomeServiceGrant) : Prop :=
  ∃ server, s.authority.server = some server ∧
    server.businessHomeGrants.lookup homeId = some grant

/-- A listed catalog has the grant that the Server has for its Home, and so has one that is about to
be listed. -/
structure Sys.Inv (config : Config) (s : Sys) : Prop where
  reloads : s.authority.Reloads config.toServerConfig
  keyed : ∀ homeId home, s.homes.catalogs.lookup homeId = some home → home.homeId = homeId
  listed : ∀ homeId home, s.homes.catalogs.lookup homeId = some home → ∃ server,
    s.authority.server = some server ∧
      home.serviceGrant = server.businessHomeGrants.lookup homeId
  validated : ∀ i call home, s.calls.get i = some call → call.phase = .validated home →
    home.homeId = call.homeId
  granted : ∀ i call home, s.calls.get i = some call → call.phase = .granted home →
    home.homeId = call.homeId ∧ ∃ server, s.authority.server = some server ∧
      home.serviceGrant = server.businessHomeGrants.lookup call.homeId

namespace Sys
variable {config : Config} {homes : List String} {file : AuthorizationFile} {s s' : Sys}
  {a : Action} {i : ℕ} {call : Call}

theorem Inv.start : Inv config (machine config homes file).start where
  reloads := ⟨fun _ h => (by cases h), fun _ h => (by cases h)⟩
  keyed _ _ h := by cases h
  listed _ _ h := by cases h
  validated _ _ _ h := by cases h
  granted _ _ _ h := by cases h

/-- One call goes on, and the others are as they were. -/
theorem Inv.setCall {next : Option Call} (hi : s.Inv config)
    (hvalidated : ∀ call home, next = some call → call.phase = .validated home →
      home.homeId = call.homeId)
    (hgranted : ∀ call home, next = some call → call.phase = .granted home →
      home.homeId = call.homeId ∧ ∃ server, s.authority.server = some server ∧
        home.serviceGrant = server.businessHomeGrants.lookup call.homeId) :
    Inv config { s with calls := s.calls.set i next } := by
  refine ⟨hi.reloads, hi.keyed, hi.listed, ?_, ?_⟩
  · intro j call home hget hphase
    rcases Slots.get_set_cases hget with ⟨-, hnext, -⟩ | ⟨-, hold⟩
    · exact hvalidated call home hnext hphase
    · exact hi.validated j call home hold hphase
  · intro j call home hget hphase
    rcases Slots.get_set_cases hget with ⟨-, hnext, -⟩ | ⟨-, hold⟩
    · exact hgranted call home hnext hphase
    · exact hi.granted j call home hold hphase

/-- The registry loses entries, or keeps them. -/
theorem Inv.withHomes {registry : HomeRegistry} (hi : s.Inv config)
    (hlisted : ∀ homeId home, registry.catalogs.lookup homeId = some home →
      s.homes.catalogs.lookup homeId = some home ∨ home.homeId = homeId ∧
        ∃ server, s.authority.server = some server ∧
          home.serviceGrant = server.businessHomeGrants.lookup homeId) :
    Inv config { s with homes := registry } := by
  refine ⟨hi.reloads, ?_, ?_, hi.validated, hi.granted⟩
  · intro homeId home hlookup
    rcases hlisted homeId home hlookup with hold | ⟨hid, -⟩
    · exact hi.keyed homeId home hold
    · exact hid
  · intro homeId home hlookup
    rcases hlisted homeId home hlookup with hold | ⟨-, hnew⟩
    · exact hi.listed homeId home hold
    · exact hnew

theorem lookup_remove {registry : HomeRegistry} {homeId homeId' : String} {sessionId : Uuid}
    {home : HomeCatalog}
    (h : (registry.remove homeId sessionId).1.catalogs.lookup homeId' = some home) :
    registry.catalogs.lookup homeId' = some home := by
  unfold HomeRegistry.remove at h
  split_ifs at h
  · exact h
  · exact (Table.lookup_erase_cases h).2
  · exact h

theorem lookup_updateCatalog {registry : HomeRegistry} {homeId : String} {sessionId : Uuid}
    {home listed : HomeCatalog}
    (h : (registry.updateCatalog home sessionId).1.catalogs.lookup homeId = some listed) :
    registry.catalogs.lookup homeId = some listed ∨ homeId = home.homeId ∧ listed = home := by
  unfold HomeRegistry.updateCatalog at h
  split_ifs at h
  · exact .inl h
  · rcases Table.lookup_insert_cases h with hnew | hold
    · exact .inr hnew
    · exact .inl hold.2

theorem Inv.leave (hi : s.Inv config) : (s.leave i call).Inv config := by
  have hcalls : Inv config { s with calls := s.calls.set i none } :=
    hi.setCall (fun _ _ h => by cases h) (fun _ _ h => by cases h)
  unfold Sys.leave
  cases call.sessionId with
  | none => exact hcalls
  | some sessionId =>
    apply hcalls.withHomes
    intro homeId home hlookup
    exact .inl (lookup_remove hlookup)

theorem Inv.register {home : HomeCatalog} {sessionId : Uuid} (hi : s.Inv config)
    (hcall : s.calls.get i = some call) (hphase : call.phase = .granted home) :
    (s.register i call home sessionId).Inv config := by
  obtain ⟨hid, server, hserver, hgrant⟩ := hi.granted i call home hcall hphase
  have hnew : ∀ homeId listed, homeId = home.homeId → listed = home →
      listed.homeId = homeId ∧ ∃ server, s.authority.server = some server ∧
        listed.serviceGrant = server.businessHomeGrants.lookup homeId := by
    intro homeId listed hhome hlisted
    rw [hhome, hlisted]
    refine ⟨rfl, server, hserver, ?_⟩
    rw [hid]
    exact hgrant
  unfold Sys.register
  cases call.sessionId with
  | none =>
    have hcalls : Inv config { s with
        calls := s.calls.set i (some { call with sessionId := some sessionId, phase := .waiting }) } :=
      hi.setCall (fun _ _ h hp => by cases h; cases hp) (fun _ _ h hp => by cases h; cases hp)
    apply hcalls.withHomes
    intro homeId listed hlookup
    rcases Table.lookup_insert_cases hlookup with ⟨hhome, hlisted⟩ | ⟨-, hold⟩
    · exact .inr (hnew homeId listed hhome hlisted)
    · exact .inl hold
  | some old =>
    have hcalls : Inv config { s with
        calls := s.calls.set i (some { call with sessionId := some old, phase := .waiting }) } :=
      hi.setCall (fun _ _ h hp => by cases h; cases hp) (fun _ _ h hp => by cases h; cases hp)
    apply hcalls.withHomes
    intro homeId listed hlookup
    rcases lookup_updateCatalog hlookup with hold | ⟨hhome, hlisted⟩
    · exact .inl hold
    · exact .inr (hnew homeId listed hhome hlisted)

/-- The Server goes on, or starts before any Home is there. A Home that is listed, or about to be, is
not the one that is given its first grant. -/
theorem Inv.withAuthority {authority : AuthorizationServer.Sys} (hi : s.Inv config)
    (hchanges : s.authority.Changes config.toServerConfig authority)
    (hsome : authority.server ≠ none)
    (hfresh : ∀ server next homeId, s.authority.server = some server →
      authority.server = some next → server.businessHomeGrants.lookup homeId = none →
      next.businessHomeGrants.lookup homeId ≠ none →
      s.homes.catalogs.lookup homeId = none ∧
        ∀ i call, s.calls.get i = some call → call.homeId = homeId → ¬ call.Generic) :
    Inv config { s with authority } := by
  have hlookup : ∀ server homeId, s.authority.server = some server → ∃ next,
      authority.server = some next ∧
        (next.businessHomeGrants.lookup homeId = server.businessHomeGrants.lookup homeId ∨
          server.businessHomeGrants.lookup homeId = none ∧
            next.businessHomeGrants.lookup homeId ≠ none) := by
    intro server homeId hserver
    cases hchanges with
    | idle h =>
      rw [h]
      exact ⟨server, hserver, .inl rfl⟩
    | stop hserver' _ => exact absurd hserver' hsome
    | refuse _ hserver' _ => exact absurd hserver' hsome
    | load _ hnone _ _ _ _ =>
      rw [hserver] at hnone
      cases hnone
    | operate current next hcurrent hserver' _ hrestricts =>
      rw [hserver] at hcurrent
      obtain rfl := Option.some.inj hcurrent
      refine ⟨next, hserver', ?_⟩
      cases hgrant : server.businessHomeGrants.lookup homeId with
      | some grant => exact .inl (hrestricts.lookup hgrant)
      | none =>
        by_cases hnext : next.businessHomeGrants.lookup homeId = none
        · exact .inl hnext
        · exact .inr ⟨rfl, hnext⟩
  refine ⟨hi.reloads.changes hchanges, hi.keyed, ?_, hi.validated, ?_⟩
  · intro homeId home hlisted
    obtain ⟨server, hserver, hgrant⟩ := hi.listed homeId home hlisted
    obtain ⟨next, hnext, hsame | ⟨hnone, hnew⟩⟩ := hlookup server homeId hserver
    · refine ⟨next, hnext, ?_⟩
      rw [hsame]
      exact hgrant
    · have hfree := (hfresh server next homeId hserver hnext hnone hnew).1
      rw [hlisted] at hfree
      cases hfree
  · intro i call home hcall hphase
    obtain ⟨hid, server, hserver, hgrant⟩ := hi.granted i call home hcall hphase
    obtain ⟨next, hnext, hsame | ⟨hnone, hnew⟩⟩ := hlookup server call.homeId hserver
    · refine ⟨hid, next, hnext, ?_⟩
      rw [hsame]
      exact hgrant
    · have hbusy := (hfresh server next call.homeId hserver hnext hnone hnew).2 i call hcall rfl
      have hgeneric : call.Generic := by
        unfold Call.Generic
        rw [hphase, ← hnone]
        exact hgrant
      exact absurd hgeneric hbusy

theorem fresh_of_step {action : AuthorizationServer.Action} {authority : AuthorizationServer.Sys}
    (hok : s.Fresh config (.authority action))
    (h : s.authority.step config.toServerConfig action = some authority) :
    ∀ server next homeId, s.authority.server = some server → authority.server = some next →
      server.businessHomeGrants.lookup homeId = none →
      next.businessHomeGrants.lookup homeId ≠ none →
      s.homes.catalogs.lookup homeId = none ∧
        ∀ i call, s.calls.get i = some call → call.homeId = homeId → ¬ call.Generic := by
  intro server next homeId hserver hnext hnone hnew
  obtain ⟨endpoint, grant, now, outcome, approved, rfl, hverify, rfl⟩ :=
    AuthorizationServer.Sys.importBusinessHome_of_new hserver hnext h hnone hnew
  obtain ⟨hlisted, hbusy⟩ := hok.2 server hserver approved hverify hnone
  refine ⟨hlisted, fun i call hcall hhome hgeneric => hbusy ?_⟩
  exact Slots.holds_iff.mpr ⟨i, call, hcall, hhome, hgeneric⟩

@[simp] theorem authority_leave : (s.leave i call).authority = s.authority := rfl

@[simp] theorem authority_register {home : HomeCatalog} {sessionId : Uuid} :
    (s.register i call home sessionId).authority = s.authority := by
  unfold Sys.register
  cases call.sessionId <;> rfl

/-- What a call of a Home does leaves the Server's authorization alone. -/
theorem authority_of_step (ha : ∀ action, a ≠ .authority action)
    (hs : s.step config homes a = some s') : s'.authority = s.authority := by
  cases a with
  | authority action => exact absurd rfl (ha action)
  | connect homeId now resolvedAt =>
    obtain ⟨server, -, hs⟩ := Option.bind_eq_some_iff.mp hs
    dsimp only at hs
    split_ifs at hs
    rw [← Option.some.inj hs]
  | validate i home now =>
    obtain ⟨server, -, hs⟩ := Option.bind_eq_some_iff.mp hs
    obtain ⟨call, -, hs⟩ := Option.bind_eq_some_iff.mp hs
    split_ifs at hs <;> rw [← Option.some.inj hs]
    exact authority_leave
  | grant i =>
    obtain ⟨server, -, hs⟩ := Option.bind_eq_some_iff.mp hs
    obtain ⟨call, -, hs⟩ := Option.bind_eq_some_iff.mp hs
    split at hs
    · dsimp only at hs
      split_ifs at hs <;> rw [← Option.some.inj hs]
      exact authority_leave
    · cases hs
  | register i sessionId =>
    obtain ⟨call, -, hs⟩ := Option.bind_eq_some_iff.mp hs
    split at hs
    · rw [← Option.some.inj hs]
      exact authority_register
    · cases hs
  | heartbeat i now =>
    obtain ⟨server, -, hs⟩ := Option.bind_eq_some_iff.mp hs
    obtain ⟨call, -, hs⟩ := Option.bind_eq_some_iff.mp hs
    split_ifs at hs <;> rw [← Option.some.inj hs]
    exact authority_leave
  | leave i =>
    obtain ⟨call, -, rfl⟩ := Option.map_eq_some_iff.mp hs
    exact authority_leave

theorem Inv.step (hi : s.Inv config) (hok : s.Fresh config a)
    (hs : s.step config homes a = some s') : s'.Inv config := by
  cases a with
  | authority action =>
    obtain ⟨authority, h, rfl⟩ := Option.map_eq_some_iff.mp hs
    have hchanges := AuthorizationServer.Sys.changes_of_step hok.1 h
    split_ifs with hsome
    · have hsome : authority.server ≠ none := by
        rw [← Option.isSome_iff_ne_none]
        exact hsome
      exact hi.withAuthority hchanges hsome (fresh_of_step hok h)
    · exact ⟨hi.reloads.changes hchanges, fun _ _ h => (by cases h), fun _ _ h => (by cases h),
        fun _ _ _ h => (by cases h), fun _ _ _ h => (by cases h)⟩
  | connect homeId now resolvedAt =>
    obtain ⟨server, hserver, hs⟩ := Option.bind_eq_some_iff.mp hs
    dsimp only at hs
    split_ifs at hs
    rw [← Option.some.inj hs]
    refine ⟨hi.reloads, hi.keyed, hi.listed, ?_, ?_⟩
    · intro i call home hcall hphase
      rcases Slots.get_push_cases hcall with ⟨-, hnew⟩ | ⟨-, hold⟩
      · rw [hnew] at hphase
        cases hphase
      · exact hi.validated i call home hold hphase
    · intro i call home hcall hphase
      rcases Slots.get_push_cases hcall with ⟨-, hnew⟩ | ⟨-, hold⟩
      · rw [hnew] at hphase
        cases hphase
      · exact hi.granted i call home hold hphase
  | validate i home now =>
    obtain ⟨server, hserver, hs⟩ := Option.bind_eq_some_iff.mp hs
    obtain ⟨call, hcall, hs⟩ := Option.bind_eq_some_iff.mp hs
    split_ifs at hs with hphase hvalid
    · rw [← Option.some.inj hs]
      apply hi.setCall
      · intro call' home' hnext hphase'
        rw [← Option.some.inj hnext] at hphase' ⊢
        rw [← Phase.validated.inj hphase']
        exact hvalid.1
      · intro call' home' hnext hphase'
        rw [← Option.some.inj hnext] at hphase'
        cases hphase'
    · rw [← Option.some.inj hs]
      exact hi.leave
  | grant i =>
    obtain ⟨server, hserver, hs⟩ := Option.bind_eq_some_iff.mp hs
    obtain ⟨call, hcall, hs⟩ := Option.bind_eq_some_iff.mp hs
    split at hs
    · next home hphase =>
      dsimp only at hs
      split_ifs at hs
      · rw [← Option.some.inj hs]
        apply hi.setCall
        · intro call' home' hnext hphase'
          rw [← Option.some.inj hnext] at hphase'
          cases hphase'
        · intro call' home' hnext hphase'
          rw [← Option.some.inj hnext] at hphase' ⊢
          rw [← Phase.granted.inj hphase']
          exact ⟨hi.validated i call home hcall hphase, server, hserver, rfl⟩
      · rw [← Option.some.inj hs]
        exact hi.leave
    · cases hs
  | register i sessionId =>
    obtain ⟨call, hcall, hs⟩ := Option.bind_eq_some_iff.mp hs
    split at hs
    · next home hphase =>
      rw [← Option.some.inj hs]
      exact hi.register hcall hphase
    · cases hs
  | heartbeat i now =>
    obtain ⟨server, hserver, hs⟩ := Option.bind_eq_some_iff.mp hs
    obtain ⟨call, hcall, hs⟩ := Option.bind_eq_some_iff.mp hs
    split_ifs at hs
    · rw [← Option.some.inj hs]
      exact hi
    · rw [← Option.some.inj hs]
      exact hi.leave
  | leave i =>
    obtain ⟨call, hcall, rfl⟩ := Option.map_eq_some_iff.mp hs
    exact hi.leave

theorem Inv.of_reachableWhere
    (h : (machine config homes file).ReachableWhere (Sys.Fresh config) s) : s.Inv config :=
  h.invariant Inv.start fun _ _ _ _ hi hok hs => hi.step hok hs

/-- A listed Home that has a grant is shown under the grant only. -/
theorem Inv.restricted {homeId : String} {grant : SignedHomeServiceGrant} (hi : s.Inv config)
    (hgrant : ∀ server, s.authority.server = some server →
      server.businessHomeGrants.lookup homeId = some grant) :
    s.Restricted config homeId grant := by
  have hlisted : ∀ home, s.homes.catalogs.lookup homeId = some home →
      home.serviceGrant = some grant := by
    intro home hhome
    obtain ⟨server, hserver, hsame⟩ := hi.listed homeId home hhome
    rw [hsame]
    exact hgrant server hserver
  refine ⟨hlisted, ?_⟩
  intro credentials now shown hshown hid
  obtain ⟨home, hmem, hfor⟩ := List.mem_filterMap.mp hshown
  have hmem : home ∈ s.homes.catalogs.values := (List.mem_insertionSort _).mp hmem
  obtain ⟨key, hlookup⟩ := Table.mem_values.mp hmem
  have hkey : home.homeId = key := hi.keyed key home hlookup
  have hhome : home.homeId = homeId := by
    rw [← homeId_of_homeForCredentials hfor]
    exact hid
  rw [← hkey, hhome] at hlookup
  have hserviceGrant := hlisted home hlookup
  unfold homeForCredentials at hfor
  split_ifs at hfor
  obtain ⟨payload, happroved, hfor⟩ := Option.bind_eq_some_iff.mp hfor
  split_ifs at hfor
  rw [← Option.some.inj hfor]
  unfold approvedGrant at happroved
  rw [hserviceGrant] at happroved
  cases hendpoint : home.endpointCredential with
  | none =>
    rw [hendpoint] at happroved
    cases happroved
  | some endpoint =>
    rw [hendpoint] at happroved
    obtain ⟨approved, hfilter, -⟩ := Option.map_eq_some_iff.mp happroved
    obtain ⟨hverify, hchecks⟩ := Option.filter_eq_some_iff.mp hfilter
    rw [Bool.and_eq_true, beq_iff_eq] at hchecks
    refine ⟨endpoint, approved, rfl, hverify, hchecks.1.trans hhome, ?_⟩
    intro service hservice
    have hservice : service ∈ home.services := List.mem_of_mem_filter hservice
    have hallowed := hchecks.2
    unfold HomeServiceGrant.validateCatalogServices at hallowed
    rw [Bool.and_eq_true, List.all_eq_true] at hallowed
    obtain ⟨allowed, hmemAllowed, hsame⟩ := List.any_eq_true.mp (hallowed.2 service hservice)
    rw [Bool.and_eq_true, beq_iff_eq, beq_iff_eq] at hsame
    exact ⟨allowed, hmemAllowed, hsame.1, hsame.2⟩

theorem keeps_of_step {homeId : String} {grant : SignedHomeServiceGrant}
    (hk : s.authority.Keeps homeId grant) (hok : s.Fresh config a)
    (hs : s.step config homes a = some s') : s'.authority.Keeps homeId grant := by
  by_cases ha : ∃ action, a = .authority action
  · obtain ⟨action, rfl⟩ := ha
    obtain ⟨authority, h, rfl⟩ := Option.map_eq_some_iff.mp hs
    have hnext := hk.changes (AuthorizationServer.Sys.changes_of_step hok.1 h)
    split_ifs
    · exact hnext
    · exact hnext
  · have hsame := authority_of_step (fun action heq => ha ⟨action, heq⟩) hs
    rw [hsame]
    exact hk

/-- The Server and its file keep the grant of a Home from then on. -/
theorem keeps_of_steps {homeId : String} {grant : SignedHomeServiceGrant}
    (hk : s.authority.Keeps homeId grant)
    (h : Relation.ReflTransGen ((machine config homes file).StepWhere (Sys.Fresh config)) s s') :
    s'.authority.Keeps homeId grant := by
  induction h with
  | refl => exact hk
  | tail _ hstep ih =>
    obtain ⟨a, hok, hs⟩ := hstep
    exact keeps_of_step ih hok hs

/-- In every run with fresh grants and whole writes: what the Server holds could be loaded again, an
operation that fails changes nothing, and a Home that has been given a grant is restricted by it
from then on. -/
theorem restricted_of_fresh
    (h : (machine config homes file).ReachableWhere (Sys.Fresh config) s) :
    s.authority.Reloads config.toServerConfig ∧
    (∀ action error, s.Fresh config (.authority action) →
      s.authority.result config.toServerConfig action = some (.error error) →
      s.authority.step config.toServerConfig action = some s.authority) ∧
    ∀ homeId grant, s.Granted homeId grant → ∀ s',
      Relation.ReflTransGen ((machine config homes file).StepWhere (Sys.Fresh config)) s s' →
      s'.authority.Keeps homeId grant ∧ s'.Restricted config homeId grant := by
  have hi := Inv.of_reachableWhere h
  refine ⟨hi.reloads, ?_, ?_⟩
  · intro action error hok herror
    exact AuthorizationServer.Sys.step_of_error herror hok.1
  · intro homeId grant hgranted s' hrun
    obtain ⟨server, hserver, hlookup⟩ := hgranted
    have hkeeps : s.authority.Keeps homeId grant := by
      constructor
      · intro current hcurrent
        rw [hserver] at hcurrent
        rw [← Option.some.inj hcurrent]
        exact hlookup
      · rw [hi.reloads.file server hserver]
        exact hlookup
    have hkeeps' := keeps_of_steps hkeeps hrun
    have hi' : s'.Inv config := Inv.of_reachableWhere (h.trans hrun)
    exact ⟨hkeeps', hi'.restricted hkeeps'.server⟩

end Sys

/-! A Home with an endpoint until 1200, and with a later one that a grant restricts. -/

def sampleEndpoint (credentialId notAfter : ℕ) : HomeEndpointCredential where
  deploymentId := "deployment-1"
  credentialId := credentialId
  authorityId := "enrollment-1"
  authorityEpoch := 1
  enrollmentRequestId := credentialId
  homeId := "home-2"
  managementSpkiSha256 := samplePin '5'
  businessSpkiSha256 := samplePin '6'
  notBeforeUnixSecs := 500
  notAfterUnixSecs := notAfter

def sampleGrant : HomeServiceGrant where
  deploymentId := "deployment-1"
  authorityId := "enrollment-1"
  authorityEpoch := 1
  homeId := "home-2"
  endpointPayloadSha256 := sampleCodec.sha256 "e2"
  enrollmentRequestSha256 := samplePin '7'
  services := [⟨"web", .tcp, "http", ["read"]⟩]
  notBeforeUnixSecs := 500
  notAfterUnixSecs := 5000

def sampleConfig : Config :=
  { Travels.sampleConfig with
    codec := { sampleServer.codec with
      endpoint := fun payloadHex =>
        if payloadHex = "e1" then some (sampleEndpoint 1 1200)
        else if payloadHex = "e2" then some (sampleEndpoint 2 5000)
        else none
      grant := fun payloadHex => if payloadHex = "aa" then some sampleGrant else none }
    trust := { sampleDeployment with
      homeEnrollmentAuthorities := [⟨"enrollment-1", 1, "home-1", sampleKey 'e'⟩] } }

def sampleSigned (payloadHex : String) : SignedHomeEndpointCredential :=
  ⟨"enrollment-1", payloadHex, "e"⟩

def sampleSignedGrant : SignedHomeServiceGrant := ⟨"enrollment-1", "aa", "e"⟩

def sampleCatalog (payloadHex : String) : HomeCatalog where
  homeId := "home-2"
  homeAlias := "two"
  endpointCredential := some (sampleSigned payloadHex)
  services := [⟨"web", "Web", .tcp, "127.0.0.1:80"⟩]

/-- The Home of a grant registers. -/
theorem restricted_of_fresh_business : ∃ s,
    (machine sampleConfig ["home-1"] { state := {} }).ReachableWhere (Sys.Fresh sampleConfig) s ∧
    (s.homes.catalogs.lookup "home-2").isSome ∧
    s.Restricted sampleConfig "home-2" sampleSignedGrant := by
  have hrun : ((machine sampleConfig ["home-1"] { state := {} }).execWhere (Sys.Fresh sampleConfig)
      [.authority (.load .stored),
        .authority (.importBusinessHome (sampleSigned "e2") sampleSignedGrant 1300 .stored),
        .connect "home-2" 1300 1300, .validate 0 (sampleCatalog "e2") 1300, .grant 0,
        .register 0 1]).map (fun s => ((s.homes.catalogs.lookup "home-2").isSome,
        s.authority.server.bind (·.businessHomeGrants.lookup "home-2"))) =
      some (true, some sampleSignedGrant) := by
    decide +kernel
  obtain ⟨s, hexec, hs⟩ := Option.map_eq_some_iff.mp hrun
  rw [Prod.mk.injEq] at hs
  have hgranted : s.Granted "home-2" sampleSignedGrant := Option.bind_eq_some_iff.mp hs.2
  have hreach := Machine.reachableWhere_of_execWhere hexec
  refine ⟨s, hreach, hs.1, ?_⟩
  exact ((Sys.restricted_of_fresh hreach).2.2 _ _ hgranted s .refl).2

/-- The directory is not synced after the file was replaced, so an import fails and is in the file.
And a Home that stays connected when its endpoint expires is given a grant, and is listed without. -/
theorem not_restricted_of_reachable :
    (¬ ∀ s, (machine sampleConfig ["home-1"] { state := {} }).Reachable s → ∀ action error,
      s.authority.result sampleConfig.toServerConfig action = some (.error error) →
      s.authority.step sampleConfig.toServerConfig action = some s.authority) ∧
    ¬ ∀ s, (machine sampleConfig ["home-1"] { state := {} }).Reachable s → ∀ homeId grant,
      s.Granted homeId grant → s.Restricted sampleConfig homeId grant := by
  constructor
  · intro h
    let replaced : AuthorizationServer.Action :=
      .importHomeEndpoint (sampleSigned "e1") 600 .replaced
    have hrun : ((machine sampleConfig ["home-1"] { state := {} }).exec
        [.authority (.load .stored)]).map (fun s =>
          (s.authority.file.state.snapshot.generation,
            (s.authority.step sampleConfig.toServerConfig replaced).map
              (·.file.state.snapshot.generation),
            decide (s.authority.result sampleConfig.toServerConfig replaced =
              some (.error .notStored)))) = some (1, some 2, true) := by
      decide +kernel
    obtain ⟨s, hexec, hs⟩ := Option.map_eq_some_iff.mp hrun
    simp only [Prod.mk.injEq, decide_eq_true_eq] at hs
    obtain ⟨hgeneration, hafter, hresult⟩ := hs
    rw [h s (Machine.reachable_of_exec hexec) replaced .notStored hresult, Option.map_some,
      hgeneration] at hafter
    cases hafter
  · intro h
    have hrun : ((machine sampleConfig ["home-1"] { state := {} }).exec
        [.authority (.load .stored),
          .authority (.importHomeEndpoint (sampleSigned "e1") 600 .stored),
          .connect "home-2" 600 600, .validate 0 (sampleCatalog "e1") 600, .grant 0, .register 0 1,
          .authority (.importBusinessHome (sampleSigned "e2") sampleSignedGrant 1300 .stored)]).map
        (fun s => (s.homes.catalogs.lookup "home-2",
          s.authority.server.bind (·.businessHomeGrants.lookup "home-2"))) =
        some (some (sampleCatalog "e1"), some sampleSignedGrant) := by
      decide +kernel
    obtain ⟨s, hexec, hs⟩ := Option.map_eq_some_iff.mp hrun
    rw [Prod.mk.injEq] at hs
    have hgranted : s.Granted "home-2" sampleSignedGrant := Option.bind_eq_some_iff.mp hs.2
    have hrestricted := h s (Machine.reachable_of_exec hexec) _ _ hgranted
    cases hrestricted.listed _ hs.1

end FlowSplice.Server.HomeGrants
