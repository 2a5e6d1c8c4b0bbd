import FlowSplice.Server.Reports

/-! Each report is checked alone and the signed document as a whole. What is left between the two
are the conditions over several nodes: the Server signs for a Travel exactly where they hold. -/
namespace FlowSplice.Server.Travels

open Control (RelayEndpoint RelayDirectory HomeCatalog Catalog ControlSnapshotPayload
  SignedControlSnapshot)

variable {config : Config} {relays : List String} {registry : RelayDirectoryRegistry}
  {relayId : String} {sessionId : Uuid} {endpoint : Option RelayEndpoint}

theorem validateAdvertisedAddr_ok {label address : String}
    (h : validateAdvertisedAddr label address = .ok ()) :
    address ≠ "" ∧ address.utf8ByteSize ≤ 512 := by
  unfold validateAdvertisedAddr at h
  split_ifs at h with hlong
  constructor
  · rintro rfl
    have hnil : SocketAddr.parse (stringBytes "") = none := SocketAddr.parse_nil
    rw [hnil] at h
    cases h
  · omega

/-- What each entry of the directory has, whichever Relay reported it. -/
structure EndpointSound (relays : List String) (e : RelayEndpoint) : Prop where
  id_mem : e.id ∈ relays
  management_ne : e.managementAddr ≠ ""
  management_le : e.managementAddr.utf8ByteSize ≤ 512
  data_ne : e.dataPublicAddr ≠ ""
  data_le : e.dataPublicAddr.utf8ByteSize ≤ 512
  pin : validSpkiPin e.managementSpkiSha256 = true

theorem acceptsEndpoint_some {e : RelayEndpoint}
    (h : acceptsEndpoint relays relayId (some e) = true) :
    e.id = relayId ∧ EndpointSound relays e := by
  simp only [acceptsEndpoint, Option.all_some, Bool.and_eq_true, beq_iff_eq,
    List.contains_iff_mem] at h
  obtain ⟨hmem, ⟨hid, hpin⟩, hadvertised⟩ := h
  have hmem : e.id ∈ relays := by
    rw [hid]
    exact hmem
  refine ⟨hid, ?_⟩
  unfold validateRelayAdvertisement at hadvertised
  split at hadvertised
  · cases hadvertised
  · rename_i hmanagement
    have hm := validateAdvertisedAddr_ok hmanagement
    have hd := validateAdvertisedAddr_ok hadvertised
    exact ⟨hmem, hm.1, hm.2, hd.1, hd.2, hpin⟩

/-- The endpoints that the Server accepts are those that it reads of configured Relays. -/
theorem acceptsEndpoint_iff :
    acceptsEndpoint relays relayId endpoint = true ↔ relayId ∈ relays ∧
      ∃ spki message, validSpkiPin spki = true ∧
        readRelayEndpoint relayId spki message = .ok endpoint := by
  constructor
  · intro h
    have hmem : relayId ∈ relays := by
      simp only [acceptsEndpoint, Bool.and_eq_true, List.contains_iff_mem] at h
      exact h.1
    refine ⟨hmem, ?_⟩
    cases endpoint with
    | none => exact ⟨samplePin '1', none, by decide, rfl⟩
    | some e =>
      simp only [acceptsEndpoint, Option.all_some, Bool.and_eq_true, beq_iff_eq] at h
      obtain ⟨-, ⟨hid, hpin⟩, hadvertised⟩ := h
      refine ⟨e.managementSpkiSha256, some ⟨e.managementAddr, e.dataPublicAddr⟩, hpin, ?_⟩
      simp only [readRelayEndpoint, hadvertised, ← hid]
  · rintro ⟨hmem, spki, message, hpin, hread⟩
    cases message with
    | none =>
      injection hread with hread
      subst hread
      simp [acceptsEndpoint, hmem]
    | some advertisement =>
      simp only [readRelayEndpoint] at hread
      split at hread
      · cases hread
      · rename_i hadvertised
        injection hread with hread
        subst hread
        simp [acceptsEndpoint, hmem, hpin, hadvertised]

/-! What reaches the registries. -/

/-- The endpoints that the sessions of a registry list. -/
def listed (registry : RelayDirectoryRegistry) : List RelayEndpoint :=
  registry.sessions.values.filterMap (·.endpoint)

theorem mem_directory {e : RelayEndpoint} :
    e ∈ registry.directory.relays ↔ e ∈ listed registry :=
  List.mem_insertionSort _

theorem perm_directory (registry : RelayDirectoryRegistry) :
    registry.directory.relays.Perm (listed registry) :=
  List.perm_insertionSort _ _

theorem mem_listed {e : RelayEndpoint} : e ∈ listed registry ↔
    ∃ id session, registry.sessions.lookup id = some session ∧ session.endpoint = some e := by
  simp only [listed, List.mem_filterMap, Table.mem_values]
  constructor
  · rintro ⟨session, ⟨id, hsession⟩, hendpoint⟩
    exact ⟨id, session, hsession, hendpoint⟩
  · rintro ⟨id, session, hsession, hendpoint⟩
    exact ⟨session, ⟨id, hsession⟩, hendpoint⟩

/-- A registry whose sessions list what the Server accepted of their Relays. -/
def RegistrySound (relays : List String) (registry : RelayDirectoryRegistry) : Prop :=
  ∀ id session, registry.sessions.lookup id = some session →
    acceptsEndpoint relays id session.endpoint = true

theorem RegistrySound.endpoint_sound {e : RelayEndpoint} (h : RegistrySound relays registry)
    (he : e ∈ registry.directory.relays) : EndpointSound relays e := by
  obtain ⟨id, session, hsession, hendpoint⟩ := mem_listed.mp (mem_directory.mp he)
  have haccepts := h id session hsession
  rw [hendpoint] at haccepts
  exact (acceptsEndpoint_some haccepts).2

/-- Ids of Relays are those of their sessions, so they are distinct. -/
theorem RegistrySound.nodup_ids (h : RegistrySound relays registry) :
    (registry.directory.relays.map (·.id)).Nodup := by
  have hlisted : ((listed registry).map (·.id)).Nodup := by
    apply Table.nodup_filterMap_values
    intro id session e hsession hendpoint
    have haccepts := h id session hsession
    rw [hendpoint] at haccepts
    exact (acceptsEndpoint_some haccepts).1
  exact ((perm_directory registry).map _).nodup_iff.mpr hlisted

theorem RegistrySound.insert {generation : ℕ} (h : RegistrySound relays registry)
    (haccepts : acceptsEndpoint relays relayId endpoint = true) :
    RegistrySound relays ⟨generation, registry.sessions.insert relayId ⟨sessionId, endpoint⟩⟩ := by
  intro id session hsession
  rcases Table.lookup_insert_cases hsession with ⟨rfl, rfl⟩ | ⟨-, hsession⟩
  · exact haccepts
  · exact h id session hsession

theorem RegistrySound.erase {generation : ℕ} (h : RegistrySound relays registry) :
    RegistrySound relays ⟨generation, registry.sessions.erase relayId⟩ := by
  intro id session hsession
  exact h id session (Table.lookup_erase_cases hsession).2

/-- One valid catalog for each Home, under its id. -/
def HomesSound (homes : HomeRegistry) : Prop :=
  ∀ id home, homes.catalogs.lookup id = some home →
    home.homeId = id ∧ Control.validateCatalog { generation := 1, homes := [home] } = true

theorem HomesSound.insert {homes homes' : HomeRegistry} {home : HomeCatalog}
    (h : HomesSound homes) (hcatalogs : homes'.catalogs = homes.catalogs.insert home.homeId home)
    (hvalid : Control.validateCatalog { generation := 1, homes := [home] } = true) :
    HomesSound homes' := by
  intro id other hother
  rw [hcatalogs] at hother
  rcases Table.lookup_insert_cases hother with ⟨rfl, rfl⟩ | ⟨-, hother⟩
  · exact ⟨rfl, hvalid⟩
  · exact h id other hother

theorem HomesSound.remove {homes : HomeRegistry} (h : HomesSound homes) (homeId : String)
    (sessionId : Uuid) : HomesSound (homes.remove homeId sessionId).1 := by
  unfold HomeRegistry.remove
  split_ifs
  · exact h
  · intro id home hhome
    exact h id home (Table.lookup_erase_cases hhome).2
  · exact h

theorem acceptsHome_valid {server : ServerAuthorization} {home : HomeCatalog} {now : ℕ}
    (h : acceptsHome config server home now = true) :
    Control.validateCatalog { generation := 1, homes := [home] } = true := by
  simp only [acceptsHome, Bool.and_eq_true] at h
  exact h.2

namespace Sys
variable {s s' : Sys} {a : Action}

/-- The registries stay as they are, and no generation comes back. -/
structure Keeps (s s' : Sys) : Prop where
  registry : s'.registry = s.registry
  homes : s'.homes = s.homes
  next : s.nextGeneration ≤ s'.nextGeneration

theorem Keeps.refl (s : Sys) : s.Keeps s := ⟨rfl, rfl, Nat.le_refl _⟩

theorem keeps_authorityStep {action : AuthorizationServer.Action}
    (h : s.authorityStep config action = some s') : s.Keeps s' := by
  unfold authorityStep at h
  split at h
  · cases h
  · cases h
  · obtain ⟨authority, -, rfl⟩ := Option.map_eq_some_iff.mp h
    exact ⟨rfl, rfl, Nat.le_refl _⟩

theorem keeps_read {i : ℕ} (h : s.read i = some s') : s.Keeps s' := by
  unfold read at h
  split at h
  · split at h
    · split at h
      · rw [← Option.some.inj h]
        exact ⟨rfl, rfl, Nat.le_refl _⟩
      · rw [← Option.some.inj h]
        exact ⟨rfl, rfl, Nat.le_refl _⟩
    · cases h
  · cases h

theorem keeps_login {i instant : ℕ} (h : s.login i instant = some s') : s.Keeps s' := by
  obtain ⟨call, -, h⟩ := Option.bind_eq_some_iff.mp h
  split at h
  · split at h
    · rw [← Option.some.inj h]
      exact ⟨rfl, rfl, Nat.le_refl _⟩
    · rw [← Option.some.inj h]
      exact ⟨rfl, rfl, Nat.le_refl _⟩
  · cases h

theorem keeps_list {i : ℕ} (h : s.list config i = some s') : s.Keeps s' := by
  obtain ⟨call, -, h⟩ := Option.bind_eq_some_iff.mp h
  split at h
  · dsimp only at h
    split at h
    · rw [← Option.some.inj h]
      exact ⟨rfl, rfl, Nat.le_refl _⟩
    · rw [← Option.some.inj h]
      exact ⟨rfl, rfl, Nat.le_refl _⟩
  · cases h

theorem keeps_sign {i : ℕ} {stored : Bool} (h : s.sign config i stored = some s') :
    s.Keeps s' := by
  obtain ⟨call, -, h⟩ := Option.bind_eq_some_iff.mp h
  split at h
  · split at h
    · rename_i hsign
      have hle := sign_none hsign
      rw [← Option.some.inj h]
      exact ⟨rfl, rfl, hle⟩
    · rename_i payload next hsign
      have hnext : s.nextGeneration ≤ next := by
        have := (sign_some hsign).2.1
        omega
      dsimp only at h
      split_ifs at h
      · rw [← Option.some.inj h]
        exact ⟨rfl, rfl, hnext⟩
      · rw [← Option.some.inj h]
        exact ⟨rfl, rfl, hnext⟩
  · cases h

theorem keeps_find {i : ℕ} (h : s.find i = some s') : s.Keeps s' := by
  obtain ⟨call, -, h⟩ := Option.bind_eq_some_iff.mp h
  split at h
  · split at h
    · rw [← Option.some.inj h]
      exact ⟨rfl, rfl, Nat.le_refl _⟩
    · rw [← Option.some.inj h]
      exact ⟨rfl, rfl, Nat.le_refl _⟩
  · cases h

theorem keeps_grant {i instant : ℕ} {workId : Uuid} {workSecret : Bytes}
    (h : s.grant config i workId workSecret instant = some s') : s.Keeps s' := by
  obtain ⟨call, -, h⟩ := Option.bind_eq_some_iff.mp h
  split at h
  · split at h
    · rw [← Option.some.inj h]
      exact ⟨rfl, rfl, Nat.le_refl _⟩
    · rw [← Option.some.inj h]
      exact ⟨rfl, rfl, Nat.le_refl _⟩
  · cases h

theorem keeps_ready (relayId : String) (requestId workId : Uuid) (instant : ℕ) :
    s.Keeps (s.ready relayId requestId workId instant) := by
  unfold ready
  split <;> exact ⟨rfl, rfl, Nat.le_refl _⟩

theorem keeps_revoke {homeId reason : String} {credentialId : Uuid} {outcome : StoreOutcome}
    (h : s.revoke config homeId credentialId reason outcome = some s') : s.Keeps s' := by
  unfold revoke at h
  split_ifs at h
  · rw [← Option.some.inj h]
    exact .refl s
  · obtain ⟨server, -, h⟩ := Option.bind_eq_some_iff.mp h
    obtain ⟨authority, -, rfl⟩ := Option.map_eq_some_iff.mp h
    split
    · exact ⟨rfl, rfl, Nat.le_refl _⟩
    · exact ⟨rfl, rfl, Nat.le_refl _⟩
    · split_ifs <;> exact ⟨rfl, rfl, Nat.le_refl _⟩

/-- What a change of the directory makes of the registry. -/
theorem changeRegistry_cases (s : Sys) (stored : Bool)
    (change : ℕ → Option RelayDirectoryRegistry) :
    s.Keeps (s.changeRegistry stored change) ∨
      ∃ registry, change s.nextGeneration = some registry ∧
        s.changeRegistry stored change =
          { s with nextGeneration := s.nextGeneration + 1, registry := registry } := by
  unfold changeRegistry
  cases halloc : allocateGeneration s.nextGeneration stored with
  | none => exact .inl (.refl s)
  | some allocated =>
    obtain ⟨generation, next⟩ := allocated
    obtain ⟨rfl, rfl⟩ := allocateGeneration_eq_some halloc
    dsimp only
    cases hchange : change s.nextGeneration with
    | none => exact .inl ⟨rfl, rfl, Nat.le_succ _⟩
    | some registry => exact .inr ⟨registry, rfl, rfl⟩

/-- How a step changes the registries. -/
inductive Reports (config : Config) (s : Sys) : Action → Sys → Prop where
  | keeps (a : Action) (t : Sys) (h : s.Keeps t) : Reports config s a t
  | replaceRelay (relayId : String) (sessionId : Uuid) (endpoint : Option RelayEndpoint)
      (stored : Bool) : Reports config s (.replaceRelay relayId sessionId endpoint stored)
        { s with
          nextGeneration := s.nextGeneration + 1
          registry := ⟨s.nextGeneration,
            s.registry.sessions.insert relayId ⟨sessionId, endpoint⟩⟩ }
  | updateRelay (relayId : String) (sessionId : Uuid) (endpoint : Option RelayEndpoint)
      (stored : Bool) : Reports config s (.updateRelay relayId sessionId endpoint stored)
        { s with
          nextGeneration := s.nextGeneration + 1
          registry := ⟨s.nextGeneration,
            s.registry.sessions.insert relayId ⟨sessionId, endpoint⟩⟩ }
  | unregisterRelay (relayId : String) (sessionId : Uuid) (stored : Bool) :
      Reports config s (.unregisterRelay relayId sessionId stored)
        { s with
          nextGeneration := s.nextGeneration + 1
          registry := ⟨s.nextGeneration, s.registry.sessions.erase relayId⟩ }
  | home (a : Action) (home : HomeCatalog) (homes : HomeRegistry)
      (ha : ∃ sessionId, a = .registerHome home sessionId ∨ a = .updateCatalog home sessionId)
      (hcatalogs : homes.catalogs = s.homes.catalogs.insert home.homeId home) :
      Reports config s a { s with homes := homes }
  | removeHome (homeId : String) (sessionId : Uuid) :
      Reports config s (.removeHome homeId sessionId)
        { s with homes := (s.homes.remove homeId sessionId).1 }

theorem act_reports (h : s.act config a = some s') : s.Reports config a s' := by
  cases a with
  | tick now => exact .keeps _ _ (Option.some.inj h ▸ ⟨rfl, rfl, Nat.le_refl _⟩)
  | authority action => exact .keeps _ _ (keeps_authorityStep h)
  | registerHome home sessionId =>
    rw [← Option.some.inj h]
    exact .home _ home _ ⟨sessionId, .inl rfl⟩ rfl
  | updateCatalog home sessionId =>
    rw [← Option.some.inj h]
    unfold HomeRegistry.updateCatalog
    split_ifs
    · exact .keeps _ _ ⟨rfl, rfl, Nat.le_refl _⟩
    · exact .home _ home _ ⟨sessionId, .inr rfl⟩ rfl
  | removeHome homeId sessionId =>
    rw [← Option.some.inj h]
    exact .removeHome homeId sessionId
  | replaceRelay relayId sessionId endpoint stored =>
    rw [← Option.some.inj h]
    rcases s.changeRegistry_cases stored fun generation =>
      some (s.registry.replaceSession relayId sessionId endpoint generation) with
      hkeeps | ⟨registry, hregistry, hchange⟩
    · exact .keeps _ _ hkeeps
    · rw [hchange, ← Option.some.inj hregistry]
      exact .replaceRelay relayId sessionId endpoint stored
  | updateRelay relayId sessionId endpoint stored =>
    simp only [act] at h
    split_ifs at h with hcurrent
    rw [← Option.some.inj h]
    rcases s.changeRegistry_cases stored (s.registry.updateSession relayId sessionId endpoint) with
      hkeeps | ⟨registry, hregistry, hchange⟩
    · exact .keeps _ _ hkeeps
    · unfold RelayDirectoryRegistry.updateSession at hregistry
      rw [if_pos hcurrent] at hregistry
      rw [hchange, ← Option.some.inj hregistry]
      exact .updateRelay relayId sessionId endpoint stored
  | unregisterRelay relayId sessionId stored =>
    simp only [act] at h
    split_ifs at h with hcurrent
    rw [← Option.some.inj h]
    rcases s.changeRegistry_cases stored (s.registry.unregisterSession relayId sessionId) with
      hkeeps | ⟨registry, hregistry, hchange⟩
    · exact .keeps _ _ hkeeps
    · unfold RelayDirectoryRegistry.unregisterSession at hregistry
      rw [if_pos hcurrent] at hregistry
      rw [hchange, ← Option.some.inj hregistry]
      exact .unregisterRelay relayId sessionId stored
  | releaseTravel travelId sessionId leaseId =>
    exact .keeps _ _ (Option.some.inj h ▸ ⟨rfl, rfl, Nat.le_refl _⟩)
  | pruneTravels instant => exact .keeps _ _ (Option.some.inj h ▸ ⟨rfl, rfl, Nat.le_refl _⟩)
  | authorize asked => exact .keeps _ _ (Option.some.inj h ▸ ⟨rfl, rfl, Nat.le_refl _⟩)
  | request route => exact .keeps _ _ (Option.some.inj h ▸ ⟨rfl, rfl, Nat.le_refl _⟩)
  | read i => exact .keeps _ _ (keeps_read h)
  | login i instant => exact .keeps _ _ (keeps_login h)
  | locate i =>
    obtain ⟨call, -, h⟩ := Option.bind_eq_some_iff.mp h
    split at h
    · rw [← Option.some.inj h]
      exact .keeps _ _ ⟨rfl, rfl, Nat.le_refl _⟩
    · cases h
  | list i => exact .keeps _ _ (keeps_list h)
  | sign i stored => exact .keeps _ _ (keeps_sign h)
  | find i => exact .keeps _ _ (keeps_find h)
  | grant i workId workSecret instant => exact .keeps _ _ (keeps_grant h)
  | ready relayId requestId workId instant =>
    rw [← Option.some.inj h]
    exact .keeps _ _ (keeps_ready relayId requestId workId instant)
  | deliver i =>
    obtain ⟨pending, -, rfl⟩ := Option.map_eq_some_iff.mp h
    exact .keeps _ _ ⟨rfl, rfl, Nat.le_refl _⟩
  | abandon i =>
    obtain ⟨pending, -, rfl⟩ := Option.map_eq_some_iff.mp h
    exact .keeps _ _ ⟨rfl, rfl, Nat.le_refl _⟩
  | expireGrants instant => exact .keeps _ _ (Option.some.inj h ▸ ⟨rfl, rfl, Nat.le_refl _⟩)
  | dropRelay relayId => exact .keeps _ _ (Option.some.inj h ▸ ⟨rfl, rfl, Nat.le_refl _⟩)
  | revoke homeId credentialId reason outcome => exact .keeps _ _ (keeps_revoke h)
  | retain i =>
    obtain ⟨revocation, -, h⟩ := Option.bind_eq_some_iff.mp h
    split_ifs at h
    rw [← Option.some.inj h]
    exact .keeps _ _ ⟨rfl, rfl, Nat.le_refl _⟩
  | conclude i =>
    obtain ⟨revocation, -, h⟩ := Option.bind_eq_some_iff.mp h
    split_ifs at h
    rw [← Option.some.inj h]
    exact .keeps _ _ ⟨rfl, rfl, Nat.le_refl _⟩

/-- What the registries of a Server hold that accepted every report. -/
structure Reported (relays : List String) (s : Sys) : Prop where
  registry : RegistrySound relays s.registry
  homes : HomesSound s.homes
  generation : 0 < s.registry.generation
  next : 0 < s.nextGeneration

theorem Reported.reports (hi : s.Reported relays) (hok : s.Accepts config relays a)
    (h : s.Reports config a s') : s'.Reported relays := by
  have hnext := hi.next
  cases h with
  | keeps _ _ hkeeps =>
    have hle := hkeeps.next
    refine ⟨?_, ?_, ?_, ?_⟩
    · rw [hkeeps.registry]
      exact hi.registry
    · rw [hkeeps.homes]
      exact hi.homes
    · rw [hkeeps.registry]
      exact hi.generation
    · omega
  | replaceRelay relayId sessionId endpoint stored =>
    exact ⟨hi.registry.insert hok, hi.homes, hnext, Nat.succ_pos _⟩
  | updateRelay relayId sessionId endpoint stored =>
    exact ⟨hi.registry.insert hok, hi.homes, hnext, Nat.succ_pos _⟩
  | unregisterRelay relayId sessionId stored =>
    exact ⟨hi.registry.erase, hi.homes, hnext, Nat.succ_pos _⟩
  | home _ home homes ha hcatalogs =>
    have haccepts : (s.authority.server.any fun server =>
        acceptsHome config server home s.clock) = true := by
      obtain ⟨sessionId, rfl | rfl⟩ := ha
      · exact hok
      · exact hok
    obtain ⟨server, -, hserver⟩ := (Option.any_eq_true _ _).mp haccepts
    exact ⟨hi.registry, hi.homes.insert hcatalogs (acceptsHome_valid hserver), hi.generation, hnext⟩
  | removeHome homeId sessionId =>
    exact ⟨hi.registry, hi.homes.remove homeId sessionId, hi.generation, hnext⟩

theorem Reported.step (hi : s.Reported relays) (hok : s.Accepts config relays a)
    (h : s.step config a = some s') : s'.Reported relays := by
  obtain ⟨t, hact, rfl⟩ := Option.map_eq_some_iff.mp h
  have ht := hi.reports hok (act_reports hact)
  exact ⟨ht.registry, ht.homes, ht.generation, ht.next⟩

theorem reported_of_reachableWhere {file : AuthorizationFile} {generation : ℕ}
    (h : (machine config file (generation + 1)).ReachableWhere (Accepts config relays) s) :
    s.Reported relays := by
  apply h.invariant
  · refine ⟨?_, ?_, Nat.succ_pos _, Nat.succ_pos _⟩
    · intro id session hsession
      cases hsession
    · intro id home hhome
      cases hhome
  · intro t a t' _ ht hok hstep
    exact ht.step hok hstep

end Sys

/-! The conditions over several Relays. -/

/-- `RelaysApart`, of the endpoints that are listed in any order. -/
def ListedApart (endpoints : List RelayEndpoint) : Prop :=
  (endpoints.map (·.managementAddr)).Nodup ∧ endpoints.length ≤ Control.maxRelayEndpoints ∧
    ∀ relay ∈ endpoints, relay.id.utf8ByteSize ≤ maxIdBytes

theorem relaysApart_iff : RelaysApart registry ↔ ListedApart (listed registry) := by
  have hperm := perm_directory registry
  have hnodup := (hperm.map fun relay : RelayEndpoint => relay.managementAddr).nodup_iff
  have hlen := hperm.length_eq
  unfold RelaysApart ListedApart
  rw [hnodup, hlen]
  simp only [mem_directory]

theorem ListedApart.sublist {endpoints endpoints' : List RelayEndpoint}
    (h : ListedApart endpoints) (hsub : endpoints'.Sublist endpoints) : ListedApart endpoints' := by
  obtain ⟨hnodup, hlen, hids⟩ := h
  have hle := hsub.length_le
  refine ⟨(hsub.map _).nodup hnodup, by omega, ?_⟩
  intro relay hrelay
  exact hids relay (hsub.subset hrelay)

theorem listed_insert {generation : ℕ} :
    listed ⟨generation, registry.sessions.insert relayId ⟨sessionId, endpoint⟩⟩ =
      endpoint.toList ++ listedBeside registry relayId := by
  unfold listed listedBeside
  dsimp only
  rw [Table.values_insert]
  cases endpoint with
  | none => rfl
  | some e => rfl

theorem listedBeside_sublist : (listedBeside registry relayId).Sublist (listed registry) :=
  Table.values_erase_sublist.filterMap _

/-- A report keeps the Relays apart exactly if its address is new and it fits. -/
theorem ListedApart.append (h : ListedApart (listedBeside registry relayId))
    (hnew : ∀ e ∈ endpoint, e.id.utf8ByteSize ≤ maxIdBytes ∧
      (listedBeside registry relayId).length < Control.maxRelayEndpoints ∧
      ∀ other ∈ listedBeside registry relayId, other.managementAddr ≠ e.managementAddr) :
    ListedApart (endpoint.toList ++ listedBeside registry relayId) := by
  cases endpoint with
  | none => exact h
  | some e =>
    obtain ⟨hnodup, hlen, hids⟩ := h
    obtain ⟨hid, hfits, haddr⟩ := hnew e rfl
    refine ⟨?_, hfits, ?_⟩
    · show (e.managementAddr :: (listedBeside registry relayId).map (·.managementAddr)).Nodup
      rw [List.nodup_cons]
      refine ⟨?_, hnodup⟩
      rw [List.mem_map]
      rintro ⟨other, hother, heq⟩
      exact haddr other hother heq
    · intro relay hrelay
      rcases List.mem_cons.mp hrelay with rfl | hrelay
      · exact hid
      · exact hids relay hrelay

namespace Sys
variable {s s' : Sys} {a : Action}

theorem listedApart_step (hi : ListedApart (listed s.registry)) (hok : s.Apart a)
    (h : s.step config a = some s') : ListedApart (listed s'.registry) := by
  obtain ⟨t, hact, rfl⟩ := Option.map_eq_some_iff.mp h
  show ListedApart (listed t.registry)
  cases act_reports hact with
  | keeps _ _ hkeeps =>
    rw [hkeeps.registry]
    exact hi
  | replaceRelay relayId sessionId endpoint stored =>
    rw [listed_insert]
    exact (hi.sublist listedBeside_sublist).append hok
  | updateRelay relayId sessionId endpoint stored =>
    rw [listed_insert]
    exact (hi.sublist listedBeside_sublist).append hok
  | unregisterRelay relayId sessionId stored => exact hi.sublist listedBeside_sublist
  | home _ home homes ha hcatalogs => exact hi
  | removeHome homeId sessionId => exact hi

theorem relaysApart_of_reachableWhere {file : AuthorizationFile} {generation : ℕ}
    (h : (machine config file (generation + 1)).ReachableWhere
      (fun s a => s.Accepts config relays a ∧ s.Apart a) s) : RelaysApart s.registry := by
  rw [relaysApart_iff]
  apply h.invariant
  · refine ⟨List.nodup_nil, Nat.zero_le _, ?_⟩
    intro relay hrelay
    cases hrelay
  · intro t a t' _ ht hok hstep
    exact listedApart_step ht hok.2 hstep

end Sys

/-! What the signed document is checked for. -/

theorem validateRelayDirectory_iff (h : RegistrySound relays registry) (hrelays : "" ∉ relays)
    (hgeneration : 0 < registry.generation) :
    Control.validateRelayDirectory registry.directory = true ↔
      registry.directory.relays ≠ [] ∧ RelaysApart registry := by
  have hids := h.nodup_ids
  have hsound : ∀ e ∈ registry.directory.relays, EndpointSound relays e := by
    intro e he
    exact h.endpoint_sound he
  have hpositive : registry.directory.generation ≠ 0 := Nat.pos_iff_ne_zero.mp hgeneration
  unfold Control.validateRelayDirectory RelaysApart
  simp only [Bool.and_eq_true, bne_iff_ne, ne_eq, Bool.not_eq_true', decide_eq_true_eq,
    List.all_eq_true, List.isEmpty_eq_false_iff]
  constructor
  · rintro ⟨⟨⟨⟨⟨-, hne⟩, hlen⟩, hall⟩, -⟩, hnodup⟩
    refine ⟨hne, hnodup, hlen, ?_⟩
    intro e he
    exact (hall e he).1.1.1.1.1.2
  · rintro ⟨hne, hnodup, hlen, hsize⟩
    refine ⟨⟨⟨⟨⟨hpositive, hne⟩, hlen⟩, ?_⟩, hids⟩, hnodup⟩
    intro e he
    have hs := hsound e he
    have hid : e.id ≠ "" := by
      intro hempty
      rw [← hempty] at hrelays
      exact hrelays hs.id_mem
    have hmax : maxDisplayOrTargetBytes = 512 := rfl
    refine ⟨⟨⟨⟨⟨⟨?_, hsize e he⟩, ?_⟩, ?_⟩, ?_⟩, ?_⟩, hs.pin⟩
    · simpa using hid
    · simpa using hs.management_ne
    · exact hs.management_le
    · simpa using hs.data_ne
    · exact hs.data_le

/-- What `validate_catalog` checks of one Home. -/
def homeOk (home : HomeCatalog) : Bool :=
  !home.homeId.isEmpty && decide (home.homeId.utf8ByteSize ≤ maxIdBytes) &&
    !home.homeAlias.isEmpty && decide (home.homeAlias.utf8ByteSize ≤ maxDisplayOrTargetBytes) &&
    decide (home.services.length ≤ Control.maxServicesPerHome) &&
    home.services.all (fun service =>
      !service.id.isEmpty && decide (service.id.utf8ByteSize ≤ maxIdBytes) &&
        !service.aliasName.isEmpty &&
        decide (service.aliasName.utf8ByteSize ≤ maxDisplayOrTargetBytes) &&
        !service.target.isEmpty &&
        decide (service.target.utf8ByteSize ≤ maxDisplayOrTargetBytes)) &&
    decide (home.services.map fun service => (service.id, service.protocol)).Nodup

theorem validateCatalog_iff {catalog : Catalog} : Control.validateCatalog catalog = true ↔
    catalog.homes.length ≤ Control.maxCatalogHomes ∧ (∀ home ∈ catalog.homes, homeOk home = true) ∧
      (catalog.homes.map (·.homeId)).Nodup := by
  have heq : Control.validateCatalog catalog =
      (decide (catalog.homes.length ≤ Control.maxCatalogHomes) && catalog.homes.all homeOk &&
        decide (catalog.homes.map (·.homeId)).Nodup) := rfl
  rw [heq]
  simp only [Bool.and_eq_true, decide_eq_true_eq, List.all_eq_true, and_assoc]

/-- A Home with fewer services is as good. -/
theorem homeOk_sublist {home : HomeCatalog} {services : List Control.Service}
    (h : homeOk home = true) (hsub : services.Sublist home.services) :
    homeOk { home with services := services } = true := by
  simp only [homeOk, Bool.and_eq_true, decide_eq_true_eq, List.all_eq_true] at h ⊢
  obtain ⟨⟨⟨hhome, hlen⟩, hall⟩, hnodup⟩ := h
  have hle := hsub.length_le
  refine ⟨⟨⟨hhome, by omega⟩, ?_⟩, (hsub.map _).nodup hnodup⟩
  intro service hservice
  exact hall service (hsub.subset hservice)

theorem homeOk_of_homeForCredentials {credentials : List TravelCredential} {now : ℕ}
    {home shown : HomeCatalog} (h : homeOk home = true)
    (hshown : homeForCredentials config.codec.toCodec credentials (some config.trust) now home =
      some shown) : homeOk shown = true := by
  unfold homeForCredentials at hshown
  split_ifs at hshown
  obtain ⟨grant, -, hshown⟩ := Option.bind_eq_some_iff.mp hshown
  split_ifs at hshown
  rw [← Option.some.inj hshown]
  exact homeOk_sublist h List.filter_sublist

/-- The Homes that a Travel is shown are valid; there may be too many of them. -/
theorem validateCatalog_shown {homes : HomeRegistry} (h : HomesSound homes)
    (credentials : List TravelCredential) (now : ℕ) :
    Control.validateCatalog (catalogForCredentials config.codec.toCodec homes.catalog credentials
        (some config.trust) now) = true ↔
      (catalogForCredentials config.codec.toCodec homes.catalog credentials (some config.trust)
        now).homes.length ≤ Control.maxCatalogHomes := by
  have hperm : homes.catalog.homes.Perm homes.catalogs.values := List.perm_insertionSort _ _
  have hok : ∀ home ∈ homes.catalog.homes, homeOk home = true := by
    intro home hhome
    obtain ⟨id, hlookup⟩ := Table.mem_values.mp (hperm.mem_iff.mp hhome)
    have hvalid := (validateCatalog_iff.mp (h id home hlookup).2).2.1
    exact hvalid home (List.mem_singleton_self home)
  have hnodup : (homes.catalog.homes.map (·.homeId)).Nodup := by
    have hvalues : ((homes.catalogs.values.filterMap some).map (·.homeId)).Nodup := by
      apply Table.nodup_filterMap_values
      intro id home home' hlookup heq
      rw [← Option.some.inj heq]
      exact (h id home hlookup).1
    rw [List.filterMap_some] at hvalues
    exact (hperm.map _).nodup_iff.mpr hvalues
  rw [validateCatalog_iff]
  constructor
  · intro hall
    exact hall.1
  · intro hlen
    refine ⟨hlen, ?_, ?_⟩
    · intro shown hshown
      obtain ⟨home, hhome, hfor⟩ := List.mem_filterMap.mp hshown
      exact homeOk_of_homeForCredentials (hok home hhome) hfor
    · apply List.Nodup.sublist _ hnodup
      apply Keyed.sublist_map_filterMap
      intro home _ shown hshown
      exact homeId_of_homeForCredentials hshown

/-! What the Server's own settings bring along. -/

theorem Config.Started.controlKey (h : config.Started relays) :
    ∃ publicKey, config.trust.serverControlKey config.id config.signerEpoch = some publicKey ∧
      eqIgnoreAsciiCase publicKey config.controlPublicKey = true ∧
      validP256PublicKey publicKey = true ∧ config.signerEpoch ≠ 0 := by
  obtain ⟨key, hfilter, hepoch⟩ := h.key
  have hmem : key ∈ config.trust.serverControlKeys.filter fun candidate =>
      candidate.serverId == config.id &&
        eqIgnoreAsciiCase candidate.publicKey config.controlPublicKey := by
    rw [hfilter]
    exact List.mem_singleton_self key
  obtain ⟨hkey, hmatch⟩ := List.mem_filter.mp hmem
  simp only [Bool.and_eq_true, beq_iff_eq] at hmatch
  have hshape := h.trust
  simp only [DeploymentTrust.validateShape, Bool.and_eq_true, List.all_eq_true, bne_iff_ne, ne_eq,
    decide_eq_true_eq] at hshape
  obtain ⟨⟨⟨⟨⟨⟨⟨⟨⟨-, hkeys⟩, hnodup⟩, -⟩, -⟩, -⟩, -⟩, -⟩, -⟩, -⟩ := hshape
  have hvalid := hkeys key hkey
  have hfind : config.trust.serverControlKeys.find? (fun candidate =>
      candidate.serverId == config.id && candidate.epoch == config.signerEpoch) = some key := by
    cases hfound : config.trust.serverControlKeys.find? fun candidate =>
        candidate.serverId == config.id && candidate.epoch == config.signerEpoch with
    | none =>
      have hnot := List.find?_eq_none.mp hfound key hkey
      simp [hmatch.1, hepoch] at hnot
    | some other =>
      have hother := List.find?_some hfound
      simp only [Bool.and_eq_true, beq_iff_eq] at hother
      have hsame : (other.serverId, other.epoch) = (key.serverId, key.epoch) := by
        rw [hother.1, hother.2, hmatch.1, hepoch]
      exact congrArg some
        (List.inj_on_of_nodup_map hnodup (List.mem_of_find?_eq_some hfound) hkey hsame)
  refine ⟨key.publicKey, ?_, hmatch.2, hvalid.2, ?_⟩
  · unfold DeploymentTrust.serverControlKey
    rw [hfind]
    rfl
  · rw [hepoch]
    exact hvalid.1.2

/-- Of a snapshot for a known Travel, the directory and the catalog decide whether it is valid, as
long as it is neither from the future nor expired. -/
theorem validateAt_payload {directory : RelayDirectory} {catalog : Catalog}
    {travel : TravelCredential} {now at_ generation : ℕ} (h : config.Started relays)
    (htravel : travel.validate = true) (hnow : now < config.trust.notAfterUnixSecs)
    (hgeneration : 0 < generation) (hfrom : now ≤ at_ + maxClockSkewSecs)
    (hto : at_ < (config.payload directory catalog travel.travelId travel.managementSpkiSha256 now
      generation).expiresAtUnixSecs) :
    (config.payload directory catalog travel.travelId travel.managementSpkiSha256 now
        generation).validateAt at_ = true ↔
      Control.validateRelayDirectory directory = true ∧ Control.validateCatalog catalog = true := by
  obtain ⟨publicKey, -, -, -, hepoch⟩ := h.controlKey
  have hdeployment : config.trust.deploymentId.isEmpty = false := by
    have hshape := h.trust
    simp only [DeploymentTrust.validateShape, Bool.and_eq_true, Bool.not_eq_true'] at hshape
    obtain ⟨⟨⟨⟨⟨⟨⟨⟨⟨⟨⟨⟨⟨-, hid⟩, -⟩, -⟩, -⟩, -⟩, -⟩, -⟩, -⟩, -⟩, -⟩, -⟩, -⟩, -⟩ := hshape
    exact hid
  have hserver : config.id.isEmpty = false := by
    have hne := h.id_ne
    simpa using hne
  have hid : travel.travelId.isEmpty = false ∧ validSpkiPin travel.managementSpkiSha256 = true := by
    simp only [TravelCredential.validate, Bool.and_eq_true, Bool.not_eq_true', List.all_cons] at htravel
    obtain ⟨⟨⟨⟨-, hid⟩, -⟩, hpin, -⟩, -⟩ := htravel
    exact ⟨hid, hpin⟩
  have hlt := h.notAfter_lt
  have hpos := h.ttl_pos
  have hle := h.ttl_le
  have hexpires : (config.payload directory catalog travel.travelId travel.managementSpkiSha256 now
      generation).expiresAtUnixSecs = min (now + config.controlSnapshotTtlSecs) (2 ^ 64 - 1) := rfl
  rw [hexpires] at hto
  have hstart : now < min (now + config.controlSnapshotTtlSecs) (2 ^ 64 - 1) := by omega
  have hspan : min (now + config.controlSnapshotTtlSecs) (2 ^ 64 - 1) - now ≤
      Control.maxControlSnapshotTtlSecs := by omega
  have hgen : generation ≠ 0 := by omega
  simp only [Control.ControlSnapshotPayload.validateAt, Config.payload, hdeployment, hserver, hid.1,
    hid.2, Bool.and_eq_true, Bool.not_false, beq_self_eq_true, bne_iff_ne, ne_eq, hepoch, hgen,
    not_false_eq_true, decide_eq_true_eq, hstart, hspan, hfrom, hto, true_and, and_true]

/-- A trust document that is valid says more than a time. -/
theorem validateAt_trust {trust : DeploymentTrust} {now : ℕ} (h : trust.validateAt now = true) :
    trust.validateShape = true ∧ trust.notBeforeUnixSecs ≤ now + maxClockSkewSecs ∧
      now < trust.notAfterUnixSecs := by
  simp only [DeploymentTrust.validateAt, Bool.and_eq_true, decide_eq_true_eq] at h
  exact ⟨h.1.1, h.1.2, h.2⟩

/-- `ControlSigner::sign` with a valid trust and a generation left. -/
theorem sign_eq (directory : RelayDirectory) (catalog : Catalog) (travelId spki : String)
    {now next : ℕ} (h : config.Started relays) (htrust : config.trust.validateAt now = true)
    (hnext : next + 1 < 2 ^ 64) :
    config.sign directory catalog travelId spki now next true =
      if (config.payload directory catalog travelId spki now next).validateAt now = true ∧
          config.payloadLen (config.payload directory catalog travelId spki now next) ≤
            maxControlSnapshotPayloadBytes then
        (some (config.payload directory catalog travelId spki now next), next + 1)
      else (none, next + 1) := by
  obtain ⟨publicKey, hkey, hmatch, -⟩ := h.controlKey
  have halloc : allocateGeneration next true = some (next, next + 1) := if_pos ⟨hnext, rfl⟩
  have hmatch' : eqIgnoreAsciiCase config.controlPublicKey publicKey = true := by
    simp only [eqIgnoreAsciiCase, beq_iff_eq] at hmatch ⊢
    exact hmatch.symm
  unfold Config.sign
  rw [htrust, halloc, hkey]
  simp only [Bool.not_true, Bool.false_eq_true, if_false, Option.any_some, hmatch', Bool.and_true,
    Bool.and_eq_true, decide_eq_true_eq]
  rfl

/-- Nothing is signed without a valid trust, and without a generation that is left and stored. -/
theorem provided_of_sign {directory : RelayDirectory} {catalog : Catalog} {travelId spki : String}
    {now next following : ℕ} {stored : Bool} {payload : ControlSnapshotPayload}
    (h : config.sign directory catalog travelId spki now next stored = (some payload, following)) :
    config.trust.validateAt now = true ∧ next + 1 < 2 ^ 64 ∧ stored = true := by
  unfold Config.sign at h
  split_ifs at h with htrust
  · cases h
  · have hvalid : config.trust.validateAt now = true := by
      rw [Bool.not_eq_true, Bool.not_eq_false'] at htrust
      exact htrust
    by_cases hleft : next + 1 < 2 ^ 64 ∧ stored = true
    · exact ⟨hvalid, hleft.1, hleft.2⟩
    · have halloc : allocateGeneration next stored = none := if_neg hleft
      rw [halloc] at h
      cases h

/-- A signed payload that is valid at some time is verified then. -/
theorem verify_signed {env : Control.Installation} {payload : ControlSnapshotPayload}
    {snapshot : SignedControlSnapshot} {now : ℕ} (h : config.Started relays)
    (hsigned : config.Signed env payload snapshot) (hdeployment :
      payload.deploymentId = config.trust.deploymentId) (hserver : payload.serverId = config.id)
    (hepoch : payload.signerEpoch = config.signerEpoch)
    (htrust : config.trust.validateAt now = true) (hvalid : payload.validateAt now = true) :
    ∃ verified, env.verify snapshot now = some verified ∧ verified.payload = payload := by
  obtain ⟨publicKey, hkey, hmatch, hpoint, -⟩ := h.controlKey
  obtain ⟨⟨trust, digest⟩, hdocument, rfl⟩ := Option.map_eq_some_iff.mp hsigned.trust
  have hverifies := hsigned.verifies publicKey hmatch
  refine ⟨⟨config.trust, digest, payload, env.codec.sha256 snapshot.payloadHex⟩, ?_, rfl⟩
  have hcontents : env.contents snapshot =
      some ⟨config.trust, digest, payload, env.codec.sha256 snapshot.payloadHex⟩ := by
    unfold Control.Installation.contents
    rw [hdocument, hsigned.payload_eq]
    simp only
    rw [hserver, hepoch, hkey]
    simp [hdeployment, hpoint, hverifies]
  unfold Control.Installation.verify
  rw [hcontents]
  simp [htrust, hvalid]

/-- Whoever verifies a snapshot has found the trust in it valid. -/
theorem trust_of_verify {env : Control.Installation} {payload : ControlSnapshotPayload}
    {snapshot : SignedControlSnapshot} {verified : Control.VerifiedControlSnapshot} {now : ℕ}
    (hsigned : config.Signed env payload snapshot)
    (h : env.verify snapshot now = some verified) : config.trust.validateAt now = true := by
  obtain ⟨⟨trust, digest⟩, hdocument, htrust⟩ := Option.map_eq_some_iff.mp hsigned.trust
  unfold Control.Installation.verify at h
  obtain ⟨hcontents, hvalid⟩ := Option.filter_eq_some_iff.mp h
  have hsame : verified.trust = trust := by
    unfold Control.Installation.contents at hcontents
    rw [hdocument, hsigned.payload_eq] at hcontents
    dsimp only at hcontents
    split_ifs at hcontents
    rw [← Option.some.inj hcontents]
  rw [hsame, Bool.and_eq_true] at hvalid
  rw [← htrust]
  exact hvalid.1

/-- One who reads this payload in every snapshot, and believes what the Server's key or the root
key has signed. -/
def Config.reader (config : Config) (rootPublicKey : String) (payload : ControlSnapshotPayload) :
    Control.Installation where
  travelId := payload.travelId
  managementSpkiSha256 := payload.travelManagementSpkiSha256
  homes := []
  deploymentRootPublicKey := rootPublicKey
  codec := { config.codec.toCodec with
    verifies := fun publicKey _ _ =>
      publicKey == rootPublicKey || eqIgnoreAsciiCase publicKey config.controlPublicKey
    trust := fun _ => some config.trust }
  controlSnapshot _ := some payload

/-- Every payload can be signed so that it is read. -/
theorem Config.reader_signed {rootPublicKey : String} (h : validP256PublicKey rootPublicKey = true)
    (payload : ControlSnapshotPayload) (snapshot : SignedControlSnapshot) :
    config.Signed (config.reader rootPublicKey payload) payload snapshot where
  trust := by
    have hverifies : (config.reader rootPublicKey payload).codec.verifies rootPublicKey
        snapshot.trust.payloadHex snapshot.trust.signatureHex = true := by
      simp only [Config.reader, beq_self_eq_true, Bool.true_or]
    have hroot : (config.reader rootPublicKey payload).deploymentRootPublicKey = rootPublicKey :=
      rfl
    unfold Control.Installation.trustDocument
    rw [hroot, h, hverifies]
    rfl
  payload_eq := rfl
  verifies := by
    intro publicKey hkey
    simp only [Config.reader, hkey, Bool.or_true]

namespace Sys
variable {s : Sys} {server : ServerAuthorization} {travel : TravelCredential} {now : ℕ}
  {stored : Bool} {file : AuthorizationFile} {generation : ℕ}

theorem travel_valid {ok : Sys → Action → Prop}
    (hs : (machine config file (generation + 1)).ReachableWhere ok s)
    (hasks : s.Asks server travel) : travel.validate = true := by
  have hsound := (tracked_of_reachableWhere hs).kept.server server hasks.server_eq
  have hcovers := VerifiedAuthorization.covers_of_verify hsound.2
  obtain ⟨signed, -, -, authority, -, hsigned⟩ := (hcovers.mem travel).mp hasks.travel_mem
  exact hsigned.valid

/-- The document for a Travel is valid exactly if the Relays are apart and it is not shown too many
Homes, from when it is signed until it expires. -/
theorem document_valid_iff {later : ℕ} (hstarted : config.Started relays)
    (hs : (machine config file (generation + 1)).ReachableWhere (Accepts config relays) s)
    (hasks : s.Asks server travel) (htrust : config.trust.validateAt now = true)
    (hfrom : now ≤ later + maxClockSkewSecs)
    (hto : later < (s.document config server travel now).expiresAtUnixSecs) :
    (s.document config server travel now).validateAt later = true ↔
      RelaysApart s.registry ∧
        (s.shown config server travel now).homes.length ≤ Control.maxCatalogHomes := by
  have hi := reported_of_reachableWhere hs
  have htravel := travel_valid hs hasks
  have hnotAfter := (validateAt_trust htrust).2.2
  have hvalid : (s.document config server travel now).validateAt later = true ↔
      Control.validateRelayDirectory s.registry.directory = true ∧
        Control.validateCatalog (s.shown config server travel now) = true :=
    validateAt_payload hstarted htravel hnotAfter hi.next hfrom hto
  have hdirectory := validateRelayDirectory_iff hi.registry hstarted.relays_ne hi.generation
  have hcatalog : Control.validateCatalog (s.shown config server travel now) = true ↔
      (s.shown config server travel now).homes.length ≤ Control.maxCatalogHomes :=
    validateCatalog_shown hi.homes _ now
  rw [hvalid, hdirectory, hcatalog]
  constructor
  · rintro ⟨⟨-, hapart⟩, hlen⟩
    exact ⟨hapart, hlen⟩
  · rintro ⟨hapart, hlen⟩
    exact ⟨⟨hasks.listed, hapart⟩, hlen⟩

theorem lt_expires (hstarted : config.Started relays)
    (htrust : config.trust.validateAt now = true) :
    now < (s.document config server travel now).expiresAtUnixSecs := by
  have hnotAfter := (validateAt_trust htrust).2.2
  have hpos := hstarted.ttl_pos
  have hlt := hstarted.notAfter_lt
  show now < min (now + config.controlSnapshotTtlSecs) (2 ^ 64 - 1)
  omega

/-- Where reports are accepted, a snapshot is signed exactly if the Relays are apart, the Travel is
within its budget, the trust is valid, and a generation is left and stored. -/
theorem signs_iff (hstarted : config.Started relays)
    (hs : (machine config file (generation + 1)).ReachableWhere (Accepts config relays) s)
    (hasks : s.Asks server travel) :
    s.Signs config server travel now stored ↔
      RelaysApart s.registry ∧ s.WithinBudget config server travel now ∧
        config.trust.validateAt now = true ∧ s.nextGeneration + 1 < 2 ^ 64 ∧ stored = true := by
  have hcases : config.trust.validateAt now = true → s.nextGeneration + 1 < 2 ^ 64 →
      (s.Signs config server travel now true ↔
        RelaysApart s.registry ∧ s.WithinBudget config server travel now) := by
    intro htrust hleft
    have hnow : now < (s.document config server travel now).expiresAtUnixSecs :=
      lt_expires hstarted htrust
    have hvalid := document_valid_iff hstarted hs hasks htrust (Nat.le_add_right now _) hnow
    have hsign : config.sign s.registry.directory (s.shown config server travel now)
        travel.travelId travel.managementSpkiSha256 now s.nextGeneration true =
        if (s.document config server travel now).validateAt now = true ∧
            config.payloadLen (s.document config server travel now) ≤
              maxControlSnapshotPayloadBytes then
          (some (s.document config server travel now), s.nextGeneration + 1)
        else (none, s.nextGeneration + 1) :=
      sign_eq _ _ _ _ hstarted htrust hleft
    have hcond : RelaysApart s.registry ∧ s.WithinBudget config server travel now ↔
        (s.document config server travel now).validateAt now = true ∧
          config.payloadLen (s.document config server travel now) ≤
            maxControlSnapshotPayloadBytes := by
      rw [hvalid]
      unfold WithinBudget
      rw [and_assoc]
    rw [hcond]
    unfold Signs
    rw [hsign]
    constructor
    · intro h
      by_contra hnot
      rw [if_neg hnot] at h
      cases h
    · intro h
      exact if_pos h
  constructor
  · intro h
    obtain ⟨htrust, hleft, hstored⟩ := provided_of_sign h
    rw [hstored] at h
    obtain ⟨hapart, hbudget⟩ := (hcases htrust hleft).mp h
    exact ⟨hapart, hbudget, htrust, hleft, hstored⟩
  · rintro ⟨hapart, hbudget, htrust, hleft, hstored⟩
    rw [hstored]
    exact (hcases htrust hleft).mpr ⟨hapart, hbudget⟩

/-- What is signed is verified exactly if the trust has begun for the slowest clock, and lasts as
long as the snapshot. -/
theorem verifies_iff (hstarted : config.Started relays)
    (hs : (machine config file (generation + 1)).ReachableWhere (Accepts config relays) s)
    (hasks : s.Asks server travel) (hsigns : s.Signs config server travel now stored) :
    s.Verifies config server travel now ↔
      config.trust.notBeforeUnixSecs ≤ max now maxClockSkewSecs ∧
        (s.document config server travel now).expiresAtUnixSecs ≤
          config.trust.notAfterUnixSecs := by
  obtain ⟨hapart, ⟨hlen, -⟩, htrust, -⟩ := (signs_iff hstarted hs hasks).mp hsigns
  have hnow : now < (s.document config server travel now).expiresAtUnixSecs :=
    lt_expires hstarted htrust
  obtain ⟨hshape, -⟩ := validateAt_trust htrust
  constructor
  · intro h
    obtain ⟨publicKey, -, -, hpoint, -⟩ := hstarted.controlKey
    have hreads := h (config.reader publicKey (s.document config server travel now))
      ⟨⟨"", ""⟩, "", ""⟩ (Config.reader_signed hpoint _ _)
    have hvalid : ∀ later, now ≤ later + maxClockSkewSecs →
        later < (s.document config server travel now).expiresAtUnixSecs →
        config.trust.validateAt later = true := by
      intro later hfrom hto
      obtain ⟨verified, hverified, -⟩ := hreads later hfrom hto
      exact trust_of_verify (Config.reader_signed hpoint _ _) hverified
    have hfirst := (validateAt_trust (hvalid (now - maxClockSkewSecs) (by omega) (by omega))).2.1
    have hlast := (validateAt_trust (hvalid
      ((s.document config server travel now).expiresAtUnixSecs - 1) (by omega) (by omega))).2.2
    constructor
    · omega
    · omega
  · rintro ⟨hbegun, hlasts⟩ env snapshot hsigned later hfrom hto
    have htrust' : config.trust.validateAt later = true := by
      simp only [DeploymentTrust.validateAt, hshape, Bool.and_eq_true, decide_eq_true_eq, true_and]
      constructor
      · omega
      · omega
    have hvalid := (document_valid_iff hstarted hs hasks htrust hfrom hto).mpr ⟨hapart, hlen⟩
    exact verify_signed hstarted hsigned rfl rfl rfl htrust' hvalid

/-- Signing and verifying take exactly that the Relays are apart, that the Travel is within its
budget, and what the Server needs besides. -/
theorem signs_and_verifies_iff (hstarted : config.Started relays)
    (hs : (machine config file (generation + 1)).ReachableWhere (Accepts config relays) s)
    (hasks : s.Asks server travel) :
    s.Signs config server travel now stored ∧ s.Verifies config server travel now ↔
      RelaysApart s.registry ∧ s.WithinBudget config server travel now ∧
        s.Provided config server travel now stored := by
  have hsigns : s.Signs config server travel now stored ↔
      RelaysApart s.registry ∧ s.WithinBudget config server travel now ∧
        config.trust.validateAt now = true ∧ s.nextGeneration + 1 < 2 ^ 64 ∧ stored = true :=
    signs_iff hstarted hs hasks
  constructor
  · rintro ⟨hsigned, hverifies⟩
    obtain ⟨hapart, hbudget, htrust, hleft, hstored⟩ := hsigns.mp hsigned
    obtain ⟨hbegun, hlasts⟩ := (verifies_iff hstarted hs hasks hsigned).mp hverifies
    exact ⟨hapart, hbudget, ⟨hstored, hleft, htrust, hbegun, hlasts⟩⟩
  · rintro ⟨hapart, hbudget, hprovided⟩
    have hsigned := hsigns.mpr
      ⟨hapart, hbudget, hprovided.trust, hprovided.next_lt, hprovided.stored⟩
    have hverifies := (verifies_iff hstarted hs hasks hsigned).mpr
      ⟨hprovided.begun, hprovided.lasts⟩
    exact ⟨hsigned, hverifies⟩

/-- As long as each Relay reports an address of its own, the Server signs for every Travel within
its budget while it is provided with a trust and a generation. Whatever it accepted, it signs what
is verified exactly where the Relays are apart, the Travel is within its budget, and the Server is
provided. -/
theorem signable_of_apart (config : Config) (relays : List String) (file : AuthorizationFile)
    (generation : ℕ) (hstarted : config.Started relays) :
    (∀ s, (machine config file (generation + 1)).ReachableWhere
        (fun s a => s.Accepts config relays a ∧ s.Apart a) s →
      ∀ server travel now stored, s.Asks server travel →
        s.WithinBudget config server travel now → s.Provided config server travel now stored →
        s.Signs config server travel now stored ∧ s.Verifies config server travel now) ∧
    ∀ s, (machine config file (generation + 1)).ReachableWhere (Accepts config relays) s →
      ∀ server travel now stored, s.Asks server travel →
        (s.Signs config server travel now stored ∧ s.Verifies config server travel now ↔
          RelaysApart s.registry ∧ s.WithinBudget config server travel now ∧
            s.Provided config server travel now stored) := by
  constructor
  · intro s hs server travel now stored hasks hbudget hprovided
    have hs' := hs.mono fun _ _ hok => hok.1
    have hapart := relaysApart_of_reachableWhere hs
    exact (signs_and_verifies_iff hstarted hs' hasks).mpr ⟨hapart, hbudget, hprovided⟩
  · intro s hs server travel now stored hasks
    exact signs_and_verifies_iff hstarted hs hasks

/-- The trust document of the examples is valid, and it has one key of the Server. -/
theorem sampleConfig_checked :
    sampleConfig.trust.validateShape = true ∧ sampleConfig.trust.validateAt 1000 = true ∧
      (sampleConfig.trust.serverControlKeys.filter fun candidate =>
        candidate.serverId == sampleConfig.id &&
          eqIgnoreAsciiCase candidate.publicKey sampleConfig.controlPublicKey) =
        [⟨"server-1", 1, sampleKey 'a'⟩] := by
  refine ⟨?_, ?_, ?_⟩ <;> decide +kernel

/-- The settings of the Server in the examples. -/
theorem sampleConfig_started : sampleConfig.Started ["relay-1", "relay-2"] where
  id_ne := by decide
  relays_ne := by decide
  ttl_pos := by decide
  ttl_le := by decide
  trust := sampleConfig_checked.1
  notAfter_lt := by decide
  key := by
    obtain ⟨-, -, hkeys⟩ := sampleConfig_checked
    exact ⟨⟨"server-1", 1, sampleKey 'a'⟩, hkeys, rfl⟩

def sampleRelay2 (address : String) : RelayEndpoint :=
  ⟨"relay-2", address, "192.0.2.2:444", samplePin '8'⟩

/-- What the examples read of a state, for the Travel of the examples. -/
def reading (s : Sys) : List String × ℕ × Option (List TravelCredential × ℕ) :=
  (s.registry.directory.relays.map (·.managementAddr), s.nextGeneration,
    s.authority.server.map fun server =>
      (server.verified.credentials, (s.shown sampleConfig server sampleCredential 1000).homes.length))

theorem asks_of_reading {address : String} {addresses : List String} {homes : ℕ}
    (h : s.reading = (address :: addresses, 4, some ([sampleCredential], homes))) :
    ∃ server, s.Asks server sampleCredential ∧
      s.Provided sampleConfig server sampleCredential 1000 true ∧
      s.registry.directory.relays.map (·.managementAddr) = address :: addresses ∧
      (s.shown sampleConfig server sampleCredential 1000).homes.length = homes := by
  simp only [reading, Prod.mk.injEq] at h
  obtain ⟨haddrs, hnext, hserver⟩ := h
  obtain ⟨server, hserver, hread⟩ := Option.map_eq_some_iff.mp hserver
  obtain ⟨hcredentials, hshown⟩ := Prod.mk.inj hread
  refine ⟨server, ⟨hserver, ?_, ?_⟩, ⟨rfl, ?_, sampleConfig_checked.2.1, ?_, ?_⟩, haddrs, hshown⟩
  · rw [hcredentials]
    exact List.mem_singleton_self _
  · intro hnil
    rw [hnil] at haddrs
    cases haddrs
  · rw [hnext]
    decide
  · decide
  · show min (1000 + 120) (2 ^ 64 - 1) ≤ 100000
    decide

theorem signable_of_apart_two : ∃ s server,
    (machine sampleConfig { state := {} } 1).execWhere
      (fun s a => s.Accepts sampleConfig ["relay-1", "relay-2"] a ∧ s.Apart a)
      (sampleStart ++ [.replaceRelay "relay-2" 2 (some (sampleRelay2 "192.0.2.2:443")) true]) =
        some s ∧
    s.Signs sampleConfig server sampleCredential 1000 true ∧
      s.Verifies sampleConfig server sampleCredential 1000 := by
  have hrun : ((machine sampleConfig { state := {} } 1).execWhere
      (fun s a => s.Accepts sampleConfig ["relay-1", "relay-2"] a ∧ s.Apart a)
      (sampleStart ++ [.replaceRelay "relay-2" 2 (some (sampleRelay2 "192.0.2.2:443")) true])).map
      reading = some (["192.0.2.1:443", "192.0.2.2:443"], 4, some ([sampleCredential], 1)) := by
    decide +kernel
  obtain ⟨s, hs, heq⟩ := Option.map_eq_some_iff.mp hrun
  obtain ⟨server, hasks, hprovided, -, hshown⟩ := asks_of_reading heq
  have hbudget : s.WithinBudget sampleConfig server sampleCredential 1000 := by
    constructor
    · rw [hshown]
      decide
    · show 1000 ≤ maxControlSnapshotPayloadBytes
      decide
  exact ⟨s, server, hs, (signable_of_apart sampleConfig ["relay-1", "relay-2"] { state := {} } 0
    sampleConfig_started).1 s (Machine.reachableWhere_of_execWhere hs) server sampleCredential 1000
      true hasks hbudget hprovided⟩

/-- Two Relays report one management address, each of them accepted, and no Travel is signed for. -/
theorem not_signable_of_reachable :
    ¬ ∀ (config : Config) (relays : List String) (file : AuthorizationFile) (generation : ℕ),
      config.Started relays → ∀ s,
        (machine config file (generation + 1)).ReachableWhere (Accepts config relays) s →
        s.Signable config := by
  intro hall
  have hrun : ((machine sampleConfig { state := {} } 1).execWhere
      (Accepts sampleConfig ["relay-1", "relay-2"])
      (sampleStart ++ [.replaceRelay "relay-2" 2 (some (sampleRelay2 "192.0.2.1:443")) true])).map
      reading = some (["192.0.2.1:443", "192.0.2.1:443"], 4, some ([sampleCredential], 1)) := by
    decide +kernel
  obtain ⟨s, hs, heq⟩ := Option.map_eq_some_iff.mp hrun
  have hreach := Machine.reachableWhere_of_execWhere hs
  obtain ⟨server, hasks, hprovided, haddrs, -⟩ := asks_of_reading heq
  have hsignable := hall sampleConfig _ { state := {} } 0 sampleConfig_started s hreach
  have hsigns := (hsignable server sampleCredential 1000 true hasks hprovided).1
  have hapart := ((signs_iff sampleConfig_started hreach hasks).mp hsigns).1.1
  rw [haddrs] at hapart
  exact absurd hapart (by decide)

end Sys
end FlowSplice.Server.Travels
