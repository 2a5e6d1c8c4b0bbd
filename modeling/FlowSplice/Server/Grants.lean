import FlowSplice.Server.Reads

/-! What backs a route grant of the Server, and what a revocation leaves of it. -/
namespace FlowSplice.Server.Travels

open History (Read)

/-- The credential that a request names is active, its Travel's, and allows the Home. -/
def Backs (authorization : VerifiedAuthorization) (route : RouteRequest) (now : ℕ) : Prop :=
  authorization.isActive route.credential now = true ∧
    ∃ credential, authorization.credential route.credential = some credential ∧
      credential.travelId = route.travel ∧ credential.allowsHome route.home = true

/-- No other credential of the identity stands in for the one that the request names. -/
def Alone (authorization : VerifiedAuthorization) (route : RouteRequest) (now : ℕ) : Prop :=
  ∀ named ∈ authorization.credential route.credential,
    (authorization.activeCredentials route.travel named.managementSpkiSha256 now).any
        (·.allowsHome route.home) = true →
      authorization.isActive route.credential now = true ∧ named.allowsHome route.home = true

instance (authorization : VerifiedAuthorization) (route : RouteRequest) (now : ℕ) :
    Decidable (Alone authorization route now) :=
  inferInstanceAs (Decidable (∀ _ ∈ _, _))

def Phase.startedAt : Phase → Option ℕ
  | .started now => some now.value
  | _ => none

/-- What a call knows once it has read the authorization. -/
def Phase.basis : Phase → Option Basis
  | .started _ => none
  | .checked basis | .online basis | .located basis _ | .shown basis _ _ _ | .authorized basis
  | .granting basis _ => some basis

namespace Sys
variable {config : Config} {file : AuthorizationFile} {generation : ℕ} {s s' t : Sys} {a : Action}
  {credentialId : Uuid}

def Revoked (s : Sys) (credentialId : Uuid) : Prop :=
  ∃ server, s.authority.server = some server ∧ credentialId ∈ server.snapshot.revoked

/-- A revocation of the credential has yet to drop its grants. -/
def Retaining (s : Sys) (credentialId : Uuid) : Prop :=
  s.revocations.Holds (· = ⟨credentialId, .retaining⟩)

instance (s : Sys) (credentialId : Uuid) : Decidable (s.Retaining credentialId) :=
  inferInstanceAs (Decidable (s.revocations.Holds _))

/-- A grant for the credential has been taken, and its work is not sent yet. -/
def Delivering (s : Sys) (credentialId : Uuid) : Prop :=
  s.deliveries.Holds (·.credentialId = credentialId)

instance (s : Sys) (credentialId : Uuid) : Decidable (s.Delivering credentialId) :=
  inferInstanceAs (Decidable (s.deliveries.Holds _))

/-- No grant for the credential is pending. -/
def Free (s : Sys) (credentialId : Uuid) : Prop :=
  ∀ id pending, s.pendingGrants.lookup id = some pending → pending.credentialId ≠ credentialId

/-- Grants are backed by the credential that they name when they are authorized, and nothing is
pending or sent for a credential whose revocation has returned. -/
structure Backed (s : Sys) : Prop where
  granted : ∀ granted ∈ s.granted, granted.2.Of s.history granted.1.asked ∧
    Backs granted.2.authorization.value.verified granted.1 granted.2.now.value
  works : ∀ work, .opened work ∈ s.events → ∃ granted ∈ s.granted,
    granted.1.credential = work.credentialId ∧ granted.1.relayId = work.relayId
  pending : ∀ credentialId, .revoked credentialId ∈ s.events → s.Free credentialId
  opened : s.events.Pairwise fun earlier later => ∀ credentialId work,
    earlier = .revoked credentialId → later = .opened work → work.credentialId ≠ credentialId

/-- A request is let through by the credential that it names. A grant becomes pending only for a
credential that is not revoked, or whose revocation has yet to drop its grants. A revocation returns
only when no other one has yet to drop grants of the credential and no work of it is on its way. -/
def settled (s : Sys) : Action → Prop
  | .read i => ∀ call ∈ s.calls.get i, ∀ route ∈ call.route, ∀ now ∈ call.phase.startedAt,
      ∀ server ∈ s.authority.server, Alone server.verified route now
  | .grant i _ _ _ => ∀ call ∈ s.calls.get i, ∀ route ∈ call.route,
      ∀ server ∈ s.authority.server, route.credential ∈ server.snapshot.revoked →
        s.Retaining route.credential
  | .conclude i => ∀ revocation ∈ s.revocations.get i,
      ¬ s.Retaining revocation.credentialId ∧ ¬ s.Delivering revocation.credentialId
  | _ => True

instance (s : Sys) (action : Action) : Decidable (s.settled action) :=
  match action with
  | .read _ | .grant _ _ _ _ | .conclude _ => inferInstanceAs (Decidable (∀ _ ∈ _, _))
  | .tick _ | .authority _ | .registerHome _ _ | .updateCatalog _ _ | .removeHome _ _
  | .replaceRelay _ _ _ _ | .updateRelay _ _ _ _ | .unregisterRelay _ _ _ | .releaseTravel _ _ _
  | .pruneTravels _ | .authorize _ | .request _ | .login _ _ | .locate _ | .list _ | .sign _ _
  | .find _ | .ready _ _ _ _ | .deliver _ | .abandon _ | .expireGrants _ | .dropRelay _
  | .revoke _ _ _ _ | .retain _ => inferInstanceAs (Decidable True)

/-- The grant and its work are for the credential and the Relay of a request that was granted. -/
def From (s : Sys) (pending : PendingRelayGrant) : Prop :=
  pending.openMessage.credentialId = pending.credentialId ∧ ∃ granted ∈ s.granted,
    granted.1.credential = pending.credentialId ∧
      granted.1.relayId = pending.openMessage.relayId

/-- What calls know, what was granted, and what is pending and sent of it. -/
structure Granting (s : Sys) : Prop where
  calls : ∀ i call, s.calls.get i = some call → ∀ route, call.route = some route →
    ∀ basis, call.phase.basis = some basis →
      Backs basis.authorization.value.verified route basis.now.value
  granted : ∀ granted ∈ s.granted,
    Backs granted.2.authorization.value.verified granted.1 granted.2.now.value
  pending : ∀ id pending, s.pendingGrants.lookup id = some pending → s.From pending
  deliveries : ∀ i pending, s.deliveries.get i = some pending → s.From pending
  works : ∀ work, .opened work ∈ s.events → ∃ granted ∈ s.granted,
    granted.1.credential = work.credentialId ∧ granted.1.relayId = work.relayId

theorem Granting.initial : Granting (machine config file generation).start := by
  constructor
  · intro i call hcall
    cases hcall
  · intro granted hgranted
    cases hgranted
  · intro id pending hpending
    cases hpending
  · intro i pending hpending
    cases hpending
  · intro work hwork
    cases hwork

theorem From.mono {pending : PendingRelayGrant} (h : s.From pending)
    (hsub : ∀ granted ∈ s.granted, granted ∈ t.granted) : t.From pending := by
  obtain ⟨hopen, granted, hgranted, hfrom⟩ := h
  exact ⟨hopen, granted, hsub granted hgranted, hfrom⟩

/-- A request that is let through is backed, where no other credential stands in. -/
theorem backs_of_read {authorization : VerifiedAuthorization} {route : RouteRequest} {now : ℕ}
    {spki : String} {credentials : List TravelCredential}
    (h : readAuthorization authorization route.asked now = .ok (spki, credentials))
    (halone : Alone authorization route now) : Backs authorization route now := by
  unfold readAuthorization at h
  split at h
  · cases h
  · next named hnamed =>
    split_ifs at h with htravel
    dsimp only at h
    split_ifs at h with hhome
    have hsome : (authorization.activeCredentials route.travel named.managementSpkiSha256 now).any
        (·.allowsHome route.home) = true := by
      simpa [RouteRequest.asked] using hhome
    obtain ⟨hactive, hallows⟩ := halone named hnamed hsome
    exact ⟨hactive, named, hnamed, by simpa [RouteRequest.asked] using htravel, hallows⟩

theorem Granting.advance {i : ℕ} {call : Call} {phase : Phase} {route : RouteRequest} {basis : Basis}
    (hi : s.Granting) (htracked : s.Tracked config file) (hok : s.settled a)
    (hcall : s.calls.get i = some call) (hroute : call.route = some route)
    (hbasis : phase.basis = some basis) (h : s.Advance config i call a phase) :
    Backs basis.authorization.value.verified route basis.now.value := by
  have hbefore : ∀ before, call.phase = before → before.basis = some basis →
      Backs basis.authorization.value.verified route basis.now.value := fun before hphase hsome =>
    hi.calls i call hcall route hroute basis (by rw [hphase]; exact hsome)
  cases h with
  | checked now server spki credentials hstarted hserver hread =>
    have hasked := (htracked.calls i call hcall).2 route hroute
    have hstartedAt : call.phase.startedAt = some now.value := by
      rw [hstarted]
      rfl
    rw [hasked] at hread
    rw [← Option.some.inj hbasis]
    exact backs_of_read hread (hok call hcall route hroute _ hstartedAt server hserver)
  | online _ _ hphase => exact hbefore _ hphase hbasis
  | located _ hphase => exact hbefore _ hphase hbasis
  | shown _ _ hphase => exact hbefore _ hphase hbasis
  | granting _ _ hphase => exact hbefore _ hphase hbasis

theorem Granting.calls_of_moves (hi : s.Granting) (htracked : s.Tracked config file)
    (hok : s.settled a) (h : s.Moves config a t) :
    ∀ i call, t.calls.get i = some call → ∀ route, call.route = some route →
      ∀ basis, call.phase.basis = some basis →
        Backs basis.authorization.value.verified route basis.now.value := by
  intro i call hcall
  cases h with
  | quiet _ _ hq =>
    rw [hq.calls] at hcall
    exact hi.calls i call hcall
  | begin _ asked route _ =>
    rcases Slots.get_push_cases hcall with ⟨-, rfl⟩ | ⟨-, hcall⟩
    · intro _ _ basis hbasis
      cases hbasis
    · exact hi.calls i call hcall
  | advance _ t j found phase hq hfound hadvance =>
    have hcall : (t.calls.set j (some { found with phase := phase })).get i = some call := hcall
    rw [hq.calls] at hcall
    rcases Slots.get_set_cases hcall with ⟨-, hafter, -⟩ | ⟨-, hcall⟩
    · rw [← Option.some.inj hafter]
      intro route hroute basis hbasis
      exact hi.advance htracked hok hfound hroute hbasis hadvance
    · exact hi.calls i call hcall
  | stop _ t j hq _ =>
    have hcall : (t.calls.set j none).get i = some call := hcall
    rw [hq.calls] at hcall
    rcases Slots.get_set_cases hcall with ⟨-, hafter, -⟩ | ⟨-, hcall⟩
    · cases hafter
    · exact hi.calls i call hcall
  | sign j _ t found basis directory catalog payload after hfound hshown _ _ hafter _ _ _ =>
    rcases Slots.get_set_cases hcall with ⟨-, hsome, -⟩ | ⟨-, hcall⟩
    · rw [hafter call hsome]
      intro route hroute basis' hbasis
      have hbefore : found.phase.basis = some basis' := by
        rw [hshown]
        exact hbasis
      exact hi.calls j found hfound route hroute basis' hbefore
    · exact hi.calls i call hcall
  | grant j _ _ _ t found route basis pending hfound _ _ _ _ _ _ =>
    rcases Slots.get_set_cases hcall with ⟨-, hafter, -⟩ | ⟨-, hcall⟩
    · cases hafter
    · exact hi.calls i call hcall
  | authority _ _ _ _ _ _ | drop _ _ _ | take _ _ _ _ | deliver _ _ _ | abandon _
  | revoke _ _ _ _ _ _ _ _ _ _ _ _ _ | retain _ _ _ _ | conclude _ _ _ _ =>
    exact hi.calls i call hcall

theorem Granting.granted_of_moves (hi : s.Granting) (h : s.Moves config a t) :
    (∀ granted ∈ s.granted, granted ∈ t.granted) ∧ ∀ granted ∈ t.granted,
      Backs granted.2.authorization.value.verified granted.1 granted.2.now.value := by
  have hsame : t.granted = s.granted → (∀ granted ∈ s.granted, granted ∈ t.granted) ∧
      ∀ granted ∈ t.granted,
        Backs granted.2.authorization.value.verified granted.1 granted.2.now.value := fun heq => by
    rw [heq]
    exact ⟨fun _ hm => hm, hi.granted⟩
  cases h with
  | quiet _ _ hq | advance _ _ _ _ _ hq _ _ | stop _ _ _ hq _
  | sign _ _ _ _ _ _ _ _ _ _ _ _ _ _ hq _ _ => exact hsame hq.granted
  | grant i _ _ _ t call route basis pending hcall hroute hgranting _ _ _ _ =>
    obtain ⟨home, hphase⟩ := hgranting
    have hbasis : call.phase.basis = some basis := by
      rw [hphase]
      rfl
    constructor
    · intro granted hgranted
      exact List.mem_append_left _ hgranted
    · exact Log.forall_append hi.granted (hi.calls i call hcall route hroute basis hbasis)
  | authority _ _ _ _ _ _ | begin _ _ _ _ | drop _ _ _ | take _ _ _ _ | deliver _ _ _ | abandon _
  | revoke _ _ _ _ _ _ _ _ _ _ _ _ _ | retain _ _ _ _ | conclude _ _ _ _ => exact hsame rfl

theorem Granting.pending_of_moves (hi : s.Granting) (h : s.Moves config a t) :
    ∀ id pending, t.pendingGrants.lookup id = some pending → t.From pending := by
  have hmono := (hi.granted_of_moves h).1
  intro id pending hpending
  cases h with
  | quiet _ _ hq | advance _ _ _ _ _ hq _ _ | stop _ _ _ hq _ =>
    have hpending : s.pendingGrants.lookup id = some pending := hq.pendingGrants ▸ hpending
    exact (hi.pending id pending hpending).mono hmono
  | sign _ _ _ _ _ _ _ _ _ _ _ _ _ _ hq _ _ =>
    have hpending : s.pendingGrants.lookup id = some pending := hq.pendingGrants ▸ hpending
    exact (hi.pending id pending hpending).mono hmono
  | grant i _ _ _ t call route basis new _ _ _ hcredential hopen hrelay _ =>
    rcases Table.lookup_insert_cases hpending with ⟨-, rfl⟩ | ⟨-, hpending⟩
    · exact ⟨hopen.trans hcredential.symm, (route, basis), Log.mem_append_self, hcredential.symm,
        hrelay.symm⟩
    · exact (hi.pending id pending hpending).mono hmono
  | drop _ grants hgrants => exact hi.pending id pending (hgrants id pending hpending)
  | take _ _ _ _ => exact hi.pending id pending (Table.lookup_erase_cases hpending).2
  | retain _ _ _ _ =>
    rw [Table.lookup_retain] at hpending
    exact hi.pending id pending (Option.filter_eq_some_iff.mp hpending).1
  | authority _ _ _ _ _ _ | begin _ _ _ _ | deliver _ _ _ | abandon _
  | revoke _ _ _ _ _ _ _ _ _ _ _ _ _ | conclude _ _ _ _ => exact hi.pending id pending hpending

theorem Granting.deliveries_of_moves (hi : s.Granting) (h : s.Moves config a t) :
    ∀ i pending, t.deliveries.get i = some pending → t.From pending := by
  have hmono := (hi.granted_of_moves h).1
  intro i pending hpending
  cases h with
  | quiet _ _ hq | advance _ _ _ _ _ hq _ _ | stop _ _ _ hq _
  | sign _ _ _ _ _ _ _ _ _ _ _ _ _ _ hq _ _ | grant _ _ _ _ _ _ _ _ _ _ _ _ _ _ _ hq =>
    have hpending : s.deliveries.get i = some pending := hq.deliveries ▸ hpending
    exact (hi.deliveries i pending hpending).mono hmono
  | take _ id taken htaken =>
    rcases Slots.get_push_cases hpending with ⟨-, rfl⟩ | ⟨-, hpending⟩
    · exact hi.pending id pending htaken
    · exact hi.deliveries i pending hpending
  | deliver _ _ _ | abandon _ =>
    rcases Slots.get_set_cases hpending with ⟨-, hafter, -⟩ | ⟨-, hpending⟩
    · cases hafter
    · exact hi.deliveries i pending hpending
  | authority _ _ _ _ _ _ | begin _ _ _ _ | drop _ _ _ | revoke _ _ _ _ _ _ _ _ _ _ _ _ _
  | retain _ _ _ _ | conclude _ _ _ _ => exact hi.deliveries i pending hpending

theorem Granting.works_of_moves (hi : s.Granting) (h : s.Moves config a t) :
    ∀ work, .opened work ∈ t.events → ∃ granted ∈ t.granted,
      granted.1.credential = work.credentialId ∧ granted.1.relayId = work.relayId := by
  have hmono := (hi.granted_of_moves h).1
  intro work hwork
  have hold : .opened work ∈ s.events → ∃ granted ∈ t.granted,
      granted.1.credential = work.credentialId ∧ granted.1.relayId = work.relayId := fun hwork => by
    obtain ⟨granted, hgranted, hfrom⟩ := hi.works work hwork
    exact ⟨granted, hmono granted hgranted, hfrom⟩
  cases h with
  | quiet _ _ hq | advance _ _ _ _ _ hq _ _ | stop _ _ _ hq _
  | sign _ _ _ _ _ _ _ _ _ _ _ _ _ _ hq _ _ | grant _ _ _ _ _ _ _ _ _ _ _ _ _ _ _ hq =>
    exact hold (hq.events ▸ hwork)
  | deliver i pending hpending =>
    rcases List.mem_append.mp hwork with hwork | hwork
    · exact hold hwork
    · obtain ⟨hopen, granted, hgranted, hcredential, hrelay⟩ := hi.deliveries i pending hpending
      rw [Event.opened.inj (List.mem_singleton.mp hwork)]
      exact ⟨granted, hgranted, hcredential.trans hopen.symm, hrelay⟩
  | conclude _ _ _ _ =>
    rcases List.mem_append.mp hwork with hwork | hwork
    · exact hold hwork
    · cases List.mem_singleton.mp hwork
  | authority _ _ _ _ _ _ | begin _ _ _ _ | drop _ _ _ | take _ _ _ _ | abandon _
  | revoke _ _ _ _ _ _ _ _ _ _ _ _ _ | retain _ _ _ _ => exact hold hwork

theorem Granting.moves (hi : s.Granting) (htracked : s.Tracked config file) (hok : s.settled a)
    (h : s.Moves config a t) : t.Granting where
  calls := hi.calls_of_moves htracked hok h
  granted := (hi.granted_of_moves h).2
  pending := hi.pending_of_moves h
  deliveries := hi.deliveries_of_moves h
  works := hi.works_of_moves h

/-- A revoked credential has no grants, or a revocation has yet to drop them. Once a revocation has
returned there is none, and no work on its way. -/
structure Clearing (s : Sys) : Prop where
  stored : ∀ i revocation, s.revocations.get i = some revocation →
    s.Revoked revocation.credentialId
  clean : ∀ credentialId, s.Revoked credentialId → s.Free credentialId ∨ s.Retaining credentialId
  returned : ∀ credentialId, .revoked credentialId ∈ s.events → s.Revoked credentialId ∧
    s.Free credentialId ∧ ¬ s.Delivering credentialId ∧ ¬ s.Retaining credentialId
  opened : s.events.Pairwise fun earlier later => ∀ credentialId work,
    earlier = .revoked credentialId → later = .opened work → work.credentialId ≠ credentialId

theorem Clearing.initial : Clearing (machine config file generation).start := by
  constructor
  · intro i revocation hrevocation
    cases hrevocation
  · rintro credentialId ⟨server, hserver, -⟩
    cases hserver
  · intro credentialId hreturned
    cases hreturned
  · exact .nil

theorem Moves.revoked_kept (htracked : s.Tracked config file) (h : s.Moves config a t)
    (hrevoked : s.Revoked credentialId) : t.Revoked credentialId := by
  obtain ⟨server, hserver, hmem⟩ := hrevoked
  rcases h.authority_step with hsame | ⟨action, haction, hstep⟩
  · exact ⟨server, by rw [hsame]; exact hserver, hmem⟩
  · obtain ⟨next, hnext, hle⟩ :=
      AuthorizationServer.Sys.step_server htracked.kept haction hserver hstep
    exact ⟨next, hnext, TravelAuthorizationSnapshot.revoked_subset_of_le hle hmem⟩

theorem Free.mono (h : s.Free credentialId)
    (hsub : ∀ id pending, t.pendingGrants.lookup id = some pending →
      s.pendingGrants.lookup id = some pending) : t.Free credentialId :=
  fun id pending hpending => h id pending (hsub id pending hpending)

/-- Before the Server has loaded its authorization, no grant is pending. -/
theorem Granting.free_of_none (hi : s.Granting) (htracked : s.Tracked config file)
    (hnone : s.authority.server = none) : s.Free credentialId := by
  intro id pending hpending
  obtain ⟨-, granted, hgranted, -⟩ := hi.pending id pending hpending
  have hread := (htracked.granted granted hgranted).authorization
  obtain ⟨view, hview, hvalue⟩ := List.mem_map.mp (List.mem_of_getElem? hread)
  obtain ⟨-, server, hserver, -⟩ := htracked.views view hview _ hvalue
  rw [hnone] at hserver
  cases hserver

/-- Grants are at most dropped, and no revocation moves. -/
theorem Clearing.frame (hi : s.Clearing)
    (hkept : ∀ credentialId, s.Revoked credentialId → t.Revoked credentialId)
    (hnew : ∀ credentialId, t.Revoked credentialId →
      s.Revoked credentialId ∨ s.Free credentialId)
    (hgrants : ∀ id pending, t.pendingGrants.lookup id = some pending →
      s.pendingGrants.lookup id = some pending)
    (hdeliveries : ∀ credentialId, t.Delivering credentialId → s.Delivering credentialId)
    (hrevocations : t.revocations = s.revocations) (hevents : t.events = s.events) :
    t.Clearing := by
  have hretaining : ∀ credentialId, t.Retaining credentialId ↔ s.Retaining credentialId := by
    intro credentialId
    unfold Retaining
    rw [hrevocations]
  constructor
  · rw [hrevocations]
    intro i revocation hrevocation
    exact hkept _ (hi.stored i revocation hrevocation)
  · intro credentialId hrevoked
    rw [hretaining]
    rcases hnew credentialId hrevoked with hrevoked | hfree
    · rcases hi.clean credentialId hrevoked with hfree | hretains
      · exact .inl (hfree.mono hgrants)
      · exact .inr hretains
    · exact .inl (hfree.mono hgrants)
  · rw [hevents]
    intro credentialId hreturned
    obtain ⟨hrevoked, hfree, hdelivering, hretains⟩ := hi.returned credentialId hreturned
    rw [hretaining]
    exact ⟨hkept credentialId hrevoked, hfree.mono hgrants,
      fun hd => hdelivering (hdeliveries credentialId hd), hretains⟩
  · rw [hevents]
    exact hi.opened

/-- Where neither the authorization nor a revocation changes. -/
theorem Clearing.frame_same (hi : s.Clearing) (hauthority : t.authority = s.authority)
    (hgrants : ∀ id pending, t.pendingGrants.lookup id = some pending →
      s.pendingGrants.lookup id = some pending)
    (hdeliveries : ∀ credentialId, t.Delivering credentialId → s.Delivering credentialId)
    (hrevocations : t.revocations = s.revocations) (hevents : t.events = s.events) :
    t.Clearing := by
  have hsame : ∀ credentialId, t.Revoked credentialId ↔ s.Revoked credentialId := by
    intro credentialId
    unfold Revoked
    rw [hauthority]
  exact hi.frame (fun credentialId => (hsame credentialId).mpr)
    (fun credentialId h => .inl ((hsame credentialId).mp h)) hgrants hdeliveries hrevocations hevents

theorem Clearing.quiet (hi : s.Clearing) (hq : s.Quiet t) : t.Clearing := by
  refine hi.frame_same hq.authority ?_ ?_ hq.revocations hq.events
  · rw [hq.pendingGrants]
    exact fun _ _ h => h
  · unfold Delivering
    rw [hq.deliveries]
    exact fun _ h => h

theorem Clearing.authority {authority : AuthorizationServer.Sys} (hi : s.Clearing)
    (hgranting : s.Granting) (htracked : s.Tracked config file)
    (hkept : ∀ credentialId, s.Revoked credentialId →
      Revoked { s with authority := authority } credentialId)
    (hkeeps : ∀ server next, s.authority.server = some server →
      authority.server = some next → server.KeepsRevocations next) :
    Clearing { s with authority := authority } := by
  refine hi.frame hkept ?_ (fun _ _ h => h) (fun _ h => h) rfl rfl
  rintro credentialId ⟨next, hnext, hmem⟩
  cases hserver : s.authority.server with
  | none => exact .inr (hgranting.free_of_none htracked hserver)
  | some server =>
    have hsame := hkeeps server next hserver hnext
    have hrevoked : server.snapshot.revoked = next.snapshot.revoked := by
      unfold TravelAuthorizationSnapshot.revoked
      rw [hsame]
    exact .inl ⟨server, hserver, hrevoked ▸ hmem⟩

/-- A grant for a revoked credential is added only before a revocation drops the grants. -/
theorem Clearing.grant {id : Uuid} {pending : PendingRelayGrant}
    {granted : List (RouteRequest × Basis)} (hi : s.Clearing)
    (hok : s.Revoked pending.credentialId → s.Retaining pending.credentialId) :
    Clearing { s with
      pendingGrants := s.pendingGrants.insert id pending
      granted := granted } := by
  have hfree : ∀ credentialId, credentialId ≠ pending.credentialId → s.Free credentialId →
      Free { s with pendingGrants := s.pendingGrants.insert id pending, granted := granted }
        credentialId := fun credentialId hne hfree id' found hfound => by
    rcases Table.lookup_insert_cases hfound with ⟨-, rfl⟩ | ⟨-, hfound⟩
    · exact hne.symm
    · exact hfree id' found hfound
  constructor
  · exact hi.stored
  · intro credentialId hrevoked
    have hrevoked : s.Revoked credentialId := hrevoked
    by_cases hne : credentialId = pending.credentialId
    · rw [hne] at hrevoked ⊢
      exact .inr (hok hrevoked)
    · exact (hi.clean credentialId hrevoked).imp_left (hfree credentialId hne)
  · intro credentialId hreturned
    obtain ⟨hrevoked, hfree', hdelivering, hretains⟩ := hi.returned credentialId hreturned
    have hne : credentialId ≠ pending.credentialId := by
      intro heq
      rw [heq] at hrevoked hretains
      exact hretains (hok hrevoked)
    exact ⟨hrevoked, hfree credentialId hne hfree', hdelivering, hretains⟩
  · exact hi.opened

theorem Clearing.take {id : Uuid} {pending : PendingRelayGrant} (hi : s.Clearing)
    (hpending : s.pendingGrants.lookup id = some pending) :
    Clearing { s with
      pendingGrants := s.pendingGrants.erase id
      deliveries := s.deliveries.push pending } := by
  have hfree : ∀ credentialId, s.Free credentialId →
      Free { s with
        pendingGrants := s.pendingGrants.erase id
        deliveries := s.deliveries.push pending } credentialId := fun credentialId hfree =>
    hfree.mono fun _ _ hl => (Table.lookup_erase_cases hl).2
  constructor
  · exact hi.stored
  · intro credentialId hrevoked
    exact (hi.clean credentialId hrevoked).imp_left (hfree credentialId)
  · intro credentialId hreturned
    obtain ⟨hrevoked, hfree', hdelivering, hretains⟩ := hi.returned credentialId hreturned
    refine ⟨hrevoked, hfree credentialId hfree', fun hnow => ?_, hretains⟩
    obtain ⟨i, found, hget, hcredential⟩ := Slots.holds_iff.mp hnow
    rcases Slots.get_push_cases hget with ⟨-, rfl⟩ | ⟨-, hget⟩
    · exact hfree' id found hpending hcredential
    · exact hdelivering (Slots.holds_iff.mpr ⟨i, found, hget, hcredential⟩)
  · exact hi.opened

theorem delivering_of_set {i : ℕ} {events : List Event}
    (h : Delivering { s with deliveries := s.deliveries.set i none, events := events }
      credentialId) : s.Delivering credentialId := by
  obtain ⟨j, found, hget, hcredential⟩ := Slots.holds_iff.mp h
  rcases Slots.get_set_cases hget with ⟨-, hnone, -⟩ | ⟨-, hget⟩
  · cases hnone
  · exact Slots.holds_iff.mpr ⟨j, found, hget, hcredential⟩

theorem Clearing.deliver {i : ℕ} {pending : PendingRelayGrant} (hi : s.Clearing)
    (hpending : s.deliveries.get i = some pending)
    (hopen : pending.openMessage.credentialId = pending.credentialId) :
    Clearing { s with
      deliveries := s.deliveries.set i none
      events := s.events ++ [.opened pending.openMessage] } := by
  have hevents : ∀ credentialId, .revoked credentialId ∈
      s.events ++ [.opened pending.openMessage] → .revoked credentialId ∈ s.events :=
    fun credentialId hreturned => by
      rcases List.mem_append.mp hreturned with hreturned | hreturned
      · exact hreturned
      · cases List.mem_singleton.mp hreturned
  constructor
  · exact hi.stored
  · exact hi.clean
  · intro credentialId hreturned
    obtain ⟨hrevoked, hfree, hdelivering, hretains⟩ :=
      hi.returned credentialId (hevents credentialId hreturned)
    exact ⟨hrevoked, hfree, fun hnow => hdelivering (delivering_of_set hnow), hretains⟩
  · refine Log.pairwise_append hi.opened fun earlier hearlier credentialId work hreturned hwork => ?_
    rw [hreturned] at hearlier
    rw [← Event.opened.inj hwork, hopen]
    intro hcredential
    have hdelivering := (hi.returned credentialId hearlier).2.2.1
    exact hdelivering (Slots.holds_iff.mpr ⟨i, pending, hpending, hcredential⟩)

/-- A revocation that changes something adds one that has yet to drop grants. -/
theorem Clearing.revoke {authority : AuthorizationServer.Sys} {stage : Stage} (hi : s.Clearing)
    (hkept : ∀ credentialId, s.Revoked credentialId →
      Revoked { s with authority := authority } credentialId)
    (hnew : ∀ other, Revoked { s with authority := authority } other →
      s.Revoked other ∨ other = credentialId ∧ stage = .retaining)
    (hrevoked : Revoked { s with authority := authority } credentialId)
    (hfresh : stage = .retaining → ¬ s.Revoked credentialId) :
    Clearing { s with
      authority := authority
      revocations := s.revocations.push ⟨credentialId, stage⟩ } := by
  have hget : ∀ i revocation, s.revocations.get i = some revocation →
      (s.revocations.push ⟨credentialId, stage⟩).get i = some revocation := fun i revocation h => by
    rw [Slots.get_push, if_neg (Nat.ne_of_lt (Slots.lt_next_of_get h))]
    exact h
  have hretaining : ∀ other, s.Retaining other →
      Retaining { s with
        authority := authority
        revocations := s.revocations.push ⟨credentialId, stage⟩ } other := fun other hretains => by
    obtain ⟨i, revocation, h, heq⟩ := Slots.holds_iff.mp hretains
    exact Slots.holds_iff.mpr ⟨i, revocation, hget i revocation h, heq⟩
  constructor
  · intro i revocation hrevocation
    rcases Slots.get_push_cases hrevocation with ⟨-, rfl⟩ | ⟨-, hrevocation⟩
    · exact hrevoked
    · exact hkept _ (hi.stored i revocation hrevocation)
  · intro other hrevoked
    rcases hnew other hrevoked with hrevoked | ⟨rfl, rfl⟩
    · exact (hi.clean other hrevoked).imp_right (hretaining other)
    · refine .inr (Slots.holds_iff.mpr ⟨s.revocations.next, _, ?_, rfl⟩)
      rw [Slots.get_push, if_pos rfl]
  · intro other hreturned
    obtain ⟨hrevoked, hfree, hdelivering, hretains⟩ := hi.returned other hreturned
    refine ⟨hkept other hrevoked, hfree, hdelivering, fun hnow => ?_⟩
    obtain ⟨i, revocation, h, heq⟩ := Slots.holds_iff.mp hnow
    rcases Slots.get_push_cases h with ⟨-, hlast⟩ | ⟨-, h⟩
    · rw [hlast] at heq
      obtain ⟨hcredential, hstage⟩ := Revocation.mk.inj heq
      rw [← hcredential] at hrevoked
      exact hfresh hstage hrevoked
    · exact hretains (Slots.holds_iff.mpr ⟨i, revocation, h, heq⟩)
  · exact hi.opened

theorem Clearing.retain {i : ℕ} {revocation : Revocation} (hi : s.Clearing)
    (hrevocation : s.revocations.get i = some revocation) :
    Clearing { s with
      pendingGrants := s.pendingGrants.retain fun _ pending =>
        pending.credentialId != revocation.credentialId
      revocations := s.revocations.set i (some { revocation with stage := .returning }) } := by
  let after : Sys := { s with
    pendingGrants := s.pendingGrants.retain fun _ pending =>
      pending.credentialId != revocation.credentialId
    revocations := s.revocations.set i (some { revocation with stage := .returning }) }
  have hlookup : ∀ id pending, after.pendingGrants.lookup id = some pending →
      s.pendingGrants.lookup id = some pending ∧
        pending.credentialId ≠ revocation.credentialId := fun id pending hl => by
    have hl : (s.pendingGrants.retain fun _ pending =>
      pending.credentialId != revocation.credentialId).lookup id = some pending := hl
    rw [Table.lookup_retain] at hl
    obtain ⟨hl, hkeep⟩ := Option.filter_eq_some_iff.mp hl
    exact ⟨hl, by simpa using hkeep⟩
  have hfree : ∀ credentialId, s.Free credentialId → after.Free credentialId :=
    fun credentialId hfree => hfree.mono fun id pending hl => (hlookup id pending hl).1
  constructor
  · intro j found hfound
    rcases Slots.get_set_cases hfound with ⟨-, hset, -⟩ | ⟨-, hfound⟩
    · have hstored := hi.stored i revocation hrevocation
      rw [← Option.some.inj hset]
      exact hstored
    · exact hi.stored j found hfound
  · intro credentialId hrevoked
    by_cases heq : credentialId = revocation.credentialId
    · refine .inl fun id pending hl => ?_
      rw [heq]
      exact (hlookup id pending hl).2
    · rcases hi.clean credentialId hrevoked with hfree' | hretains
      · exact .inl (hfree credentialId hfree')
      · obtain ⟨j, found, hget, hfound⟩ := Slots.holds_iff.mp hretains
        have hne : j ≠ i := by
          intro hij
          rw [hij, hrevocation] at hget
          rw [← Option.some.inj hget] at hfound
          exact heq (congrArg Revocation.credentialId hfound).symm
        refine .inr (Slots.holds_iff.mpr ⟨j, found, ?_, hfound⟩)
        rw [Slots.get_set_ne hne]
        exact hget
  · intro credentialId hreturned
    obtain ⟨hrevoked, hfree', hdelivering, hretains⟩ := hi.returned credentialId hreturned
    refine ⟨hrevoked, hfree credentialId hfree', hdelivering, fun hnow => ?_⟩
    obtain ⟨j, found, hget, hfound⟩ := Slots.holds_iff.mp hnow
    rcases Slots.get_set_cases hget with ⟨-, hset, -⟩ | ⟨-, hget⟩
    · rw [← Option.some.inj hset] at hfound
      cases (Revocation.mk.inj hfound).2
    · exact hretains (Slots.holds_iff.mpr ⟨j, found, hget, hfound⟩)
  · exact hi.opened

theorem Clearing.conclude {i : ℕ} {revocation : Revocation} (hi : s.Clearing)
    (hrevocation : s.revocations.get i = some revocation) (hstage : revocation.stage = .returning)
    (hretains : ¬ s.Retaining revocation.credentialId)
    (hdelivering : ¬ s.Delivering revocation.credentialId) :
    Clearing { s with
      revocations := s.revocations.set i none
      events := s.events ++ [.revoked revocation.credentialId] } := by
  have hretaining : ∀ credentialId,
      Retaining { s with
        revocations := s.revocations.set i none
        events := s.events ++ [.revoked revocation.credentialId] } credentialId ↔
      s.Retaining credentialId := fun credentialId => by
    unfold Retaining
    rw [Slots.holds_iff, Slots.holds_iff]
    constructor
    · rintro ⟨j, found, hget, hfound⟩
      rcases Slots.get_set_cases hget with ⟨-, hnone, -⟩ | ⟨-, hget⟩
      · cases hnone
      · exact ⟨j, found, hget, hfound⟩
    · rintro ⟨j, found, hget, hfound⟩
      have hne : j ≠ i := by
        intro hij
        rw [hij, hrevocation] at hget
        rw [← Option.some.inj hget] at hfound
        rw [hfound] at hstage
        cases hstage
      refine ⟨j, found, ?_, hfound⟩
      show (s.revocations.set i none).get j = some found
      rw [Slots.get_set_ne hne]
      exact hget
  have hrevoked := hi.stored i revocation hrevocation
  constructor
  · intro j found hfound
    rcases Slots.get_set_cases hfound with ⟨-, hset, -⟩ | ⟨-, hfound⟩
    · cases hset
    · exact hi.stored j found hfound
  · intro credentialId hrevoked
    rw [hretaining]
    exact hi.clean credentialId hrevoked
  · intro credentialId hreturned
    rw [hretaining]
    rcases List.mem_append.mp hreturned with hreturned | hreturned
    · exact hi.returned credentialId hreturned
    · rw [Event.revoked.inj (List.mem_singleton.mp hreturned)]
      have hfree := (hi.clean _ hrevoked).resolve_right hretains
      exact ⟨hrevoked, hfree, hdelivering, hretains⟩
  · refine Log.pairwise_append hi.opened fun earlier _ credentialId work _ hwork => ?_
    cases hwork

theorem Clearing.moves (hi : s.Clearing) (hgranting : s.Granting)
    (htracked : s.Tracked config file) (hok : s.settled a) (h : s.Moves config a t) :
    t.Clearing := by
  have hkept : ∀ credentialId, s.Revoked credentialId → t.Revoked credentialId :=
    fun _ => h.revoked_kept htracked
  cases h with
  | quiet _ _ hq => exact hi.quiet hq
  | authority _ _ authority _ _ hkeeps => exact hi.authority hgranting htracked hkept hkeeps
  | begin _ asked route _ => exact hi.frame_same rfl (fun _ _ h => h) (fun _ h => h) rfl rfl
  | advance _ t i call phase hq _ _ =>
    have ht := hi.quiet hq
    exact ht.frame_same rfl (fun _ _ h => h) (fun _ h => h) rfl rfl
  | stop _ t i hq _ =>
    have ht := hi.quiet hq
    exact ht.frame_same rfl (fun _ _ h => h) (fun _ h => h) rfl rfl
  | sign i _ t _ _ _ _ _ _ _ _ _ _ _ hq _ _ =>
    have ht := hi.quiet hq
    exact ht.frame_same rfl (fun _ _ h => h) (fun _ h => h) rfl rfl
  | grant i _ _ _ t call route basis pending hcall hroute _ hcredential _ _ hq =>
    have ht := hi.quiet hq
    have hguard : t.Revoked pending.credentialId → t.Retaining pending.credentialId := by
      rw [hcredential]
      rintro ⟨server, hserver, hmem⟩
      rw [hq.authority] at hserver
      unfold Retaining
      rw [hq.revocations]
      exact hok call hcall route hroute server hserver hmem
    have hgrant : Clearing { t with
        pendingGrants := t.pendingGrants.insert route.request pending
        granted := s.granted ++ [(route, basis)] } := ht.grant hguard
    have hpending := hq.pendingGrants
    rw [← hpending]
    exact ⟨hgrant.stored, hgrant.clean, hgrant.returned, hgrant.opened⟩
  | drop _ grants hgrants => exact hi.frame_same rfl hgrants (fun _ h => h) rfl rfl
  | take _ id pending hpending => exact hi.take hpending
  | deliver i pending hpending =>
    exact hi.deliver hpending (hgranting.deliveries i pending hpending).1
  | abandon i =>
    exact hi.frame_same rfl (fun _ _ h => h) (fun _ h => delivering_of_set h) rfl rfl
  | revoke _ homeId reason credentialId outcome authority stage hstep server next hserver hnext
      hcases =>
    refine hi.revoke hkept ?_ ?_ ?_
    · rintro other ⟨after, hafter, hmem⟩
      have hsame : next = after := Option.some.inj (hnext.symm.trans hafter)
      rw [← hsame] at hmem
      rcases hcases with ⟨-, hunchanged, -⟩ | ⟨hstage, -, hinsert⟩
      · rw [hunchanged] at hmem
        exact .inl ⟨server, hserver, hmem⟩
      · rw [hinsert] at hmem
        rcases Finset.mem_insert.mp hmem with heq | hmem
        · exact .inr ⟨heq, hstage⟩
        · exact .inl ⟨server, hserver, hmem⟩
    · refine ⟨next, hnext, ?_⟩
      rcases hcases with ⟨-, hunchanged, hmem⟩ | ⟨-, -, hinsert⟩
      · rw [hunchanged]
        exact hmem
      · rw [hinsert]
        exact Finset.mem_insert_self _ _
    · rintro hstage ⟨older, holder, hmem⟩
      have hsame : server = older := Option.some.inj (hserver.symm.trans holder)
      rcases hcases with ⟨hstage', -, -⟩ | ⟨-, hfresh, -⟩
      · rw [hstage] at hstage'
        cases hstage'
      · rw [← hsame] at hmem
        exact hfresh hmem
  | retain i revocation hrevocation hstage => exact hi.retain hrevocation
  | conclude i revocation hrevocation hstage =>
    obtain ⟨hretains, hdelivering⟩ := hok revocation hrevocation
    exact hi.conclude hrevocation hstage hretains hdelivering

theorem Granting.step (hi : s.Granting) (htracked : s.Tracked config file) (hok : s.settled a)
    (h : s.step config a = some s') : s'.Granting := by
  obtain ⟨t, hmoves, rfl⟩ := step_moves h
  have ht := hi.moves htracked hok hmoves
  exact ⟨ht.calls, ht.granted, ht.pending, ht.deliveries, ht.works⟩

theorem Clearing.step (hi : s.Clearing) (hgranting : s.Granting) (htracked : s.Tracked config file)
    (hok : s.settled a) (h : s.step config a = some s') : s'.Clearing := by
  obtain ⟨t, hmoves, rfl⟩ := step_moves h
  have ht := hi.moves hgranting htracked hok hmoves
  exact ⟨ht.stored, ht.clean, ht.returned, ht.opened⟩

/-- Where requests are let through by the credential that they name and do not overlap its
revocation, grants are backed. -/
theorem backed_of_settled (config : Config) (file : AuthorizationFile) (generation : ℕ) (s : Sys)
    (h : (machine config file generation).ReachableWhere settled s) : s.Backed := by
  have hi : s.Granting ∧ s.Clearing := by
    refine h.invariant (P := fun s => s.Granting ∧ s.Clearing)
      ⟨Granting.initial, Clearing.initial⟩ fun t a t' ht hi hok hs => ?_
    have htracked : t.Tracked config file := tracked_of_reachableWhere ht
    exact ⟨hi.1.step htracked hok hs, hi.2.step hi.1 htracked hok hs⟩
  have htracked : s.Tracked config file := tracked_of_reachableWhere h
  constructor
  · intro granted hgranted
    exact ⟨htracked.granted granted hgranted, hi.1.granted granted hgranted⟩
  · exact hi.1.works
  · intro credentialId hreturned
    exact (hi.2.returned credentialId hreturned).2.1
  · exact hi.2.opened

/-- A route is granted and opened, and another one is pending when the credential is revoked. -/
theorem backed_of_settled_revoked :
    ∃ s, (machine sampleConfig { state := {} } 1).execWhere settled (sampleStart ++
      [.authorize sampleAsked, .read 0, .login 0 0,
        .request sampleRoute, .read 1, .login 1 0, .locate 1, .list 1, .sign 1 true, .find 1,
        .grant 1 9 [] 0, .ready "relay-1" 5 9 1, .deliver 0,
        .request sampleRoute, .read 2, .login 2 0, .locate 2, .list 2, .sign 2 true, .find 2,
        .grant 2 10 [] 0, .revoke "home-1" 1 "lost" .stored, .retain 0, .conclude 0]) = some s ∧
    s.events.length = 2 ∧ s.granted.length = 2 ∧ s.pendingGrants.len = 0 ∧ s.Backed := by
  have hrun : ((machine sampleConfig { state := {} } 1).execWhere settled (sampleStart ++
      [.authorize sampleAsked, .read 0, .login 0 0,
        .request sampleRoute, .read 1, .login 1 0, .locate 1, .list 1, .sign 1 true, .find 1,
        .grant 1 9 [] 0, .ready "relay-1" 5 9 1, .deliver 0,
        .request sampleRoute, .read 2, .login 2 0, .locate 2, .list 2, .sign 2 true, .find 2,
        .grant 2 10 [] 0, .revoke "home-1" 1 "lost" .stored, .retain 0, .conclude 0])).map
      (fun s => (s.events.length, s.granted.length, s.pendingGrants.len)) = some (2, 2, 0) := by
    decide +kernel
  obtain ⟨s, hs, heq⟩ := Option.map_eq_some_iff.mp hrun
  simp only [Prod.mk.injEq] at heq
  obtain ⟨hevents, hgranted, hpending⟩ := heq
  exact ⟨s, hs, hevents, hgranted, hpending,
    backed_of_settled sampleConfig _ 1 s (Machine.reachableWhere_of_execWhere hs)⟩

/-- A request that was authorized before the revocation becomes pending after it has returned. -/
theorem not_backed_of_reachable :
    ¬ ∀ (config : Config) (file : AuthorizationFile) (generation : ℕ) (s : Sys),
      (machine config file generation).Reachable s → s.Backed := by
  intro hall
  have hrun : ((machine sampleConfig { state := {} } 1).exec (sampleStart ++
      [.authorize sampleAsked, .read 0, .login 0 0,
        .request sampleRoute, .read 1, .login 1 0, .locate 1, .list 1, .sign 1 true, .find 1,
        .revoke "home-1" 1 "lost" .stored, .retain 0, .conclude 0, .grant 1 9 [] 0])).map
      (fun s => (s.events, (s.pendingGrants.lookup 5).map (·.credentialId))) =
      some ([.revoked 1], some 1) := by
    decide +kernel
  obtain ⟨s, hs, heq⟩ := Option.map_eq_some_iff.mp hrun
  obtain ⟨hevents, hpending⟩ := Prod.mk.inj heq
  obtain ⟨pending, hlookup, hcredential⟩ := Option.map_eq_some_iff.mp hpending
  have hreturned : Event.revoked 1 ∈ s.events := by
    rw [hevents]
    exact List.mem_cons_self
  exact (hall _ _ _ s (Machine.reachable_of_exec hs)).pending 1 hreturned 5 pending hlookup
    hcredential

end Sys

end FlowSplice.Server.Travels
