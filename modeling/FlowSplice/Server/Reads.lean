import FlowSplice.Server.Travels

/-! What the calls of the Server have read, and when. -/
namespace FlowSplice.Server.Travels

open Control (RelayDirectory Catalog)
open History (Read)

/-- The clock and the authorization were so when they were read, and this was found in them. -/
structure Basis.Of (history : List View) (asked : Asked) (basis : Basis) : Prop where
  now : basis.now.Of (history.map (·.clock))
  authorization : (basis.authorization.map some).Of (history.map (·.authorization))
  found : readAuthorization basis.authorization.value.verified asked basis.now.value =
    .ok (basis.managementSpkiSha256, basis.credentials)

/-- What the Server shows of a catalog, at some time. -/
def Shows (config : Config) (catalog : Catalog) (basis : Basis) (filtered : Catalog) : Prop :=
  ∃ now, filtered = catalogForCredentials config.codec.toCodec catalog basis.credentials
    (some config.trust) now

def Phase.Of (config : Config) (history : List View) (asked : Asked) : Phase → Prop
  | .started now => now.Of (history.map (·.clock))
  | .checked basis | .online basis | .authorized basis | .granting basis _ =>
    basis.Of history asked
  | .located basis directory =>
    basis.Of history asked ∧ directory.Of (history.map (·.directory))
  | .shown basis directory catalog filtered =>
    basis.Of history asked ∧ directory.Of (history.map (·.directory)) ∧
      catalog.Of (history.map (·.catalog)) ∧ Shows config catalog.value basis filtered

/-- The payload was built from what was read. -/
structure Issued.Of (config : Config) (history : List View) (issued : Issued) : Prop where
  basis : issued.basis.Of history issued.asked
  directory : issued.directory.Of (history.map (·.directory))
  catalog : issued.catalog.Of (history.map (·.catalog))
  travelId : issued.payload.travelId = issued.asked.travelId
  payloadDirectory : issued.payload.relayDirectory = issued.directory.value
  payloadCatalog : Shows config issued.catalog.value issued.basis issued.payload.catalog

variable {config : Config} {file : AuthorizationFile} {generation : ℕ} {history : List View}
  {asked : Asked} {basis : Basis} {phase : Phase} {issued : Issued}

theorem of_append {α : Type} {read : Read α} {f : View → α} (h : read.Of (history.map f))
    (view : View) : read.Of ((history ++ [view]).map f) := by
  rw [List.map_append]
  exact h.append _

theorem Basis.Of.append (h : basis.Of history asked) (view : View) :
    basis.Of (history ++ [view]) asked :=
  ⟨of_append h.now view, of_append h.authorization view, h.found⟩

theorem Phase.Of.append (h : phase.Of config history asked) (view : View) :
    phase.Of config (history ++ [view]) asked := by
  cases phase with
  | started now => exact of_append h view
  | checked basis | online basis | authorized basis => exact Basis.Of.append h view
  | granting basis home => exact Basis.Of.append h view
  | located basis directory => exact ⟨h.1.append view, of_append h.2 view⟩
  | shown basis directory catalog filtered =>
    exact ⟨h.1.append view, of_append h.2.1 view, of_append h.2.2.1 view, h.2.2.2⟩

theorem Issued.Of.append (h : issued.Of config history) (view : View) :
    issued.Of config (history ++ [view]) where
  basis := h.basis.append view
  directory := of_append h.directory view
  catalog := of_append h.catalog view
  travelId := h.travelId
  payloadDirectory := h.payloadDirectory
  payloadCatalog := h.payloadCatalog

namespace Sys
variable {s s' t : Sys} {a : Action}

theorem Moves.history_eq (h : s.Moves config a t) : t.history = s.history := by
  cases h with
  | quiet _ _ hq | advance _ _ _ _ _ hq _ _ | stop _ _ _ hq _
  | sign _ _ _ _ _ _ _ _ _ _ _ _ _ _ hq _ _ | grant _ _ _ _ _ _ _ _ _ _ _ _ _ _ _ hq =>
    exact hq.history
  | authority _ _ _ _ _ _ | begin _ _ _ _ | drop _ _ _ | take _ _ _ _ | deliver _ _ _ | abandon _
  | revoke _ _ _ _ _ _ _ _ _ _ _ _ _ | retain _ _ _ _ | conclude _ _ _ _ => rfl

/-- The authorization changes by a step of its own, which does not stop it. -/
theorem Moves.authority_step (h : s.Moves config a t) : t.authority = s.authority ∨
    ∃ action, action ≠ .stop ∧
      s.authority.step config.toServerConfig action = some t.authority := by
  cases h with
  | quiet _ _ hq | advance _ _ _ _ _ hq _ _ | stop _ _ _ hq _
  | sign _ _ _ _ _ _ _ _ _ _ _ _ _ _ hq _ _ | grant _ _ _ _ _ _ _ _ _ _ _ _ _ _ _ hq =>
    exact .inl hq.authority
  | authority _ action authority haction hstep _ => exact .inr ⟨action, haction, hstep⟩
  | revoke _ homeId reason credentialId outcome authority stage hstep _ _ _ _ _ =>
    have haction : AuthorizationServer.Action.revokeFromHome credentialId reason homeId s.clock
        outcome ≠ .stop := fun hstop => by cases hstop
    exact .inr ⟨_, haction, hstep⟩
  | begin _ _ _ _ | drop _ _ _ | take _ _ _ _ | deliver _ _ _ | abandon _ | retain _ _ _ _
  | conclude _ _ _ _ => exact .inl rfl

/-- The history ends with the present view, and what was read of it is in it. The authorization is
that of a Server of its own, whose snapshots rise. -/
structure Tracked (config : Config) (file : AuthorizationFile) (s : Sys) : Prop where
  authority : (AuthorizationServer.machine config.toServerConfig file).Reachable s.authority
  last : s.history.getLast? = some s.view
  views : ∀ view ∈ s.history, ∀ older, view.authorization = some older →
    older.Sound config.toServerConfig ∧
      ∃ server, s.authority.server = some server ∧ older.snapshot ≤ server.snapshot
  rising : s.history.Pairwise fun first second => ∀ older newer,
    first.authorization = some older → second.authorization = some newer →
      older.snapshot ≤ newer.snapshot
  calls : ∀ i call, s.calls.get i = some call → call.phase.Of config s.history call.asked ∧
    ∀ route, call.route = some route → call.asked = route.asked
  issued : ∀ issued ∈ s.issued, issued.Of config s.history
  granted : ∀ granted ∈ s.granted, granted.2.Of s.history granted.1.asked

theorem Tracked.initial : Tracked config file (machine config file generation).start := by
  constructor
  · exact .refl
  · rfl
  · intro view hview older holder
    rw [List.mem_singleton.mp hview] at holder
    cases holder
  · exact List.pairwise_singleton _ _
  · intro i call hcall
    cases hcall
  · intro issued hissued
    cases hissued
  · intro granted hgranted
    cases hgranted

theorem Tracked.kept (hi : s.Tracked config file) : s.authority.Kept config.toServerConfig :=
  (AuthorizationServer.Sys.sound_of_reachable hi.authority).1

/-- A read of the present state. -/
theorem Tracked.of_view {α : Type} (hi : s.Tracked config file) (f : View → α) :
    Read.Of (s.history.map f) ⟨f s.view, s.time⟩ := by
  have hlast : (s.history.map f).getLast? = some (f s.view) := by
    rw [List.getLast?_map, hi.last]
    rfl
  have hread := Read.of_last hlast
  rw [List.length_map] at hread
  exact hread

/-- The authorization that a move leaves is not behind one that there was. -/
theorem Tracked.views_of_moves (hi : s.Tracked config file) (h : s.Moves config a t) :
    (AuthorizationServer.machine config.toServerConfig file).Reachable t.authority ∧
    ∀ view ∈ s.history, ∀ older, view.authorization = some older →
      older.Sound config.toServerConfig ∧
        ∃ server, t.authority.server = some server ∧ older.snapshot ≤ server.snapshot := by
  rcases h.authority_step with hsame | ⟨action, haction, hstep⟩
  · rw [hsame]
    exact ⟨hi.authority, hi.views⟩
  · constructor
    · exact hi.authority.tail trivial hstep
    · intro view hview older holder
      obtain ⟨hsound, server, hserver, hle⟩ := hi.views view hview older holder
      obtain ⟨next, hnext, hle'⟩ :=
        AuthorizationServer.Sys.step_server hi.kept haction hserver hstep
      exact ⟨hsound, next, hnext, hle.trans hle'⟩

theorem Tracked.advance {i : ℕ} {call : Call} (hi : s.Tracked config file)
    (hphase : call.phase.Of config s.history call.asked)
    (h : s.Advance config i call a phase) : phase.Of config s.history call.asked := by
  cases h with
  | checked now server spki credentials hstarted hserver hread =>
    rw [hstarted] at hphase
    have hauthorization := hi.of_view (·.authorization)
    have hview : s.view.authorization = some server := hserver
    rw [hview] at hauthorization
    exact ⟨hphase, hauthorization, hread⟩
  | online basis instant hchecked =>
    rw [hchecked] at hphase
    exact hphase
  | located basis honline =>
    rw [honline] at hphase
    exact ⟨hphase, hi.of_view (·.directory)⟩
  | shown basis directory hlocated =>
    rw [hlocated] at hphase
    exact ⟨hphase.1, hphase.2, hi.of_view (·.catalog), s.clock, rfl⟩
  | granting basis home hauthorized =>
    rw [hauthorized] at hphase
    exact hphase

/-- The calls after a move have read what the state was. -/
theorem Tracked.calls_of_moves (hi : s.Tracked config file) (h : s.Moves config a t) :
    ∀ i call, t.calls.get i = some call → call.phase.Of config s.history call.asked ∧
      ∀ route, call.route = some route → call.asked = route.asked := by
  intro i call hcall
  cases h with
  | quiet _ _ hq =>
    rw [hq.calls] at hcall
    exact hi.calls i call hcall
  | begin _ asked route hroute =>
    rcases Slots.get_push_cases hcall with ⟨-, rfl⟩ | ⟨-, hcall⟩
    · exact ⟨hi.of_view (·.clock), fun r hr => hroute r hr⟩
    · exact hi.calls i call hcall
  | advance _ t j found phase hq hfound hadvance =>
    have hcall : (t.calls.set j (some { found with phase := phase })).get i = some call := hcall
    rw [hq.calls] at hcall
    rcases Slots.get_set_cases hcall with ⟨-, hafter, -⟩ | ⟨-, hcall⟩
    · obtain ⟨hphase, hroute⟩ := hi.calls j found hfound
      have hphase' := hi.advance hphase hadvance
      rw [← Option.some.inj hafter]
      exact ⟨hphase', hroute⟩
    · exact hi.calls i call hcall
  | stop _ t j hq _ =>
    have hcall : (t.calls.set j none).get i = some call := hcall
    rw [hq.calls] at hcall
    rcases Slots.get_set_cases hcall with ⟨-, hafter, -⟩ | ⟨-, hcall⟩
    · cases hafter
    · exact hi.calls i call hcall
  | sign j _ t found basis directory catalog payload after hfound hshown _ _ hafter _ _ _ =>
    rcases Slots.get_set_cases hcall with ⟨-, hsome, -⟩ | ⟨-, hcall⟩
    · obtain ⟨hphase, hroute⟩ := hi.calls j found hfound
      rw [hshown] at hphase
      rw [hafter call hsome]
      exact ⟨hphase.1, hroute⟩
    · exact hi.calls i call hcall
  | grant j _ _ _ t found route basis pending hfound _ _ _ _ _ _ =>
    rcases Slots.get_set_cases hcall with ⟨-, hafter, -⟩ | ⟨-, hcall⟩
    · cases hafter
    · exact hi.calls i call hcall
  | authority _ _ _ _ _ _ | drop _ _ _ | take _ _ _ _ | deliver _ _ _ | abandon _
  | revoke _ _ _ _ _ _ _ _ _ _ _ _ _ | retain _ _ _ _ | conclude _ _ _ _ =>
    exact hi.calls i call hcall

theorem Tracked.issued_of_moves (hi : s.Tracked config file) (h : s.Moves config a t) :
    ∀ issued ∈ t.issued, issued.Of config s.history := by
  cases h with
  | quiet _ _ hq | advance _ _ _ _ _ hq _ _ | stop _ _ _ hq _
  | grant _ _ _ _ _ _ _ _ _ _ _ _ _ _ _ hq =>
    intro issued hissued
    have hissued : issued ∈ s.issued := hq.issued ▸ hissued
    exact hi.issued issued hissued
  | sign j _ t found basis directory catalog payload after hfound hshown htravel hdirectory _ _ _ _ =>
    have hphase := (hi.calls j found hfound).1
    rw [hshown] at hphase
    obtain ⟨hbasis, hreadDirectory, hreadCatalog, hshows⟩ := hphase
    exact Log.forall_append hi.issued
      ⟨hbasis, hreadDirectory, hreadCatalog, htravel, hdirectory, hshows⟩
  | authority _ _ _ _ _ _ | begin _ _ _ _ | drop _ _ _ | take _ _ _ _ | deliver _ _ _ | abandon _
  | revoke _ _ _ _ _ _ _ _ _ _ _ _ _ | retain _ _ _ _ | conclude _ _ _ _ => exact hi.issued

theorem Tracked.granted_of_moves (hi : s.Tracked config file) (h : s.Moves config a t) :
    ∀ granted ∈ t.granted, granted.2.Of s.history granted.1.asked := by
  cases h with
  | quiet _ _ hq | advance _ _ _ _ _ hq _ _ | stop _ _ _ hq _
  | sign _ _ _ _ _ _ _ _ _ _ _ _ _ _ hq _ _ =>
    intro granted hgranted
    have hgranted : granted ∈ s.granted := hq.granted ▸ hgranted
    exact hi.granted granted hgranted
  | grant j _ _ _ t found route basis pending hfound hroute hgranting _ _ _ _ =>
    obtain ⟨home, hgranting⟩ := hgranting
    obtain ⟨hphase, hasked⟩ := hi.calls j found hfound
    rw [hgranting, hasked route hroute] at hphase
    exact Log.forall_append hi.granted hphase
  | authority _ _ _ _ _ _ | begin _ _ _ _ | drop _ _ _ | take _ _ _ _ | deliver _ _ _ | abandon _
  | revoke _ _ _ _ _ _ _ _ _ _ _ _ _ | retain _ _ _ _ | conclude _ _ _ _ => exact hi.granted

theorem Tracked.step (hi : s.Tracked config file) (h : s.step config a = some s') :
    s'.Tracked config file := by
  obtain ⟨t, hmoves, rfl⟩ := step_moves h
  obtain ⟨hauthority, hviews⟩ := hi.views_of_moves hmoves
  have hhistory : t.record.history = s.history ++ [t.view] := by
    show t.history ++ [t.view] = s.history ++ [t.view]
    rw [hmoves.history_eq]
  have hkept : t.authority.Kept config.toServerConfig :=
    (AuthorizationServer.Sys.sound_of_reachable hauthority).1
  constructor
  · exact hauthority
  · rw [hhistory]
    exact Log.getLast?_append
  · rw [hhistory]
    refine Log.forall_append hviews fun older holder => ?_
    exact ⟨hkept.server older holder, older, holder, le_rfl⟩
  · rw [hhistory]
    refine Log.pairwise_append hi.rising fun view hview older newer holder hnewer => ?_
    obtain ⟨-, server, hserver, hle⟩ := hviews view hview older holder
    have hsame : some server = some newer := hserver.symm.trans hnewer
    rw [← Option.some.inj hsame]
    exact hle
  · rw [hhistory]
    intro i call hcall
    obtain ⟨hphase, hroute⟩ := hi.calls_of_moves hmoves i call hcall
    exact ⟨hphase.append _, hroute⟩
  · rw [hhistory]
    intro issued hissued
    exact (hi.issued_of_moves hmoves issued hissued).append _
  · rw [hhistory]
    intro granted hgranted
    exact (hi.granted_of_moves hmoves granted hgranted).append _

theorem tracked_of_reachableWhere {ok : Sys → Action → Prop}
    (h : (machine config file generation).ReachableWhere ok s) : s.Tracked config file :=
  h.invariant Tracked.initial fun _ _ _ _ hi _ hs => hi.step hs

end Sys

end FlowSplice.Server.Travels
