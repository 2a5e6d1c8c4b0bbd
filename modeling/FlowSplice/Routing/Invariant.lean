import FlowSplice.Routing.System

/-! When route requests of the same id do not meet: no grant is replaced, taken by another request
or mistaken for one, and every answer is to the request of the call that it reaches. -/
namespace FlowSplice.Routing

open Relay (PendingRequests TravelRouteContext)
open Server.Travels (Config PendingRelayGrant takeMatchingPendingGrant)

namespace Event

/-- What a request does to itself. -/
def Own : Event → Prop
  | .delivered call origin _ => origin = call
  | .replaced _ _ => False
  | .taken call owner => owner = some call
  | .failed _ => False

end Event

namespace ToServer

/-- The request of this id. -/
def Requests (requestId : Uuid) : ToServer → Prop
  | .routeRequest _ context => context.request = requestId
  | .relayWorkReady _ _ _ => False

/-- A readiness for this id. -/
def Readies (requestId : Uuid) : ToServer → Prop
  | .routeRequest _ _ => False
  | .relayWorkReady _ id _ => id = requestId

instance (requestId : Uuid) (message : ToServer) : Decidable (message.Requests requestId) := by
  cases message <;> unfold Requests <;> infer_instance

instance (requestId : Uuid) (message : ToServer) : Decidable (message.Readies requestId) := by
  cases message <;> unfold Readies <;> infer_instance

end ToServer

/-- The work of a reply that grants. -/
def Reply.work (reply : Reply) : Option Uuid :=
  match reply.answer with
  | .ok grant => some grant.workId
  | .error _ => none

namespace Call

/-- The request has not been sent. -/
def Early (call : Call) : Prop :=
  match call.phase with
  | .asked | .sending _ => True
  | _ => False

/-- The call is in `PendingRequests::request`, past its registration. -/
def Waits (call : Call) : Prop :=
  match call.phase with
  | .sending _ | .waiting => True
  | _ => False

instance (call : Call) : Decidable call.Early := by
  unfold Early
  cases call.phase <;> infer_instance

instance (call : Call) : Decidable call.Waits := by
  unfold Waits
  cases call.phase <;> infer_instance

/-- The work for which the call has yet to send the readiness. -/
def work (call : Call) : Option Uuid :=
  match call.phase with
  | .asked | .signalled _ _ => none
  | .sending _ | .waiting => call.reply.bind Reply.work
  | .holding grant _ _ => some grant.workId

end Call

namespace Sys

/-- Every answer and every taken grant is that of the request itself, no grant was replaced, and no
session ended at a readiness. -/
def Isolated (s : Sys) : Prop := ∀ event ∈ s.events, event.Own

/-- The call that is registered at a Relay. -/
def entry (s : Sys) (relayId : String) (requestId : Uuid) : Option ℕ :=
  (s.relays relayId).requests.entries.lookup requestId

def Waiting (s : Sys) (i : ℕ) : Prop := s.calls.get i |>.any fun call => decide call.Waits

instance (s : Sys) (i : ℕ) : Decidable (s.Waiting i) := inferInstanceAs (Decidable (_ = true))

/-- A request of this id, or an answer to one, is between the Relay and the Server. -/
def UnderWay (s : Sys) (relayId : String) (requestId : Uuid) : Prop :=
  ∃ session ∈ s.sessions.values, session.relayId = relayId ∧
    ((session.relayEnd ≠ .closed ∧ ∃ message ∈ session.toServer, message.Requests requestId) ∨
      ∃ reply ∈ session.toRelay, reply.requestId = requestId)

/-- A readiness for this id is on its way, or the call that will send it has its grant or waits for
it. -/
def Readying (s : Sys) (requestId : Uuid) : Prop :=
  (∃ session ∈ s.sessions.values, (∃ message ∈ session.toServer, message.Readies requestId) ∨
    ∃ reply ∈ session.toRelay, reply.requestId = requestId ∧ reply.work.isSome ∧
      s.Waiting reply.call) ∨
  s.calls.Holds fun call => call.context.request = requestId ∧ call.work.isSome

instance (s : Sys) (relayId : String) (requestId : Uuid) :
    Decidable (s.UnderWay relayId requestId) :=
  inferInstanceAs (Decidable (∃ _ ∈ _, _))

instance (s : Sys) (requestId : Uuid) : Decidable (s.Readying requestId) :=
  inferInstanceAs (Decidable (_ ∨ _))

/-- The request at the front of a session is granted by this verdict. -/
def granting (s : Sys) (config : Config) (id : Uuid) : Verdict → Option TravelRouteContext
  | .denied _ => none
  | .granted _ _ _ _ _ _ =>
    if config.maxPendingWork ≤ s.pendingGrants.len then none
    else (s.sessions.lookup id).bind fun session =>
      match session.toServer with
      | .routeRequest _ context :: _ => some context
      | _ => none

/-- Requests of one id are kept apart: a Relay registers an id while nothing of it is between the
Relay and the Server, and the Server grants an id while it has no pending grant of it and no
readiness for it can arrive. -/
def apart (config : Config) (s : Sys) : Action → Prop
  | .register i => ∀ call ∈ s.calls.get i, s.entry call.relayId call.context.request = none →
      ¬ s.UnderWay call.relayId call.context.request
  | .handleRequest id verdict => ∀ context ∈ s.granting config id verdict,
      s.pendingGrants.lookup context.request = none ∧ ¬ s.Readying context.request
  | _ => True

instance (config : Config) (s : Sys) (action : Action) : Decidable (apart config s action) :=
  match action with
  | .register _ | .handleRequest _ _ => inferInstanceAs (Decidable (∀ _ ∈ _, _))
  | .connect _ _ | .attach _ | .enter _ | .relayEnds _ _ | .serverEnds _ | .ask _ _ _
  | .refuse _ _ | .send _ | .timeOut _ | .leave _ | .receive _ | .conclude _ _ _ | .signal _
  | .grant _ | .handleReady _ _ | .expire _ | .revoke _ => inferInstanceAs (Decidable True)

end Sys

/-- The work was granted to the request that the reply answers. -/
def Reply.Owned (works : Table Uuid ℕ) (reply : Reply) : Prop :=
  ∀ workId, reply.work = some workId → works.lookup workId = some reply.call

/-- What a call has received answers its own request. -/
structure Call.Owned (works : Table Uuid ℕ) (i : ℕ) (call : Call) : Prop where
  reply : ∀ reply, call.reply = some reply → reply.call = i ∧ reply.Owned works ∧ ¬ call.Early
  holding : ∀ grant origin routeId, call.phase = .holding grant origin routeId →
    origin = i ∧ works.lookup grant.workId = some i
  signalled : ∀ origin routeId, call.phase = .signalled origin routeId → origin = i

/-- Nothing is on the second session that is not on the first. -/
structure Session.Covers (session next : Session) : Prop where
  relayId : next.relayId = session.relayId
  relayEnd : session.relayEnd = .closed → next.relayEnd = .closed
  toServer : next.toServer ⊆ session.toServer
  toRelay : next.toRelay ⊆ session.toRelay

namespace Sys
variable {config : Config} {s s' : Sys} {a : Action} {i j : ℕ} {call next : Call}
  {session session' : Session} {id requestId workId : Uuid} {relayId : String}

/-- The call has sent its request, and may be over. -/
def Past (s : Sys) (i : ℕ) : Prop :=
  i < s.calls.next ∧ ∀ call, s.calls.get i = some call → ¬ call.Early

/-- The readiness that can arrive for the id of a pending grant is that for the grant. -/
structure Matches (s : Sys) (requestId : Uuid) (pending : PendingRelayGrant) : Prop where
  ready : ∀ id session i workId, s.sessions.lookup id = some session →
    ToServer.relayWorkReady i requestId workId ∈ session.toServer →
      pending.workId = workId ∧ pending.relayId = session.relayId
  reply : ∀ id session reply workId, s.sessions.lookup id = some session →
    reply ∈ session.toRelay → reply.requestId = requestId → reply.work = some workId →
      s.Waiting reply.call → pending.workId = workId ∧ pending.relayId = session.relayId
  call : ∀ i call workId, s.calls.get i = some call → call.context.request = requestId →
    call.work = some workId → pending.workId = workId ∧ pending.relayId = call.relayId

/-- Registrations are those of the calls that wait, messages stem from the calls that they name, and
what can arrive under an id belongs together. -/
structure Inv (s : Sys) : Prop where
  entry : ∀ relayId requestId i, s.entry relayId requestId = some i → ∃ call,
    s.calls.get i = some call ∧ call.relayId = relayId ∧ call.context.request = requestId ∧
      call.Waits ∧ call.reply = none
  registered : ∀ i call, s.calls.get i = some call → call.Waits → call.reply = none →
    s.entry call.relayId call.context.request = some i
  call : ∀ i call, s.calls.get i = some call → call.Owned s.works i
  sending : ∀ i call id, s.calls.get i = some call → call.phase = .sending id → ∃ session,
    s.sessions.lookup id = some session ∧ session.relayId = call.relayId
  current : ∀ relayId id, (s.relays relayId).serverSession = some id → ∃ session,
    s.sessions.lookup id = some session ∧ session.relayId = relayId
  request : ∀ id session i context, s.sessions.lookup id = some session →
    ToServer.routeRequest i context ∈ session.toServer → s.Past i ∧
      (session.relayEnd ≠ .closed → ∀ j, s.entry session.relayId context.request = some j → j = i)
  ready : ∀ id session i requestId workId, s.sessions.lookup id = some session →
    ToServer.relayWorkReady i requestId workId ∈ session.toServer →
      s.works.lookup workId = some i
  reply : ∀ id session reply, s.sessions.lookup id = some session → reply ∈ session.toRelay →
    s.Past reply.call ∧ reply.Owned s.works ∧
      ∀ j, s.entry session.relayId reply.requestId = some j → j = reply.call
  pending : ∀ requestId pending, s.pendingGrants.lookup requestId = some pending →
    s.Matches requestId pending
  isolated : s.Isolated

/-- Nothing is under way in the second state that is not in the first. -/
structure Shrinks (s s' : Sys) : Prop where
  entry : ∀ relayId requestId i, s'.entry relayId requestId = some i →
    s.entry relayId requestId = some i ∧ s'.calls.get i = s.calls.get i
  calls : ∀ i call, s'.calls.get i = some call → s.calls.get i = some call ∧
    ∀ relayId requestId, s.entry relayId requestId = some i →
      s'.entry relayId requestId = some i
  next : s'.calls.next = s.calls.next
  sessions : ∀ id session', s'.sessions.lookup id = some session' → ∃ session,
    s.sessions.lookup id = some session ∧ session.Covers session'
  kept : ∀ id session, s.sessions.lookup id = some session → ∃ session',
    s'.sessions.lookup id = some session' ∧ session'.relayId = session.relayId
  current : ∀ relayId id, (s'.relays relayId).serverSession = some id → ∃ session,
    s.sessions.lookup id = some session ∧ session.relayId = relayId
  works : s'.works = s.works
  pending : ∀ requestId pending, s'.pendingGrants.lookup requestId = some pending →
    s.pendingGrants.lookup requestId = some pending
  events : ∀ event ∈ s'.events, event ∈ s.events ∨ event.Own

theorem waiting_iff : s.Waiting i ↔ ∃ call, s.calls.get i = some call ∧ call.Waits := by
  unfold Waiting
  rw [Option.any_eq_true]
  constructor
  · rintro ⟨call, hcall, hwaits⟩
    exact ⟨call, hcall, of_decide_eq_true hwaits⟩
  · rintro ⟨call, hcall, hwaits⟩
    exact ⟨call, hcall, decide_eq_true hwaits⟩

theorem Shrinks.past (h : s.Shrinks s') (hpast : s.Past i) : s'.Past i := by
  constructor
  · rw [h.next]
    exact hpast.1
  · intro call hcall
    exact hpast.2 call (h.calls i call hcall).1

theorem Shrinks.waiting (h : s.Shrinks s') (hwaiting : s'.Waiting i) : s.Waiting i := by
  obtain ⟨call, hcall, hwaits⟩ := waiting_iff.mp hwaiting
  exact waiting_iff.mpr ⟨call, (h.calls i call hcall).1, hwaits⟩

/-- Where nothing comes under way, nothing can meet. -/
theorem Inv.shrink (h : s.Inv) (hs : s.Shrinks s') : s'.Inv := by
  constructor
  · intro relayId requestId i hentry
    obtain ⟨hentry, hget⟩ := hs.entry relayId requestId i hentry
    rw [hget]
    exact h.entry relayId requestId i hentry
  · intro i call hcall hwaits hreply
    obtain ⟨hcall, hkept⟩ := hs.calls i call hcall
    exact hkept _ _ (h.registered i call hcall hwaits hreply)
  · intro i call hcall
    rw [hs.works]
    exact h.call i call (hs.calls i call hcall).1
  · intro i call id hcall hphase
    obtain ⟨session, hsession, hrelay⟩ := h.sending i call id (hs.calls i call hcall).1 hphase
    obtain ⟨session', hsession', hsame⟩ := hs.kept id session hsession
    exact ⟨session', hsession', hsame.trans hrelay⟩
  · intro relayId id hcurrent
    obtain ⟨session, hsession, hrelay⟩ := hs.current relayId id hcurrent
    obtain ⟨session', hsession', hsame⟩ := hs.kept id session hsession
    exact ⟨session', hsession', hsame.trans hrelay⟩
  · intro id session' i context hsession' hmessage
    obtain ⟨session, hsession, hcovers⟩ := hs.sessions id session' hsession'
    obtain ⟨hpast, hown⟩ := h.request id session i context hsession (hcovers.toServer hmessage)
    refine ⟨hs.past hpast, fun hopen j hentry => ?_⟩
    rw [hcovers.relayId] at hentry
    exact hown (fun hover => hopen (hcovers.relayEnd hover)) j (hs.entry _ _ j hentry).1
  · intro id session' i requestId workId hsession' hmessage
    obtain ⟨session, hsession, hcovers⟩ := hs.sessions id session' hsession'
    rw [hs.works]
    exact h.ready id session i requestId workId hsession (hcovers.toServer hmessage)
  · intro id session' reply hsession' hreply
    obtain ⟨session, hsession, hcovers⟩ := hs.sessions id session' hsession'
    obtain ⟨hpast, howned, hown⟩ := h.reply id session reply hsession (hcovers.toRelay hreply)
    rw [hs.works]
    refine ⟨hs.past hpast, howned, fun j hentry => ?_⟩
    rw [hcovers.relayId] at hentry
    exact hown j (hs.entry _ _ j hentry).1
  · intro requestId pending hpending
    have hmatches := h.pending requestId pending (hs.pending requestId pending hpending)
    constructor
    · intro id session' i workId hsession' hmessage
      obtain ⟨session, hsession, hcovers⟩ := hs.sessions id session' hsession'
      rw [hcovers.relayId]
      exact hmatches.ready id session i workId hsession (hcovers.toServer hmessage)
    · intro id session' reply workId hsession' hreply hid hwork hwaiting
      obtain ⟨session, hsession, hcovers⟩ := hs.sessions id session' hsession'
      rw [hcovers.relayId]
      exact hmatches.reply id session reply workId hsession (hcovers.toRelay hreply) hid hwork
        (hs.waiting hwaiting)
    · intro i call workId hcall
      exact hmatches.call i call workId (hs.calls i call hcall).1
  · intro event hevent
    rcases hs.events event hevent with hevent | hown
    · exact h.isolated event hevent
    · exact hown

theorem relays_setRelay_self (s : Sys) (relayId : String) (relay : RelayState) :
    (s.setRelay relayId relay).relays relayId = relay :=
  Function.update_self ..

theorem relays_setRelay_ne (s : Sys) {relayId other : String} (relay : RelayState)
    (hne : other ≠ relayId) : (s.setRelay relayId relay).relays other = s.relays other :=
  Function.update_of_ne hne ..

theorem entry_setRequests (s : Sys) (relayId other : String) (requests : PendingRequests Uuid) :
    (s.setRequests relayId requests).entry other requestId =
      if other = relayId then requests.entries.lookup requestId else s.entry other requestId := by
  unfold entry setRequests
  split_ifs with heq
  · rw [heq, relays_setRelay_self]
  · rw [relays_setRelay_ne s _ heq]

theorem serverSession_setRequests (s : Sys) (relayId other : String)
    (requests : PendingRequests Uuid) :
    ((s.setRequests relayId requests).relays other).serverSession =
      (s.relays other).serverSession := by
  unfold setRequests
  rcases eq_or_ne other relayId with rfl | hne
  · rw [relays_setRelay_self]
  · rw [relays_setRelay_ne s _ hne]

/-- The end of the registration of a call leaves those of the others. -/
theorem Inv.entry_unregister (h : s.Inv) (hcall : s.calls.get i = some call) :
    (s.unregister i call).entry relayId requestId = some j ↔
      s.entry relayId requestId = some j ∧ j ≠ i := by
  unfold unregister
  rw [entry_setRequests]
  constructor
  · intro hentry
    split_ifs at hentry with hrelay
    · obtain ⟨hkept, hother⟩ := PendingRequests.lookup_drop hentry
      rw [← hrelay] at hkept
      refine ⟨hkept, ?_⟩
      rintro rfl
      obtain ⟨found, hfound, -, hid, -⟩ := h.entry relayId requestId j hkept
      rw [hcall] at hfound
      rw [← Option.some.inj hfound] at hid
      exact hother ⟨hid.symm, rfl⟩
    · refine ⟨hentry, ?_⟩
      rintro rfl
      obtain ⟨found, hfound, hfrom, -⟩ := h.entry relayId requestId j hentry
      rw [hcall] at hfound
      rw [← Option.some.inj hfound] at hfrom
      exact hrelay hfrom.symm
  · rintro ⟨hentry, hne⟩
    split_ifs with hrelay
    · rw [hrelay] at hentry
      exact PendingRequests.lookup_drop_of_ne hentry hne
    · exact hentry

theorem Inv.shrinks_self (h : s.Inv) : s.Shrinks s where
  entry := fun _ _ _ hentry => ⟨hentry, rfl⟩
  calls := fun _ _ hcall => ⟨hcall, fun _ _ hentry => hentry⟩
  next := rfl
  sessions := fun _ session hsession =>
    ⟨session, hsession, rfl, fun hover => hover, List.Subset.refl _, List.Subset.refl _⟩
  kept := fun _ session hsession => ⟨session, hsession, rfl⟩
  current := h.current
  works := rfl
  pending := fun _ _ hpending => hpending
  events := fun _ hevent => .inl hevent

theorem Inv.record (h : s.Inv) {event : Event} (hown : event.Own) : (s.record event).Inv :=
  h.shrink { h.shrinks_self with
    events := by
      intro other hother
      rcases List.mem_append.mp hother with hother | hother
      · exact .inl hother
      · rw [List.mem_singleton.mp hother]
        exact .inr hown }

/-- A call ends with its registration. -/
theorem Inv.remove (h : s.Inv) (hcall : s.calls.get i = some call) :
    ((s.unregister i call).finish i).Inv := by
  refine h.shrink { h.shrinks_self with
    entry := ?_
    calls := ?_
    next := Slots.next_set
    current := ?_ }
  · intro relayId requestId j hentry
    obtain ⟨hentry, hne⟩ := (h.entry_unregister hcall).mp hentry
    exact ⟨hentry, Slots.get_set_ne hne⟩
  · intro j other hother
    rcases Slots.get_set_cases hother with ⟨-, hnone, -⟩ | ⟨hne, hother⟩
    · cases hnone
    · exact ⟨hother, fun _ _ hentry => (h.entry_unregister hcall).mpr ⟨hentry, hne⟩⟩
  · intro relayId id hcurrent
    have hsame := serverSession_setRequests s call.relayId relayId
      ((s.relays call.relayId).requests.drop call.context.request i)
    exact h.current relayId id (hsame.symm.trans hcurrent)

theorem Inv.deny (h : s.Inv) (hcall : s.calls.get i = some call) (reason : String) :
    ((s.unregister i call).deny i i reason).Inv :=
  (h.remove hcall).record rfl

/-- A call that is not registered has nothing to drop. -/
theorem Inv.unregister_eq (h : s.Inv) (hcall : s.calls.get i = some call)
    (hfree : ¬ (call.Waits ∧ call.reply = none)) : s.unregister i call = s := by
  have hentry : (s.relays call.relayId).requests.entries.lookup call.context.request ≠ some i := by
    intro hentry
    obtain ⟨found, hfound, -, -, hwaits⟩ := h.entry call.relayId call.context.request i hentry
    rw [hcall] at hfound
    rw [← Option.some.inj hfound] at hwaits
    exact hfree hwaits
  unfold unregister setRequests setRelay PendingRequests.drop
  rw [if_neg hentry]
  simp

theorem Inv.finish (h : s.Inv) (hcall : s.calls.get i = some call)
    (hfree : ¬ (call.Waits ∧ call.reply = none)) : (s.finish i).Inv := by
  have hremoved := h.remove hcall
  rw [h.unregister_eq hcall hfree] at hremoved
  exact hremoved

/-- Pending grants are removed. -/
theorem Inv.removeGrants (h : s.Inv) {grants : Table Uuid PendingRelayGrant}
    (hsub : ∀ requestId pending, grants.lookup requestId = some pending →
      s.pendingGrants.lookup requestId = some pending) (relaySessions : Table String Uuid) :
    Inv { s with pendingGrants := grants, relaySessions } :=
  h.shrink { h.shrinks_self with pending := hsub }

theorem Inv.setCurrent (h : s.Inv) {current : Option Uuid}
    (hcurrent : ∀ id, current = some id → ∃ session, s.sessions.lookup id = some session ∧
      session.relayId = relayId) :
    (s.setRelay relayId { s.relays relayId with serverSession := current }).Inv := by
  have hentry : ∀ other requestId,
      (s.setRelay relayId { s.relays relayId with serverSession := current }).entry other
        requestId = s.entry other requestId := by
    intro other requestId
    unfold Sys.entry
    rcases eq_or_ne other relayId with rfl | hne
    · rw [relays_setRelay_self]
    · rw [relays_setRelay_ne s _ hne]
  refine h.shrink { h.shrinks_self with
    entry := ?_
    calls := ?_
    current := ?_ }
  · intro other requestId j hj
    rw [hentry] at hj
    exact ⟨hj, rfl⟩
  · intro j call hcall
    refine ⟨hcall, fun other requestId hj => ?_⟩
    rw [hentry]
    exact hj
  · intro other id hid
    rcases eq_or_ne other relayId with rfl | hne
    · rw [relays_setRelay_self] at hid
      exact hcurrent id hid
    · rw [relays_setRelay_ne s _ hne] at hid
      exact h.current other id hid

/-- What may be sent to the Server on a session. -/
def Sendable (s : Sys) (relayId : String) : ToServer → Prop
  | .routeRequest i context => s.Past i ∧ ∀ j, s.entry relayId context.request = some j → j = i
  | .relayWorkReady i requestId workId => s.works.lookup workId = some i ∧
      ∀ pending, s.pendingGrants.lookup requestId = some pending →
        pending.workId = workId ∧ pending.relayId = relayId

/-- What may be answered on a session. -/
structure Answerable (s : Sys) (relayId : String) (reply : Reply) : Prop where
  past : s.Past reply.call
  owned : reply.Owned s.works
  entry : ∀ j, s.entry relayId reply.requestId = some j → j = reply.call
  pending : ∀ workId pending, reply.work = some workId →
    s.pendingGrants.lookup reply.requestId = some pending →
      pending.workId = workId ∧ pending.relayId = relayId

theorem Inv.updateSession (h : s.Inv) (hsession : s.sessions.lookup id = some session)
    (hrelayId : session'.relayId = session.relayId)
    (hrelayEnd : session.relayEnd = .closed → session'.relayEnd = .closed)
    (htoServer : ∀ message ∈ session'.toServer,
      message ∈ session.toServer ∨ s.Sendable session.relayId message)
    (htoRelay : ∀ reply ∈ session'.toRelay,
      reply ∈ session.toRelay ∨ s.Answerable session.relayId reply) :
    (s.setSession id session').Inv := by
  have hkept : ∀ id' other, s.sessions.lookup id' = some other → ∃ found,
      (s.setSession id session').sessions.lookup id' = some found ∧
        found.relayId = other.relayId := by
    intro id' other hother
    obtain ⟨found, hfound, ⟨rfl, rfl⟩ | ⟨-, rfl⟩⟩ :=
      Table.exists_lookup_insert (k := id) (a := session') hother
    · rw [hsession] at hother
      rw [← Option.some.inj hother]
      exact ⟨found, hfound, hrelayId⟩
    · exact ⟨found, hfound, rfl⟩
  constructor
  · exact h.entry
  · exact h.registered
  · exact h.call
  · intro i call id' hcall hphase
    obtain ⟨other, hother, hrelay⟩ := h.sending i call id' hcall hphase
    obtain ⟨found, hfound, hsame⟩ := hkept id' other hother
    exact ⟨found, hfound, hsame.trans hrelay⟩
  · intro relayId id' hcurrent
    obtain ⟨other, hother, hrelay⟩ := h.current relayId id' hcurrent
    obtain ⟨found, hfound, hsame⟩ := hkept id' other hother
    exact ⟨found, hfound, hsame.trans hrelay⟩
  · intro id' other i context hother hmessage
    rcases Table.lookup_insert_cases hother with ⟨rfl, rfl⟩ | ⟨-, hother⟩
    · rw [hrelayId]
      rcases htoServer _ hmessage with hmessage | hsendable
      · obtain ⟨hpast, hown⟩ := h.request id' session i context hsession hmessage
        exact ⟨hpast, fun hopen => hown fun hover => hopen (hrelayEnd hover)⟩
      · exact ⟨hsendable.1, fun _ => hsendable.2⟩
    · exact h.request id' other i context hother hmessage
  · intro id' other i requestId workId hother hmessage
    rcases Table.lookup_insert_cases hother with ⟨rfl, rfl⟩ | ⟨-, hother⟩
    · rcases htoServer _ hmessage with hmessage | hsendable
      · exact h.ready id' session i requestId workId hsession hmessage
      · exact hsendable.1
    · exact h.ready id' other i requestId workId hother hmessage
  · intro id' other reply hother hreply
    rcases Table.lookup_insert_cases hother with ⟨rfl, rfl⟩ | ⟨-, hother⟩
    · rw [hrelayId]
      rcases htoRelay _ hreply with hreply | hanswerable
      · exact h.reply id' session reply hsession hreply
      · exact ⟨hanswerable.past, hanswerable.owned, hanswerable.entry⟩
    · exact h.reply id' other reply hother hreply
  · intro requestId pending hpending
    have hmatches := h.pending requestId pending hpending
    constructor
    · intro id' other i workId hother hmessage
      rcases Table.lookup_insert_cases hother with ⟨rfl, rfl⟩ | ⟨-, hother⟩
      · rw [hrelayId]
        rcases htoServer _ hmessage with hmessage | hsendable
        · exact hmatches.ready id' session i workId hsession hmessage
        · exact hsendable.2 pending hpending
      · exact hmatches.ready id' other i workId hother hmessage
    · intro id' other reply workId hother hreply hid hwork hwaiting
      rcases Table.lookup_insert_cases hother with ⟨rfl, rfl⟩ | ⟨-, hother⟩
      · rw [hrelayId]
        rcases htoRelay _ hreply with hreply | hanswerable
        · exact hmatches.reply id' session reply workId hsession hreply hid hwork hwaiting
        · rw [← hid] at hpending
          exact hanswerable.pending workId pending hwork hpending
      · exact hmatches.reply id' other reply workId hother hreply hid hwork hwaiting
    · exact hmatches.call
  · exact h.isolated

/-- Nothing is sent. -/
theorem Inv.coverSession (h : s.Inv) (hsession : s.sessions.lookup id = some session)
    (hcovers : session.Covers session') : (s.setSession id session').Inv :=
  h.updateSession hsession hcovers.relayId hcovers.relayEnd
    (fun _ hmessage => .inl (hcovers.toServer hmessage))
    fun _ hreply => .inl (hcovers.toRelay hreply)

/-- A call is numbered. -/
theorem Inv.ask (h : s.Inv) (relayId : String) (connection : Uuid) (context : TravelRouteContext) :
    (s.ask relayId connection context).Inv := by
  have hget : ∀ i call, (s.ask relayId connection context).calls.get i = some call →
      (i = s.calls.next ∧ call = { relayId, connection, context }) ∨
        (i < s.calls.next ∧ s.calls.get i = some call) := fun _ _ => Slots.get_push_cases
  have hpast : ∀ i, s.Past i → (s.ask relayId connection context).Past i := by
    intro i hpast
    constructor
    · show i < (s.calls.push _).next
      rw [Slots.next_push]
      have hlt := hpast.1
      omega
    · intro call hcall
      rcases hget i call hcall with ⟨heq, -⟩ | ⟨-, hcall⟩
      · have hlt := hpast.1
        omega
      · exact hpast.2 call hcall
  constructor
  · intro relayId' requestId i hentry
    obtain ⟨call, hcall, hof⟩ := h.entry relayId' requestId i hentry
    exact ⟨call, Slots.get_push_of_some hcall, hof⟩
  · intro i call hcall hwaits
    rcases hget i call hcall with ⟨-, rfl⟩ | ⟨-, hcall⟩
    · exact hwaits.elim
    · exact h.registered i call hcall hwaits
  · intro i call hcall
    rcases hget i call hcall with ⟨-, rfl⟩ | ⟨-, hcall⟩
    · exact ⟨fun _ hreply => (by cases hreply), fun _ _ _ hphase => (by cases hphase),
        fun _ _ hphase => (by cases hphase)⟩
    · exact h.call i call hcall
  · intro i call id hcall hphase
    rcases hget i call hcall with ⟨-, rfl⟩ | ⟨-, hcall⟩
    · cases hphase
    · exact h.sending i call id hcall hphase
  · exact h.current
  · intro id session i context' hsession hmessage
    obtain ⟨hpast', hown⟩ := h.request id session i context' hsession hmessage
    exact ⟨hpast i hpast', hown⟩
  · exact h.ready
  · intro id session reply hsession hreply
    obtain ⟨hpast', hown⟩ := h.reply id session reply hsession hreply
    exact ⟨hpast _ hpast', hown⟩
  · intro requestId pending hpending
    have hmatches := h.pending requestId pending hpending
    constructor
    · exact hmatches.ready
    · intro id session reply workId hsession hreply hid hwork hwaiting
      refine hmatches.reply id session reply workId hsession hreply hid hwork ?_
      obtain ⟨call, hcall, hwaits⟩ := waiting_iff.mp hwaiting
      rcases hget _ call hcall with ⟨-, rfl⟩ | ⟨-, hcall⟩
      · exact hwaits.elim
      · exact waiting_iff.mpr ⟨call, hcall, hwaits⟩
    · intro i call workId hcall hid hwork
      rcases hget i call hcall with ⟨-, rfl⟩ | ⟨-, hcall⟩
      · cases hwork
      · exact hmatches.call i call workId hcall hid hwork
  · exact h.isolated

/-- How a call moves on, and what is registered with it. -/
structure Moves (s : Sys) (i : ℕ) (call next : Call) (requests : PendingRequests Uuid) : Prop where
  relayId : next.relayId = call.relayId
  context : next.context = call.context
  others : ∀ requestId j, j ≠ i →
    (requests.entries.lookup requestId = some j ↔ s.entry call.relayId requestId = some j)
  own : ∀ requestId, requests.entries.lookup requestId = some i ↔
    requestId = call.context.request ∧ next.Waits ∧ next.reply = none
  apart : next.Waits → next.reply = none → s.entry call.relayId call.context.request = some i ∨
    ¬ s.UnderWay call.relayId call.context.request
  owned : next.Owned s.works i
  sending : ∀ id, next.phase = .sending id → ∃ session, s.sessions.lookup id = some session ∧
    session.relayId = call.relayId
  early : next.Early → call.Early
  waits : next.Waits → call.Early ∨ call.Waits
  work : ∀ workId pending, next.work = some workId →
    s.pendingGrants.lookup call.context.request = some pending →
      pending.workId = workId ∧ pending.relayId = call.relayId

theorem underWay_of_request {context : TravelRouteContext}
    (hsession : s.sessions.lookup id = some session) (hopen : session.relayEnd ≠ .closed)
    (hmessage : ToServer.routeRequest i context ∈ session.toServer) :
    s.UnderWay session.relayId context.request :=
  ⟨session, Table.mem_values.mpr ⟨id, hsession⟩, rfl, .inl ⟨hopen, _, hmessage, rfl⟩⟩

theorem underWay_of_reply {reply : Reply} (hsession : s.sessions.lookup id = some session)
    (hreply : reply ∈ session.toRelay) : s.UnderWay session.relayId reply.requestId :=
  ⟨session, Table.mem_values.mpr ⟨id, hsession⟩, rfl, .inr ⟨_, hreply, rfl⟩⟩

/-- A registration after a move was there, or is that of the call. -/
theorem Inv.entry_move (h : s.Inv) (hcall : s.calls.get i = some call)
    {requests : PendingRequests Uuid} (hm : s.Moves i call next requests) :
    (s.setRequests call.relayId requests).entry relayId requestId = some j ↔
      (j ≠ i ∧ s.entry relayId requestId = some j) ∨
        (j = i ∧ relayId = call.relayId ∧ requestId = call.context.request ∧ next.Waits ∧
          next.reply = none) := by
  rw [entry_setRequests]
  by_cases hj : j = i
  · subst hj
    split_ifs with hrelay
    · rw [hm.own]
      constructor
      · exact fun hown => .inr ⟨rfl, hrelay, hown⟩
      · rintro (⟨hne, -⟩ | ⟨-, -, hown⟩)
        · exact absurd rfl hne
        · exact hown
    · constructor
      · intro hentry
        obtain ⟨found, hfound, hfrom, -⟩ := h.entry relayId requestId j hentry
        rw [hcall] at hfound
        rw [← Option.some.inj hfound] at hfrom
        exact absurd hfrom.symm hrelay
      · rintro (⟨hne, -⟩ | ⟨-, heq, -⟩)
        · exact absurd rfl hne
        · exact absurd heq hrelay
  · have hkept : (if relayId = call.relayId then requests.entries.lookup requestId
        else s.entry relayId requestId) = some j ↔ s.entry relayId requestId = some j := by
      split_ifs with hrelay
      · rw [hm.others requestId j hj, hrelay]
      · rfl
    rw [hkept]
    constructor
    · exact fun hentry => .inl ⟨hj, hentry⟩
    · rintro (⟨-, hentry⟩ | ⟨heq, -⟩)
      · exact hentry
      · exact absurd heq hj

theorem Inv.move (h : s.Inv) (hcall : s.calls.get i = some call) {requests : PendingRequests Uuid}
    (hm : s.Moves i call next requests) :
    ((s.setRequests call.relayId requests).setCall i next).Inv := by
  have hget : ∀ j other, (s.calls.set i (some next)).get j = some other →
      (j = i ∧ next = other) ∨ (j ≠ i ∧ s.calls.get j = some other) := by
    intro j other hother
    rcases Slots.get_set_cases hother with ⟨heq, hother, -⟩ | hkept
    · exact .inl ⟨heq, Option.some.inj hother⟩
    · exact .inr hkept
  have hpast : ∀ j, s.Past j →
      ((s.setRequests call.relayId requests).setCall i next).Past j := by
    intro j hpast
    constructor
    · show j < (s.calls.set i (some next)).next
      rw [Slots.next_set]
      exact hpast.1
    · intro other hother
      rcases hget j other hother with ⟨rfl, rfl⟩ | ⟨-, hother⟩
      · exact fun hearly => hpast.2 call hcall (hm.early hearly)
      · exact hpast.2 other hother
  have hentry : ∀ {relayId requestId k}, (s.UnderWay relayId requestId) →
      (∀ j, s.entry relayId requestId = some j → j = k) →
      ∀ j, (s.setRequests call.relayId requests).entry relayId requestId = some j → j = k := by
    intro relayId requestId k hunder hown j hj
    rcases (h.entry_move hcall hm).mp hj with ⟨-, hj⟩ | ⟨rfl, rfl, rfl, hwaits, hreply⟩
    · exact hown j hj
    · rcases hm.apart hwaits hreply with hentry | hapart
      · exact hown j hentry
      · exact absurd hunder hapart
  have hsession : ∀ relayId id, ((s.setRequests call.relayId requests).relays
      relayId).serverSession = some id → (s.relays relayId).serverSession = some id := by
    intro relayId id hcurrent
    rw [serverSession_setRequests] at hcurrent
    exact hcurrent
  constructor
  · intro relayId requestId j hj
    rcases (h.entry_move hcall hm).mp hj with ⟨hne, hj⟩ | ⟨rfl, rfl, rfl, hwaits, hreply⟩
    · obtain ⟨other, hother, hof⟩ := h.entry relayId requestId j hj
      exact ⟨other, (Slots.get_set_ne hne).trans hother, hof⟩
    · have hcontext : next.context.request = call.context.request := by rw [hm.context]
      exact ⟨next, Slots.get_set_self hcall, hm.relayId, hcontext, hwaits, hreply⟩
  · intro j other hother hwaits hreply
    rcases hget j other hother with ⟨rfl, rfl⟩ | ⟨hne, hother⟩
    · rw [hm.relayId, hm.context]
      exact (h.entry_move hcall hm).mpr (.inr ⟨rfl, rfl, rfl, hwaits, hreply⟩)
    · have hj := h.registered j other hother hwaits hreply
      exact (h.entry_move hcall hm).mpr (.inl ⟨hne, hj⟩)
  · intro j other hother
    rcases hget j other hother with ⟨rfl, rfl⟩ | ⟨-, hother⟩
    · exact hm.owned
    · exact h.call j other hother
  · intro j other id hother hphase
    rcases hget j other hother with ⟨rfl, rfl⟩ | ⟨-, hother⟩
    · rw [hm.relayId]
      exact hm.sending id hphase
    · exact h.sending j other id hother hphase
  · exact fun relayId id hcurrent => h.current relayId id (hsession relayId id hcurrent)
  · intro id session k context hfound hmessage
    obtain ⟨hpast', hown⟩ := h.request id session k context hfound hmessage
    refine ⟨hpast k hpast', fun hopen => ?_⟩
    exact hentry (underWay_of_request hfound hopen hmessage) (hown hopen)
  · exact h.ready
  · intro id session reply hfound hreply
    obtain ⟨hpast', howned, hown⟩ := h.reply id session reply hfound hreply
    exact ⟨hpast _ hpast', howned, hentry (underWay_of_reply hfound hreply) hown⟩
  · intro requestId pending hpending
    have hmatches := h.pending requestId pending hpending
    constructor
    · exact hmatches.ready
    · intro id session reply workId hfound hreply hid hwork hwaiting
      refine hmatches.reply id session reply workId hfound hreply hid hwork ?_
      obtain ⟨other, hother, hwaits⟩ := waiting_iff.mp hwaiting
      rcases hget _ other hother with ⟨heq, rfl⟩ | ⟨-, hother⟩
      · rw [heq]
        rcases hm.waits hwaits with hearly | hwaits
        · obtain ⟨hpast', -⟩ := h.reply id session reply hfound hreply
          rw [heq] at hpast'
          exact absurd hearly (hpast'.2 call hcall)
        · exact waiting_iff.mpr ⟨call, hcall, hwaits⟩
      · exact waiting_iff.mpr ⟨other, hother, hwaits⟩
    · intro j other workId hother hid hwork
      rcases hget j other hother with ⟨rfl, rfl⟩ | ⟨-, hother⟩
      · rw [hm.relayId]
        rw [hm.context] at hid
        rw [← hid] at hpending
        exact hm.work workId pending hwork hpending
      · exact hmatches.call j other workId hother hid hwork
  · exact h.isolated

theorem setRequests_self (s : Sys) (relayId : String) :
    s.setRequests relayId (s.relays relayId).requests = s := by
  unfold setRequests setRelay
  simp

/-- A call moves on beside its registration. -/
theorem Inv.setCall (h : s.Inv) (hcall : s.calls.get i = some call)
    (hrelayId : next.relayId = call.relayId) (hcontext : next.context = call.context)
    (hwaits : next.Waits ∧ next.reply = none ↔ call.Waits ∧ call.reply = none)
    (howned : next.Owned s.works i) (hsending : ∀ id, next.phase ≠ .sending id)
    (hearly : ¬ next.Early) (hwaiting : next.Waits → call.Waits)
    (hwork : ∀ workId, next.work = some workId → call.work = some workId) :
    (s.setCall i next).Inv := by
  have hmoves : s.Moves i call next (s.relays call.relayId).requests := by
    constructor
    · exact hrelayId
    · exact hcontext
    · exact fun _ _ _ => Iff.rfl
    · intro requestId
      constructor
      · intro hentry
        obtain ⟨found, hfound, -, hid, hof⟩ := h.entry call.relayId requestId i hentry
        rw [hcall] at hfound
        rw [← Option.some.inj hfound] at hid hof
        exact ⟨hid.symm, hwaits.mpr hof⟩
      · rintro ⟨rfl, hof⟩
        obtain ⟨hcallWaits, hreply⟩ := hwaits.mp hof
        exact h.registered i call hcall hcallWaits hreply
    · intro hnext hreply
      obtain ⟨hcallWaits, hreply⟩ := hwaits.mp ⟨hnext, hreply⟩
      exact .inl (h.registered i call hcall hcallWaits hreply)
    · exact howned
    · exact fun id hphase => absurd hphase (hsending id)
    · exact fun hnext => absurd hnext hearly
    · exact fun hnext => .inr (hwaiting hnext)
    · intro workId pending hnext hpending
      have hmatches := h.pending _ pending hpending
      exact hmatches.call i call workId hcall rfl (hwork workId hnext)
  have hinv := h.move hcall hmoves
  rw [setRequests_self] at hinv
  exact hinv

theorem readying_of_ready (hsession : s.sessions.lookup id = some session)
    (hmessage : ToServer.relayWorkReady i requestId workId ∈ session.toServer) :
    s.Readying requestId :=
  .inl ⟨session, Table.mem_values.mpr ⟨id, hsession⟩, .inl ⟨_, hmessage, rfl⟩⟩

theorem readying_of_reply {reply : Reply} (hsession : s.sessions.lookup id = some session)
    (hreply : reply ∈ session.toRelay) (hwork : reply.work = some workId)
    (hwaiting : s.Waiting reply.call) : s.Readying reply.requestId := by
  have hsome : reply.work.isSome := by rw [hwork]; rfl
  exact .inl ⟨session, Table.mem_values.mpr ⟨id, hsession⟩, .inr ⟨reply, hreply, rfl, hsome, hwaiting⟩⟩

theorem readying_of_call (hcall : s.calls.get i = some call) (hwork : call.work = some workId) :
    s.Readying call.context.request := by
  have hsome : call.work.isSome := by rw [hwork]; rfl
  exact .inr (Slots.holds_iff.mpr ⟨i, call, hcall, rfl, hsome⟩)

theorem lookup_insert_fresh {works : Table Uuid ℕ} (hfresh : works.lookup workId = none) (i : ℕ)
    {other : Uuid} (hother : works.lookup other = some j) :
    (works.insert workId i).lookup other = some j := by
  have hne : other ≠ workId := by
    rintro rfl
    rw [hfresh] at hother
    cases hother
  rw [AList.lookup_insert_ne hne]
  exact hother

/-- A grant becomes pending under an id for which no readiness can arrive. -/
theorem Inv.insertGrant (h : s.Inv) (hfresh : s.works.lookup workId = none)
    (hclear : ¬ s.Readying requestId) (pending : PendingRelayGrant) (i : ℕ) :
    Inv { s with
      pendingGrants := s.pendingGrants.insert requestId pending
      works := s.works.insert workId i } := by
  have hreply : ∀ reply : Reply, reply.Owned s.works → reply.Owned (s.works.insert workId i) :=
    fun reply howned other hwork => lookup_insert_fresh hfresh i (howned other hwork)
  constructor
  · exact h.entry
  · exact h.registered
  · intro j call hcall
    have howned := h.call j call hcall
    constructor
    · intro reply hfound
      obtain ⟨hof, hwork, hearly⟩ := howned.reply reply hfound
      exact ⟨hof, hreply reply hwork, hearly⟩
    · intro grant origin routeId hphase
      obtain ⟨hof, hwork⟩ := howned.holding grant origin routeId hphase
      exact ⟨hof, lookup_insert_fresh hfresh i hwork⟩
    · exact howned.signalled
  · exact h.sending
  · exact h.current
  · exact h.request
  · intro id session j other work hsession hmessage
    exact lookup_insert_fresh hfresh i (h.ready id session j other work hsession hmessage)
  · intro id session reply hsession hfound
    obtain ⟨hpast, howned, hown⟩ := h.reply id session reply hsession hfound
    exact ⟨hpast, hreply reply howned, hown⟩
  · intro other found hfound
    rcases Table.lookup_insert_cases hfound with ⟨rfl, rfl⟩ | ⟨-, hfound⟩
    · constructor
      · intro id session j work hsession hmessage
        exact absurd (readying_of_ready hsession hmessage) hclear
      · intro id session reply work hsession hfound hid hwork hwaiting
        rw [← hid] at hclear
        exact absurd (readying_of_reply hsession hfound hwork hwaiting) hclear
      · intro j call work hcall hid hwork
        rw [← hid] at hclear
        exact absurd (readying_of_call hcall hwork) hclear
    · have hmatches := h.pending other found hfound
      exact ⟨hmatches.ready, hmatches.reply, hmatches.call⟩
  · exact h.isolated

end Sys

end FlowSplice.Routing
