import FlowSplice.Routing.Invariant

/-! The steps of the Relays and of the Server keep requests apart. -/
namespace FlowSplice.Routing

open Relay (PendingRequests TravelRouteContext)
open Server.Travels (Config PendingRelayGrant takeMatchingPendingGrant)

namespace Sys
variable {config : Config} {s s' : Sys} {a : Action} {i : ℕ} {call : Call}
  {session : Session} {id : Uuid}

/-- A session that opens has nothing on it. -/
theorem Inv.connect (h : s.Inv) {relayId : String} (hs : s.connect id relayId = some s') :
    s'.Inv := by
  unfold Sys.connect at hs
  split at hs
  · cases hs
  · next hfree =>
    rw [← Option.some.inj hs]
    have hkept : ∀ id' other, s.sessions.lookup id' = some other →
        (s.sessions.insert id { relayId }).lookup id' = some other := by
      intro id' other hother
      have hne : id' ≠ id := by
        rintro rfl
        rw [hfree] at hother
        cases hother
      rw [AList.lookup_insert_ne hne]
      exact hother
    constructor
    · exact h.entry
    · exact h.registered
    · exact h.call
    · intro i call id' hcall hphase
      obtain ⟨other, hother, hrelay⟩ := h.sending i call id' hcall hphase
      exact ⟨other, hkept id' other hother, hrelay⟩
    · intro relayId' id' hcurrent
      obtain ⟨other, hother, hrelay⟩ := h.current relayId' id' hcurrent
      exact ⟨other, hkept id' other hother, hrelay⟩
    · intro id' other i context hother hmessage
      rcases Table.lookup_insert_cases hother with ⟨-, rfl⟩ | ⟨-, hother⟩
      · cases hmessage
      · exact h.request id' other i context hother hmessage
    · intro id' other i requestId workId hother hmessage
      rcases Table.lookup_insert_cases hother with ⟨-, rfl⟩ | ⟨-, hother⟩
      · cases hmessage
      · exact h.ready id' other i requestId workId hother hmessage
    · intro id' other reply hother hreply
      rcases Table.lookup_insert_cases hother with ⟨-, rfl⟩ | ⟨-, hother⟩
      · cases hreply
      · exact h.reply id' other reply hother hreply
    · intro requestId pending hpending
      have hmatches := h.pending requestId pending hpending
      constructor
      · intro id' other i workId hother hmessage
        rcases Table.lookup_insert_cases hother with ⟨-, rfl⟩ | ⟨-, hother⟩
        · cases hmessage
        · exact hmatches.ready id' other i workId hother hmessage
      · intro id' other reply workId hother hreply
        rcases Table.lookup_insert_cases hother with ⟨-, rfl⟩ | ⟨-, hother⟩
        · cases hreply
        · exact hmatches.reply id' other reply workId hother hreply
      · exact hmatches.call
    · exact h.isolated

theorem Inv.attach (h : s.Inv) (hs : s.attach id = some s') : s'.Inv := by
  obtain ⟨session, hsession, hs⟩ := Option.bind_eq_some_iff.mp hs
  split_ifs at hs with hopening
  rw [← Option.some.inj hs]
  have hrunning : (s.setSession id { session with relayEnd := .running }).Inv := by
    refine h.coverSession hsession ⟨rfl, fun hover => ?_, List.Subset.refl _, List.Subset.refl _⟩
    rw [hopening] at hover
    cases hover
  refine hrunning.setCurrent fun id' hid => ?_
  rw [← Option.some.inj hid]
  exact ⟨_, AList.lookup_insert _, rfl⟩

theorem Inv.enter (h : s.Inv) (hs : s.enter id = some s') : s'.Inv := by
  obtain ⟨session, hsession, hs⟩ := Option.bind_eq_some_iff.mp hs
  split_ifs at hs
  rw [← Option.some.inj hs]
  have hrunning : (s.setSession id { session with serverEnd := .running }).Inv :=
    h.coverSession hsession ⟨rfl, fun hover => hover, List.Subset.refl _, List.Subset.refl _⟩
  exact hrunning.removeGrants (fun _ _ hpending => hpending) _

theorem Inv.relayEnds (h : s.Inv) {written : ℕ} (hs : s.relayEnds id written = some s') :
    s'.Inv := by
  obtain ⟨session, hsession, rfl⟩ := Option.map_eq_some_iff.mp hs
  have hended : (s.setSession id { session with
      relayEnd := .closed
      toServer := session.toServer.take written
      toRelay := [] }).Inv :=
    h.coverSession hsession ⟨rfl, fun _ => rfl, List.take_subset _ _, List.nil_subset _⟩
  dsimp only
  split_ifs
  · exact hended.setCurrent fun id' hid => by cases hid
  · exact hended

theorem Inv.endServer (h : s.Inv) (hsession : s.sessions.lookup id = some session) :
    (s.endServer id session).Inv := by
  have hended : (s.setSession id { session with serverEnd := .closed, toServer := [] }).Inv :=
    h.coverSession hsession ⟨rfl, fun hover => hover, List.nil_subset _, List.Subset.refl _⟩
  unfold Sys.endServer
  dsimp only
  split_ifs
  · refine hended.removeGrants (fun requestId pending hpending => ?_) _
    rw [Table.lookup_retain] at hpending
    exact (Option.filter_eq_some_iff.mp hpending).1
  · exact hended

theorem not_waits_of_asked (hphase : call.phase = .asked) :
    ¬ (call.Waits ∧ call.reply = none) := by
  rintro ⟨hwaits, -⟩
  unfold Call.Waits at hwaits
  rw [hphase] at hwaits
  exact hwaits

theorem Inv.refuse (h : s.Inv) {refusal : Refusal} (hs : s.refuse i refusal = some s') :
    s'.Inv := by
  obtain ⟨call, hcall, hs⟩ := Option.bind_eq_some_iff.mp hs
  split at hs
  · next hphase =>
    rw [← Option.some.inj hs]
    exact (h.finish hcall (not_waits_of_asked hphase)).record rfl
  · cases hs

/-- What a call that has not sent its request has received. -/
theorem Inv.reply_eq_none (h : s.Inv) (hcall : s.calls.get i = some call) (hearly : call.Early) :
    call.reply = none := by
  cases hreply : call.reply with
  | none => rfl
  | some reply =>
    obtain ⟨-, -, hlate⟩ := (h.call i call hcall).reply reply hreply
    exact absurd hearly hlate

theorem Inv.register (h : s.Inv)
    (hok : ∀ call ∈ s.calls.get i, s.entry call.relayId call.context.request = none →
      ¬ s.UnderWay call.relayId call.context.request)
    (hs : s.register i = some s') : s'.Inv := by
  obtain ⟨call, hcall, hs⟩ := Option.bind_eq_some_iff.mp hs
  split at hs
  · next hphase =>
    have hasked := not_waits_of_asked hphase
    have hearly : call.Early := by
      unfold Call.Early
      rw [hphase]
      trivial
    have hnone := h.reply_eq_none hcall hearly
    split at hs
    · rw [← Option.some.inj hs]
      exact (h.finish hcall hasked).record rfl
    · next id hcurrent =>
      split at hs
      · rw [← Option.some.inj hs]
        exact (h.finish hcall hasked).record rfl
      · next requests hrequests =>
        rw [← Option.some.inj hs]
        obtain ⟨hfree, hinsert⟩ := PendingRequests.register_ok hrequests
        have hmoves : s.Moves i call { call with phase := .sending id } requests := by
          constructor
          · rfl
          · rfl
          · intro requestId j hne
            rw [hinsert]
            by_cases hid : requestId = call.context.request
            · unfold Sys.entry
              rw [hid, AList.lookup_insert, hfree]
              constructor
              · intro heq
                exact absurd (Option.some.inj heq).symm hne
              · intro heq
                cases heq
            · rw [AList.lookup_insert_ne hid]
              rfl
          · intro requestId
            rw [hinsert]
            constructor
            · intro hentry
              rcases Table.lookup_insert_cases hentry with ⟨hid, -⟩ | ⟨-, hentry⟩
              · exact ⟨hid, trivial, hnone⟩
              · obtain ⟨found, hfound, -, -, hof⟩ := h.entry call.relayId requestId i hentry
                rw [hcall] at hfound
                rw [← Option.some.inj hfound] at hof
                exact absurd hof hasked
            · rintro ⟨rfl, -⟩
              exact AList.lookup_insert _
          · intro _ _
            exact .inr (hok call hcall hfree)
          · constructor
            · intro reply hreply
              rw [hnone] at hreply
              cases hreply
            · exact fun _ _ _ hholding => (by cases hholding)
            · exact fun _ _ hsignalled => (by cases hsignalled)
          · intro id' hid
            rw [← Phase.sending.inj hid]
            exact h.current call.relayId id hcurrent
          · exact fun _ => hearly
          · exact fun _ => .inl hearly
          · intro workId pending hwork
            unfold Call.work at hwork
            rw [hnone] at hwork
            cases hwork
        exact h.move hcall hmoves
  · cases hs

theorem Inv.send (h : s.Inv) (hs : s.send i = some s') : s'.Inv := by
  obtain ⟨call, hcall, hs⟩ := Option.bind_eq_some_iff.mp hs
  split at hs
  · next id hphase =>
    obtain ⟨session, hsession, rfl⟩ := Option.map_eq_some_iff.mp hs
    split_ifs
    · have hearly : call.Early := by
        unfold Call.Early
        rw [hphase]
        trivial
      have hwaits : call.Waits := by
        unfold Call.Waits
        rw [hphase]
        trivial
      have hnone := h.reply_eq_none hcall hearly
      have hwaiting : (s.setCall i { call with phase := .waiting }).Inv := by
        refine h.setCall hcall rfl rfl ⟨fun hof => ⟨hwaits, hof.2⟩, fun hof => ⟨trivial, hof.2⟩⟩
          ⟨?_, ?_, ?_⟩ ?_ (fun hlate => hlate) (fun _ => hwaits) ?_
        · intro reply hreply
          rw [hnone] at hreply
          cases hreply
        · exact fun _ _ _ hholding => (by cases hholding)
        · exact fun _ _ hsignalled => (by cases hsignalled)
        · exact fun _ hsending => (by cases hsending)
        · intro workId hwork
          unfold Call.work at hwork
          rw [hnone] at hwork
          cases hwork
      have hget : (s.calls.set i (some { call with phase := .waiting })).get i =
          some { call with phase := .waiting } := Slots.get_set_self hcall
      obtain ⟨found, hfound, hrelay⟩ := h.sending i call id hcall hphase
      rw [hsession] at hfound
      obtain rfl := Option.some.inj hfound
      refine hwaiting.updateSession hsession rfl (fun hover => hover) ?_ fun _ hreply => .inl hreply
      intro message hmessage
      rcases List.mem_append.mp hmessage with hmessage | hmessage
      · exact .inl hmessage
      · right
        rw [List.mem_singleton.mp hmessage]
        refine ⟨⟨?_, fun other hother => ?_⟩, fun j hj => ?_⟩
        · show i < (s.calls.set i _).next
          rw [Slots.next_set]
          exact Slots.lt_next_of_get hcall
        · have hother : (s.calls.set i (some { call with phase := .waiting })).get i = some other :=
            hother
          rw [hget] at hother
          rw [← Option.some.inj hother]
          exact fun hlate => hlate
        · have hown := hwaiting.registered i _ hget trivial hnone
          rw [hrelay] at hj
          exact Option.some.inj (hj.symm.trans hown)
    · exact h.deny hcall _
  · cases hs

theorem Inv.timeOut (h : s.Inv) (hs : s.timeOut i = some s') : s'.Inv := by
  obtain ⟨call, hcall, hs⟩ := Option.bind_eq_some_iff.mp hs
  split at hs
  · rw [← Option.some.inj hs]
    exact h.deny hcall _
  · rw [← Option.some.inj hs]
    exact h.deny hcall _
  · rw [← Option.some.inj hs]
    exact h.deny hcall _
  · cases hs

theorem Inv.leave (h : s.Inv) (hs : s.leave i = some s') : s'.Inv := by
  obtain ⟨call, hcall, rfl⟩ := Option.map_eq_some_iff.mp hs
  exact h.remove hcall

/-- The registration of an id that is answered is that of the call whose request is answered. -/
theorem Inv.receive (h : s.Inv) (hs : s.receive id = some s') : s'.Inv := by
  obtain ⟨session, hsession, hs⟩ := Option.bind_eq_some_iff.mp hs
  split at hs
  · next reply toRelay hend hfront =>
    have hmem : reply ∈ session.toRelay := by
      rw [hfront]
      exact List.mem_cons_self
    have hread : (s.setSession id { session with toRelay }).Inv := by
      refine h.coverSession hsession ⟨rfl, fun hover => hover, List.Subset.refl _, ?_⟩
      rw [hfront]
      exact List.subset_cons_self _ _
    unfold PendingRequests.complete at hs
    cases hentry : s.entry session.relayId reply.requestId with
    | none =>
      have hlookup : (s.relays session.relayId).requests.entries.lookup reply.requestId = none :=
        hentry
      simp only [hlookup] at hs
      rw [← Option.some.inj hs]
      exact hread
    | some i =>
      have hlookup : (s.relays session.relayId).requests.entries.lookup reply.requestId = some i :=
        hentry
      obtain ⟨call, hcall, hrelay, hid, hwaits, hnone⟩ := h.entry _ _ i hentry
      obtain ⟨hpast, howned, hown⟩ := h.reply id session reply hsession hmem
      obtain rfl : i = reply.call := hown i hentry
      simp only [hlookup, hcall] at hs
      rw [← Option.some.inj hs]
      have hmoves : Moves (s.setSession id { session with toRelay }) reply.call call
          { call with reply := some reply }
          ((s.relays session.relayId).requests.complete reply.requestId).2 := by
        constructor
        · rfl
        · rfl
        · intro requestId j hne
          rw [hrelay]
          by_cases heq : requestId = reply.requestId
          · rw [heq]
            constructor
            · intro hj
              exact absurd rfl (PendingRequests.lookup_complete hj).1
            · intro hj
              exact absurd (Option.some.inj (hj.symm.trans hentry)) hne
          · rw [PendingRequests.lookup_complete_ne heq]
            rfl
        · intro requestId
          constructor
          · intro hj
            obtain ⟨hne, hj⟩ := PendingRequests.lookup_complete hj
            obtain ⟨found, hfound, -, hid', -⟩ := h.entry _ _ _ hj
            rw [hcall] at hfound
            rw [← Option.some.inj hfound, hid] at hid'
            exact absurd hid'.symm hne
          · rintro ⟨-, -, hreply⟩
            cases hreply
        · intro _ hreply
          cases hreply
        · constructor
          · intro other hother
            rw [← Option.some.inj hother]
            exact ⟨rfl, howned, hpast.2 call hcall⟩
          · exact (h.call _ call hcall).holding
          · exact (h.call _ call hcall).signalled
        · exact fun id' hphase => hread.sending _ call id' hcall hphase
        · exact fun hearly => hearly
        · exact fun hnext => .inr hnext
        · intro workId pending hwork hpending
          have hgranted : reply.work = some workId := by
            unfold Call.Waits at hwaits
            unfold Call.work at hwork
            cases hphase : call.phase with
            | sending _ | waiting => simpa [hphase] using hwork
            | asked | holding _ _ _ | signalled _ _ => simp [hphase] at hwaits
          rw [hid] at hpending
          have hmatches := h.pending _ pending hpending
          rw [hrelay]
          exact hmatches.reply id session reply workId hsession hmem rfl hgranted
            (waiting_iff.mpr ⟨call, hcall, hwaits⟩)
      have hinv := hread.move hcall hmoves
      have hsame : ∀ requests, (s.setSession id { session with toRelay }).setRequests call.relayId
          requests = (s.setSession id { session with toRelay }).setRequests session.relayId
          requests := fun requests => by rw [hrelay]
      rw [hsame] at hinv
      exact hinv
  · cases hs

theorem Inv.conclude (h : s.Inv) {now : ℕ} {routeId : Uuid}
    (hs : s.conclude i now routeId = some s') : s'.Inv := by
  obtain ⟨call, hcall, hs⟩ := Option.bind_eq_some_iff.mp hs
  split at hs
  · next reply hphase hreply =>
    obtain ⟨horigin, howned, -⟩ := (h.call i call hcall).reply reply hreply
    have hfree : ¬ (call.Waits ∧ call.reply = none) := by
      rintro ⟨-, hnone⟩
      rw [hreply] at hnone
      cases hnone
    have hdeny : ∀ reason, (s.deny i reply.call reason).Inv := fun reason =>
      (h.finish hcall hfree).record horigin
    rw [h.unregister_eq hcall hfree] at hs
    dsimp only at hs
    split at hs
    · rw [← Option.some.inj hs]
      exact hdeny _
    · next grant hanswer =>
      have hwork : reply.work = some grant.workId := by
        unfold Reply.work
        rw [hanswer]
      have hcallWork : call.work = some grant.workId := by
        unfold Call.work
        rw [hphase, hreply]
        exact hwork
      split_ifs at hs
      · rw [← Option.some.inj hs]
        exact hdeny _
      · rw [← Option.some.inj hs]
        refine h.setCall hcall rfl rfl ⟨fun hof => hof.1.elim, fun hof => absurd hof hfree⟩
          ⟨?_, ?_, ?_⟩ ?_ (fun hearly => hearly) (fun hwaits => hwaits.elim) ?_
        · intro other hother
          obtain ⟨hof, hworks, -⟩ := (h.call i call hcall).reply other hother
          exact ⟨hof, hworks, fun hearly => hearly⟩
        · intro other origin routeId' hholding
          obtain ⟨rfl, rfl, -⟩ := Phase.holding.inj hholding
          have hworks := howned grant.workId hwork
          rw [horigin] at hworks
          exact ⟨horigin, hworks⟩
        · exact fun _ _ hsignalled => (by cases hsignalled)
        · exact fun _ hsending => (by cases hsending)
        · intro workId hnext
          rw [hcallWork]
          exact hnext
      · rw [← Option.some.inj hs]
        exact hdeny _
  · cases hs

theorem Inv.signal (h : s.Inv) (hs : s.signal i = some s') : s'.Inv := by
  obtain ⟨call, hcall, hs⟩ := Option.bind_eq_some_iff.mp hs
  split at hs
  · next grant origin routeId hphase =>
    obtain ⟨horigin, hworks⟩ := (h.call i call hcall).holding grant origin routeId hphase
    have hfree : ¬ (call.Waits ∧ call.reply = none) := by
      rintro ⟨hwaits, -⟩
      unfold Call.Waits at hwaits
      rw [hphase] at hwaits
      exact hwaits
    split at hs
    · rw [← Option.some.inj hs]
      exact h.finish hcall hfree
    · next id hcurrent =>
      obtain ⟨session, hsession, rfl⟩ := Option.map_eq_some_iff.mp hs
      have hsignalled : (s.setCall i { call with phase := .signalled origin routeId }).Inv := by
        refine h.setCall hcall rfl rfl ⟨fun hof => hof.1.elim, fun hof => absurd hof hfree⟩
          ⟨?_, ?_, ?_⟩ ?_ (fun hearly => hearly) (fun hwaits => hwaits.elim) ?_
        · intro other hother
          obtain ⟨hof, hworks', -⟩ := (h.call i call hcall).reply other hother
          exact ⟨hof, hworks', fun hearly => hearly⟩
        · exact fun _ _ _ hholding => (by cases hholding)
        · intro origin' routeId' hphase'
          obtain ⟨rfl, -⟩ := Phase.signalled.inj hphase'
          exact horigin
        · exact fun _ hsending => (by cases hsending)
        · exact fun _ hwork => (by cases hwork)
      obtain ⟨found, hfound, hrelay⟩ := h.current call.relayId id hcurrent
      rw [hsession] at hfound
      obtain rfl := Option.some.inj hfound
      refine hsignalled.updateSession hsession rfl (fun hover => hover) ?_
        fun _ hreply => .inl hreply
      intro message hmessage
      rcases List.mem_append.mp hmessage with hmessage | hmessage
      · exact .inl hmessage
      · right
        rw [List.mem_singleton.mp hmessage]
        refine ⟨hworks, fun pending hpending => ?_⟩
        have hmatches := h.pending _ pending hpending
        have hwork : call.work = some grant.workId := by
          unfold Call.work
          rw [hphase]
        rw [hrelay]
        exact hmatches.call i call grant.workId hcall rfl hwork
  · cases hs

theorem Inv.grant (h : s.Inv) (hs : s.grant i = some s') : s'.Inv := by
  obtain ⟨call, hcall, hs⟩ := Option.bind_eq_some_iff.mp hs
  split at hs
  · next origin routeId hphase =>
    rw [← Option.some.inj hs]
    have hfree : ¬ (call.Waits ∧ call.reply = none) := by
      rintro ⟨hwaits, -⟩
      unfold Call.Waits at hwaits
      rw [hphase] at hwaits
      exact hwaits
    exact (h.finish hcall hfree).record ((h.call i call hcall).signalled origin routeId hphase)
  · cases hs

/-- A reply is written after its request is read. -/
theorem Inv.answer (h : s.Inv) (hsession : s.sessions.lookup id = some session)
    {toServer : List ToServer} {reply : Reply} (hsub : toServer ⊆ session.toServer)
    (hanswerable : session.relayEnd ≠ .closed → s.Answerable session.relayId reply) :
    (s.answer id { session with toServer } reply).Inv := by
  unfold Sys.answer
  split_ifs with hover
  · exact h.coverSession hsession ⟨rfl, fun hover => hover, hsub, List.Subset.refl _⟩
  · refine h.updateSession hsession rfl (fun hover => hover) (fun _ hm => .inl (hsub hm)) ?_
    intro other hother
    rcases List.mem_append.mp hother with hother | hother
    · exact .inl hother
    · rw [List.mem_singleton.mp hother]
      exact .inr (hanswerable hover)

/-- A denial answers its request. -/
theorem Inv.answer_error (h : s.Inv) (hsession : s.sessions.lookup id = some session)
    {context : TravelRouteContext} {toServer : List ToServer}
    (hfront : session.toServer = .routeRequest i context :: toServer) (reason : String) :
    (s.answer id { session with toServer } ⟨i, context.request, .error reason⟩).Inv := by
  have hmem : ToServer.routeRequest i context ∈ session.toServer := by
    rw [hfront]
    exact List.mem_cons_self
  obtain ⟨hpast, hown⟩ := h.request id session i context hsession hmem
  refine h.answer hsession ?_ fun hopen => ⟨hpast, fun _ hwork => (by cases hwork), hown hopen,
    fun _ _ hwork => (by cases hwork)⟩
  rw [hfront]
  exact List.subset_cons_self _ _

/-- The grant of an id is pending for its request alone. -/
theorem Inv.handleRequest (h : s.Inv) {verdict : Verdict}
    (hok : ∀ context ∈ s.granting config id verdict,
      s.pendingGrants.lookup context.request = none ∧ ¬ s.Readying context.request)
    (hs : s.handleRequest config id verdict = some s') : s'.Inv := by
  obtain ⟨session, hsession, hs⟩ := Option.bind_eq_some_iff.mp hs
  split at hs
  · next i context toServer hend hfront =>
    dsimp only at hs
    cases verdict with
    | denied reason =>
      rw [← Option.some.inj hs]
      exact h.answer_error hsession hfront reason
    | granted home relayDataAddr workId workSecret now instant =>
      dsimp only at hs
      split_ifs at hs with hfull hdrawn
      · rw [← Option.some.inj hs]
        exact h.answer_error hsession hfront _
      · have hgranting : context ∈ s.granting config id
            (.granted home relayDataAddr workId workSecret now instant) := by
          unfold granting
          dsimp only
          rw [if_neg hfull, hsession, Option.bind_some, hfront]
          rfl
        obtain ⟨hnone, hclear⟩ := hok context hgranting
        rw [hnone] at hs
        rw [← Option.some.inj hs]
        have hfresh : s.works.lookup workId = none := by simpa using hdrawn
        have hgranted := h.insertGrant hfresh hclear
          (Server.Travels.Sys.pendingGrant config
            (routeRequest context session.relayId relayDataAddr) home workId workSecret now instant) i
        have hmem : ToServer.routeRequest i context ∈ session.toServer := by
          rw [hfront]
          exact List.mem_cons_self
        obtain ⟨hpast, hown⟩ := hgranted.request id session i context hsession hmem
        refine hgranted.answer hsession ?_ fun hopen => ⟨hpast, ?_, hown hopen, ?_⟩
        · rw [hfront]
          exact List.subset_cons_self _ _
        · intro other hwork
          rw [← Option.some.inj hwork]
          exact AList.lookup_insert _
        · intro other pending hwork hpending
          have hpending : (s.pendingGrants.insert context.request _).lookup context.request =
              some pending := hpending
          rw [AList.lookup_insert] at hpending
          rw [← Option.some.inj hwork, ← Option.some.inj hpending]
          exact ⟨rfl, rfl⟩
  · cases hs

/-- A readiness that arrives takes the grant of its own call, or none. -/
theorem Inv.handleReady (h : s.Inv) {instant : ℕ} (hs : s.handleReady id instant = some s') :
    s'.Inv := by
  obtain ⟨session, hsession, hs⟩ := Option.bind_eq_some_iff.mp hs
  split at hs
  · next i requestId workId toServer hend hfront =>
    have hmem : ToServer.relayWorkReady i requestId workId ∈ session.toServer := by
      rw [hfront]
      exact List.mem_cons_self
    have hread : (s.setSession id { session with toServer }).Inv := by
      refine h.coverSession hsession ⟨rfl, fun hover => hover, ?_, List.Subset.refl _⟩
      rw [hfront]
      exact List.subset_cons_self _ _
    unfold takeMatchingPendingGrant at hs
    cases hpending : s.pendingGrants.lookup requestId with
    | none =>
      simp only [hpending] at hs
      rw [← Option.some.inj hs]
      exact hread
    | some pending =>
      have hmatches := h.pending requestId pending hpending
      obtain ⟨hwork, hrelay⟩ := hmatches.ready id session i workId hsession hmem
      have hagree : ¬ (pending.relayId ≠ session.relayId ∨ pending.workId ≠ workId) := by
        rintro (hne | hne)
        · exact hne hrelay
        · exact hne hwork
      have howner : s.works.lookup pending.workId = some i := by
        rw [hwork]
        exact h.ready id session i requestId workId hsession hmem
      simp only [hpending, if_neg hagree] at hs
      rw [← Option.some.inj hs]
      have herased : Inv { s.setSession id { session with toServer } with
          pendingGrants := s.pendingGrants.erase requestId } :=
        hread.removeGrants (fun _ _ hfound => (Table.lookup_erase_cases hfound).2) s.relaySessions
      exact herased.record howner
  · cases hs

/-- Steps that keep requests apart keep the invariant. -/
theorem Inv.step (h : s.Inv) (hok : apart config s a) (hs : s.step config a = some s') :
    s'.Inv := by
  cases a with
  | connect id relayId => exact h.connect hs
  | attach id => exact h.attach hs
  | enter id => exact h.enter hs
  | relayEnds id written => exact h.relayEnds hs
  | serverEnds id =>
    obtain ⟨session, hsession, rfl⟩ := Option.map_eq_some_iff.mp hs
    exact h.endServer hsession
  | ask relayId connection context =>
    rw [← Option.some.inj hs]
    exact h.ask relayId connection context
  | refuse i refusal => exact h.refuse hs
  | register i => exact h.register hok hs
  | send i => exact h.send hs
  | timeOut i => exact h.timeOut hs
  | leave i => exact h.leave hs
  | receive id => exact h.receive hs
  | conclude i now routeId => exact h.conclude hs
  | signal i => exact h.signal hs
  | grant i => exact h.grant hs
  | handleRequest id verdict => exact h.handleRequest hok hs
  | handleReady id instant => exact h.handleReady hs
  | expire instant =>
    rw [← Option.some.inj hs]
    refine h.removeGrants (fun requestId pending hpending => ?_) s.relaySessions
    rw [Table.lookup_retain] at hpending
    exact (Option.filter_eq_some_iff.mp hpending).1
  | revoke credentialId =>
    rw [← Option.some.inj hs]
    refine h.removeGrants (fun requestId pending hpending => ?_) s.relaySessions
    rw [Table.lookup_retain] at hpending
    exact (Option.filter_eq_some_iff.mp hpending).1

theorem inv_start : Inv {} where
  entry := fun _ _ _ hentry => (by cases hentry)
  registered := fun _ _ hcall => (by cases hcall)
  call := fun _ _ hcall => (by cases hcall)
  sending := fun _ _ _ hcall => (by cases hcall)
  current := fun _ _ hcurrent => (by cases hcurrent)
  request := fun _ _ _ _ hsession => (by cases hsession)
  ready := fun _ _ _ _ _ hsession => (by cases hsession)
  reply := fun _ _ _ hsession => (by cases hsession)
  pending := fun _ _ hpending => (by cases hpending)
  isolated := fun _ hevent => (by cases hevent)

/-- Where no request meets another of its id, none touches the grant of another, every answer is
that to the request of its call, and no control session ends at a readiness. -/
theorem isolated_of_apart (h : (machine config).ReachableWhere (apart config) s) : s.Isolated := by
  have hinv : s.Inv := h.invariant inv_start fun t a t' _ hinv hok hs => hinv.step hok hs
  exact hinv.isolated

/-- Three Travels ask under one id: two at one Relay at once, of which the second is denied, and a
third at another Relay once the first has its route. -/
theorem isolated_of_apart_repeated :
    ∃ s, (machine Server.Travels.sampleConfig).execWhere (apart Server.Travels.sampleConfig)
      (sampleSessions ++ [.ask "relay-1" 11 (sampleContext 1), .ask "relay-1" 12 (sampleContext 2),
        .register 0, .register 1, .send 0, .handleRequest 1 (.granted 1 "192.0.2.1:444" 21 [] 1000 0),
        .receive 1, .conclude 0 1000 31, .signal 0, .grant 0, .handleReady 1 1,
        .ask "relay-2" 13 (sampleContext 1), .register 2, .send 2,
        .handleRequest 2 (.granted 1 "192.0.2.2:444" 22 [] 1000 0), .receive 2,
        .conclude 2 1000 32, .signal 2, .grant 2, .handleReady 2 1]) = some s ∧
    s.events = [.delivered 1 1 (.denied "route request is already in flight"),
      .delivered 0 0 (.granted 31), .taken 0 (some 0), .delivered 2 2 (.granted 32),
      .taken 2 (some 2)] ∧ s.Isolated := by
  have hrun : ((machine Server.Travels.sampleConfig).execWhere (apart Server.Travels.sampleConfig)
      (sampleSessions ++ [.ask "relay-1" 11 (sampleContext 1), .ask "relay-1" 12 (sampleContext 2),
        .register 0, .register 1, .send 0, .handleRequest 1 (.granted 1 "192.0.2.1:444" 21 [] 1000 0),
        .receive 1, .conclude 0 1000 31, .signal 0, .grant 0, .handleReady 1 1,
        .ask "relay-2" 13 (sampleContext 1), .register 2, .send 2,
        .handleRequest 2 (.granted 1 "192.0.2.2:444" 22 [] 1000 0), .receive 2,
        .conclude 2 1000 32, .signal 2, .grant 2, .handleReady 2 1])).map (·.events) =
      some [.delivered 1 1 (.denied "route request is already in flight"),
        .delivered 0 0 (.granted 31), .taken 0 (some 0), .delivered 2 2 (.granted 32),
        .taken 2 (some 2)] := by
    decide
  obtain ⟨s, hs, hevents⟩ := Option.map_eq_some_iff.mp hrun
  exact ⟨s, hs, hevents, isolated_of_apart (Machine.reachableWhere_of_execWhere hs)⟩

/-- Two Travels at two Relays ask under one id at once: the grant of the second replaces that of the
first, whose readiness then ends the control session of its Relay. -/
theorem not_isolated_of_reachable :
    ∃ s, (machine Server.Travels.sampleConfig).Reachable s ∧
      s.events = [.replaced 1 (some 0), .delivered 0 0 (.granted 31), .failed 1] ∧
      ¬ s.Isolated := by
  have hrun : ((machine Server.Travels.sampleConfig).exec
      (sampleSessions ++ [.ask "relay-1" 11 (sampleContext 1), .ask "relay-2" 12 (sampleContext 2),
        .register 0, .send 0, .register 1, .send 1,
        .handleRequest 1 (.granted 1 "192.0.2.1:444" 21 [] 1000 0),
        .handleRequest 2 (.granted 1 "192.0.2.2:444" 22 [] 1000 0), .receive 1,
        .conclude 0 1000 31, .signal 0, .grant 0, .handleReady 1 1])).map (·.events) =
      some [.replaced 1 (some 0), .delivered 0 0 (.granted 31), .failed 1] := by
    decide
  obtain ⟨s, hs, hevents⟩ := Option.map_eq_some_iff.mp hrun
  refine ⟨s, Machine.reachable_of_exec hs, hevents, fun hisolated => ?_⟩
  have hfailed : Event.failed 1 ∈ s.events := by
    rw [hevents]
    simp
  exact hisolated _ hfailed

end Sys

end FlowSplice.Routing
