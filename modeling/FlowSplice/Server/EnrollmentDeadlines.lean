import FlowSplice.Server.EnrollmentAnswers

/-! How many records the Server keeps, for how long, and how long a Relay session waits for them. -/
namespace FlowSplice.Server.Enrollments

variable {config : Config} {s s' : Sys} {call : Call} {relay : RelaySession} {c : ℕ}

/-- Records are few, and no call is given longer than a request may last. -/
structure Bounded (config : Config) (s : Sys) : Prop where
  room : s.pending.len ≤ config.maxPendingWork
  lasting : ∀ call ∈ s.calls, call.expires ≤ s.now + config.lifetime

theorem Bounded.step {a : Action} (hb : Bounded config s) (h : s.step config a = some s') :
    Bounded config s' := by
  have herase : ∀ id, Table.len (s.pending.erase id) ≤ config.maxPendingWork :=
    fun id => Nat.le_trans Table.len_erase_le hb.room
  cases Effect.of_step h with
  | submits hrelay => exact ⟨hb.room, Log.forall_append hb.lasting (Nat.le_refl _)⟩
  | moves hcall _ | delivers hcall _ _ _ | replies hcall _ _ =>
    have hold := hb.lasting _ (List.mem_of_getElem? hcall)
    exact ⟨hb.room, Cells.forall_set hb.lasting hold⟩
  | retires hcall _ _ _ =>
    have hold := hb.lasting _ (List.mem_of_getElem? hcall)
    exact ⟨herase _, Cells.forall_set hb.lasting hold⟩
  | inserts hcall _ hroom _ =>
    have hold := hb.lasting _ (List.mem_of_getElem? hcall)
    refine ⟨?_, Cells.forall_set hb.lasting hold⟩
    apply Nat.le_trans Table.len_insert_le
    omega
  | relays _ _ | homes _ _ | connects | tears _ _ _ _ _ | composes _ _ | clears | publishes =>
    exact ⟨hb.room, hb.lasting⟩
  | takes _ _ _ _ _ _ _ _ =>
    exact ⟨herase _, Cells.forall_modify hb.lasting fun _ hold => hold⟩
  | forwards _ _ _ => exact ⟨hb.room, Cells.forall_modify hb.lasting fun _ hold => hold⟩
  | cleans => exact ⟨Nat.le_trans Table.len_retain_le hb.room, hb.lasting⟩
  | ticks hnow =>
    refine ⟨hb.room, ?_⟩
    intro call hcall
    have hold := hb.lasting call hcall
    dsimp only
    omega

theorem Bounded.of_reachable (h : (machine config).Reachable s) : Bounded config s := by
  apply h.invariant
  · refine ⟨Nat.zero_le _, ?_⟩
    intro call hcall
    cases hcall
  · exact fun _ _ _ hb hstep => hb.step hstep

/-- A step of the call itself. -/
def Action.of (c : ℕ) : Action → Prop
  | .authorize i _ | .locate i | .insert i | .beginSend i | .sendFails i | .retire i
  | .reply i => i = c
  | _ => False

/-- The call has failed, and its Relay session has just written that and is free. -/
def Ended (c : ℕ) (s : Sys) : Prop :=
  ∃ call relay error, s.calls[c]? = some call ∧ call.phase = .replied error ∧
    s.relays[call.relay]? = some relay ∧ relay.call = none ∧
    relay.written.getLast? = some ⟨c, false, call.submission.refusal error⟩

/-- At most `n` steps of the call itself end it. -/
def Ends (config : Config) (c n : ℕ) (s : Sys) : Prop :=
  ∃ as : List Action, as.length ≤ n ∧ (∀ a ∈ as, a.of c) ∧ ∃ s',
    as.foldlM ((machine config).step) s = some s' ∧ Ended c s'

theorem Ends.cons {n : ℕ} {a : Action} (hof : a.of c) (hstep : s.step config a = some s')
    (h : Ends config c n s') : Ends config c (n + 1) s := by
  obtain ⟨as, hlen, has, t, hrun, hended⟩ := h
  refine ⟨a :: as, Nat.succ_le_succ hlen, ?_, t, ?_, hended⟩
  · intro b hb
    rcases List.mem_cons.mp hb with rfl | hb
    · exact hof
    · exact has b hb
  · rw [List.foldlM_cons]
    show (s.step config a).bind _ = _
    rw [hstep]
    exact hrun

theorem Ends.mono {n m : ℕ} (h : Ends config c n s) (hle : n ≤ m) : Ends config c m s := by
  obtain ⟨as, hlen, hrest⟩ := h
  exact ⟨as, by omega, hrest⟩

/-- The call is in this phase, and its Relay session runs. -/
structure At (c : ℕ) (phase : Phase) (s : Sys) (call : Call) (relay : RelaySession) : Prop where
  found : s.calls[c]? = some call
  phase_eq : call.phase = phase
  session : s.relays[call.relay]? = some relay
  running : relay.running = true

theorem At.setCall {old : Phase} (h : At c old s call relay) (phase : Phase) :
    At c phase (s.setCall c { call with phase }) { call with phase } relay := by
  have hlt : c < s.calls.length := (List.getElem?_eq_some_iff.mp h.found).1
  exact ⟨List.getElem?_set_self hlt, rfl, h.session, h.running⟩

theorem ends_of_refused {error : String} (h : At c (.refused error) s call relay) :
    Ends config c 1 s := by
  have hltc : c < s.calls.length := (List.getElem?_eq_some_iff.mp h.found).1
  have hltr : call.relay < s.relays.length := (List.getElem?_eq_some_iff.mp h.session).1
  have hended : Ended c ((s.setRelay call.relay { relay with
      call := none
      written := relay.written ++ [⟨c, false, call.submission.refusal error⟩] }).setCall c
        { call with phase := .replied error }) :=
    ⟨_, _, error, List.getElem?_set_self hltc, rfl, List.getElem?_set_self hltr, rfl,
      Log.getLast?_append⟩
  refine ⟨[.reply c], Nat.le_refl _, ?_, _, ?_, hended⟩
  · intro a ha
    rw [List.mem_singleton.mp ha]
    rfl
  · show (s.reply c).bind some = _
    unfold Sys.reply
    simp only [h.found, h.phase_eq, h.session, if_pos h.running]
    rfl

theorem ends_of_failing {error : String} (h : At c (.failing error) s call relay) :
    Ends config c 2 s := by
  have hend : ∀ pending : Table Uuid PendingEnrollment, Ends config c 1 { s.setCall c { call with
      phase := .refused (call.submission.deliveryContext ++ ": " ++ error) } with pending } := by
    intro pending
    have hat := h.setCall (.refused (call.submission.deliveryContext ++ ": " ++ error))
    exact ends_of_refused ⟨hat.found, hat.phase_eq, hat.session, hat.running⟩
  cases hlookup : s.pending.lookup call.submission.requestId with
  | none =>
    apply Ends.cons (a := .retire c) rfl _ (hend s.pending)
    show s.retire c = _
    unfold Sys.retire
    simp only [h.found, h.phase_eq, hlookup]
    rfl
  | some record =>
    by_cases hown : record.forwardingId = c
    · apply Ends.cons (a := .retire c) rfl _ (hend (s.pending.erase call.submission.requestId))
      show s.retire c = _
      unfold Sys.retire
      simp only [h.found, h.phase_eq, hlookup, if_pos hown]
    · apply Ends.cons (a := .retire c) rfl _ (hend s.pending)
      show s.retire c = _
      unfold Sys.retire
      simp only [h.found, h.phase_eq, hlookup, if_neg hown]
      rfl

/-- Past its deadline a call does not wait for a queue. -/
theorem ends_of_sending {i : ℕ} (hp : Placed s) (h : At c (.sending i) s call relay)
    (hlate : call.expires ≤ s.now) : Ends config c 3 s := by
  have htarget : call.phase.target = some i := by rw [h.phase_eq]; rfl
  obtain ⟨home, hhome, -⟩ := hp.target c call i h.found htarget
  have herror : ∃ error, sendError home.listening call.expires s.now = some error := by
    unfold sendError
    by_cases hlistening : home.listening = false
    · exact ⟨_, if_pos hlistening⟩
    · exact ⟨_, by rw [if_neg hlistening, if_pos hlate]⟩
  obtain ⟨error, herror⟩ := herror
  apply Ends.cons (a := .sendFails c) rfl _ (ends_of_failing (h.setCall (.failing error)))
  show s.sendFails c = _
  unfold Sys.sendFails
  simp only [h.found, h.phase_eq, hhome, herror]
  rfl

theorem ends_of_inserted {i : ℕ} (h : At c (.inserted i) s call relay)
    (hlate : call.expires ≤ s.now) : Ends config c 3 s := by
  apply Ends.cons (a := .beginSend c) rfl _ (ends_of_failing (h.setCall
    (.failing "control request deadline expired before queue admission")))
  show s.beginSend c = _
  unfold Sys.beginSend
  simp only [h.found, h.phase_eq, if_pos hlate]

theorem ends_of_located {i : ℕ} (h : At c (.located i) s call relay)
    (hlate : call.expires ≤ s.now) : Ends config c 4 s := by
  have hrefused : ∀ error, Ends config c 3 (s.setCall c { call with phase := .refused error }) :=
    fun error => (ends_of_refused (h.setCall (.refused error))).mono (by omega)
  by_cases hfull : config.maxPendingWork ≤ s.pending.len
  · apply Ends.cons (a := .insert c) rfl _ (hrefused "Server pending enrollment limit reached")
    show s.insert config c = _
    unfold Sys.insert
    simp only [h.found, h.phase_eq, h.session, if_pos hfull]
  · cases hlookup : s.pending.lookup call.submission.requestId with
    | some existing =>
      apply Ends.cons (a := .insert c) rfl _
        (hrefused (conflict relay.relayId call.submission existing))
      show s.insert config c = _
      unfold Sys.insert
      simp only [h.found, h.phase_eq, h.session, if_neg hfull, hlookup]
    | none =>
      have hat := h.setCall (.inserted i)
      have hend : Ends config c 3 { s.setCall c { call with phase := .inserted i } with
          pending := s.pending.insert call.submission.requestId (call.record c relay.relayId) } :=
        ends_of_inserted ⟨hat.found, hat.phase_eq, hat.session, hat.running⟩ hlate
      apply Ends.cons (a := .insert c) rfl _ hend
      show s.insert config c = _
      unfold Sys.insert
      simp only [h.found, h.phase_eq, h.session, if_neg hfull, hlookup]

theorem ends_of_authorized (h : At c .authorized s call relay) (hlate : call.expires ≤ s.now) :
    Ends config c 5 s := by
  cases hsender : s.senders.lookup call.submission.homeId with
  | none =>
    have hrefused : Ends config c 4 (s.setCall c { call with
        phase := .refused "target Home is unavailable" }) :=
      (ends_of_refused (h.setCall _)).mono (by omega)
    apply Ends.cons (a := .locate c) rfl _ hrefused
    show s.locate c = _
    unfold Sys.locate
    simp only [h.found, h.phase_eq, if_true, hsender]
  | some home =>
    apply Ends.cons (a := .locate c) rfl _ (ends_of_located (h.setCall (.located home)) hlate)
    show s.locate c = _
    unfold Sys.locate
    simp only [h.found, h.phase_eq, if_true, hsender]

theorem ends_of_started (h : At c .started s call relay) (hlate : call.expires ≤ s.now) :
    Ends config c 6 s := by
  cases hcheck : call.submission.check with
  | error error =>
    have hrefused : Ends config c 5 (s.setCall c { call with phase := .refused error }) :=
      (ends_of_refused (h.setCall _)).mono (by omega)
    apply Ends.cons (a := .authorize c (.ok ())) rfl _ hrefused
    show s.authorize c (.ok ()) = _
    unfold Sys.authorize
    simp only [h.found, h.phase_eq, if_true, hcheck]
  | ok =>
    apply Ends.cons (a := .authorize c (.ok ())) rfl _
      (ends_of_authorized (h.setCall .authorized) hlate)
    show s.authorize c (.ok ()) = _
    unfold Sys.authorize
    simp only [h.found, h.phase_eq, if_true, hcheck, ite_self]

/-- In every run the Server keeps a bounded number of records, each the one of its call and for no
longer than a request may last, and a Relay session waits for its call at most until the deadline:
from then on the call's own next steps, at most six, end it, whatever the queues hold. -/
theorem enrollments_bounded (h : (machine config).Reachable s) :
    s.pending.len ≤ config.maxPendingWork ∧
      (∀ id record, s.pending.lookup id = some record → record.expires ≤ s.now + config.lifetime ∧
        ∃ call, s.calls[record.forwardingId]? = some call ∧ record.For id call) ∧
      ∀ (r : ℕ) relay c, s.relays[r]? = some relay → relay.running = true → relay.call = some c →
        ∃ call, s.calls[c]? = some call ∧ call.relay = r ∧
          (call.expires ≤ s.now → Ends config c 6 s) := by
  have hs := Sound.of_reachable h
  have hp := Placed.of_reachable h
  have hb := Bounded.of_reachable h
  refine ⟨hb.room, ?_, ?_⟩
  · intro id record hrecord
    obtain ⟨call, hcall, hfor, -⟩ := hs.records id record hrecord
    refine ⟨?_, call, hcall, hfor⟩
    rw [hfor.expires]
    exact hb.lasting call (List.mem_of_getElem? hcall)
  · intro r relay c hrelay hrunning hbusy
    obtain ⟨call, hcall, rfl, hactive⟩ := hp.busy r relay c hrelay hbusy
    refine ⟨call, hcall, rfl, ?_⟩
    intro hlate
    cases hphase : call.phase with
    | started => exact ends_of_started ⟨hcall, hphase, hrelay, hrunning⟩ hlate
    | authorized =>
      exact (ends_of_authorized ⟨hcall, hphase, hrelay, hrunning⟩ hlate).mono (by omega)
    | located i => exact (ends_of_located ⟨hcall, hphase, hrelay, hrunning⟩ hlate).mono (by omega)
    | inserted i =>
      exact (ends_of_inserted ⟨hcall, hphase, hrelay, hrunning⟩ hlate).mono (by omega)
    | sending i =>
      exact (ends_of_sending hp ⟨hcall, hphase, hrelay, hrunning⟩ hlate).mono (by omega)
    | failing error =>
      exact (ends_of_failing ⟨hcall, hphase, hrelay, hrunning⟩).mono (by omega)
    | refused error =>
      exact (ends_of_refused ⟨hcall, hphase, hrelay, hrunning⟩).mono (by omega)
    | replied error | delivered i =>
      rw [hphase] at hactive
      cases hactive

/-- The first submission waits for the queue of the Home when its time is up. -/
def sampleLate : Sys :=
  ((machine sampleConfig).exec (sampleRun.take 7 ++ [.tick 30000000000])).getD {}

theorem enrollments_bounded_sample :
    sampleLate.pending.len = 1 ∧ Ends sampleConfig 0 6 sampleLate := by
  have hrun : (machine sampleConfig).exec (sampleRun.take 7 ++ [.tick 30000000000]) =
      some sampleLate := rfl
  have hbounded := enrollments_bounded (Machine.reachable_of_exec hrun)
  obtain ⟨call, hcall, -, hends⟩ := hbounded.2.2 0 _ 0 rfl rfl rfl
  have hlate : call.expires ≤ sampleLate.now := by
    rw [← Option.some.inj hcall]
    exact Nat.le_refl 30000000000
  exact ⟨rfl, hends hlate⟩

end FlowSplice.Server.Enrollments
