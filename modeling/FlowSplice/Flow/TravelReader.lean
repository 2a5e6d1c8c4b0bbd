import FlowSplice.Flow.Readers
import FlowSplice.Flow.Cases

/-! The Travel end of a TCP flow with its reader task and the permits of what was read. -/
namespace FlowSplice.Flow

/-- The errors that are about the buffer. -/
def TravelError.aboutBuffer : TravelError → Bool
  | .ackSplit | .unackedLimitReached => true
  | _ => false

namespace Travel

/-- An ACK that split a segment has ended the flow. -/
def split (t : Travel) : Bool := t.phase = .failed .ackSplit

/-- The step had nothing to do with the buffer. -/
def Rests (t t' : Travel) : Prop :=
  t'.transfer.send = t.transfer.send ∧ t'.transfer.maxUnackedBytes = t.transfer.maxUnackedBytes ∧
    ∀ error, t'.phase = .failed error → error.aboutBuffer = false

variable {t t' : Travel} {r : Travel × Sends} {race' : Race}

theorem rests_endRace (winner : Option Uuid) : t.Rests (t.endRace race' winner).1 := by
  unfold endRace
  cases winner with
  | some winner =>
    dsimp only
    split_ifs <;> exact ⟨rfl, rfl, fun _ h => by cases h⟩
  | none =>
    dsimp only
    split_ifs <;> exact ⟨rfl, rfl, fun _ h => by cases h⟩

theorem rests_continueRace : t.Rests (t.continueRace race').1 := by
  unfold continueRace
  split_ifs
  · exact rests_endRace none
  · exact ⟨rfl, rfl, fun _ h => by cases h⟩

theorem rests_fail {error : TravelError} (h : error.aboutBuffer = false) : t.Rests (t.fail error).1 :=
  ⟨rfl, rfl, fun _ heq => TravelPhase.failed.inj heq ▸ h⟩

/-- What was handled left the buffer as it was. -/
def Leaves (handled : Handled) (transfer : TransferState) : Prop :=
  handled.transfer.send = transfer.send ∧
    handled.transfer.maxUnackedBytes = transfer.maxUnackedBytes ∧
    ∀ error, handled.result = .error error → error.aboutBuffer = false

theorem leaves_of_ok {handled : Handled} {transfer : TransferState} {closed : Bool}
    (hsend : handled.transfer.send = transfer.send)
    (hmax : handled.transfer.maxUnackedBytes = transfer.maxUnackedBytes)
    (hresult : handled.result = .ok closed) : Leaves handled transfer := by
  refine ⟨hsend, hmax, fun error heq => ?_⟩
  rw [hresult] at heq
  cases heq

theorem leaves_of_error {handled : Handled} {transfer : TransferState} {error : TravelError}
    (hsend : handled.transfer.send = transfer.send)
    (hmax : handled.transfer.maxUnackedBytes = transfer.maxUnackedBytes)
    (hresult : handled.result = .error error) (herror : error.aboutBuffer = false) :
    Leaves handled transfer := by
  refine ⟨hsend, hmax, fun error' heq => ?_⟩
  rw [hresult] at heq
  rw [← Except.error.inj heq]
  exact herror

theorem handleFrame_of_acknowledged {io : Io} {transfer : TransferState} {carriers : List Uuid}
    {active : Option Uuid} {c : Uuid} {f : DataFrame} {n : ℕ}
    (h : transfer.send.acknowledged transfer.flowId f = some n) :
    handleFrame io transfer carriers active c f = handleAck transfer carriers n := by
  unfold SendQueue.acknowledged at h
  split at h
  · split_ifs at h with hguard
    rw [← Option.some.inj h]
    exact if_pos hguard
  · split_ifs at h with hguard
    rw [← Option.some.inj h]
    exact if_pos hguard
  · cases h

/-- A frame that acknowledges nothing leaves the buffer as it is. -/
theorem handleFrame_leaves {io : Io} {transfer : TransferState} {carriers : List Uuid}
    {active : Option Uuid} {c : Uuid} {f : DataFrame}
    (h : transfer.send.acknowledged transfer.flowId f = none) :
    Leaves (handleFrame io transfer carriers active c f) transfer := by
  have hinvalid : Leaves { transfer, carriers, result := .error .invalidFrame } transfer :=
    leaves_of_error rfl rfl rfl rfl
  have hacks : ∀ id n, (if id = transfer.flowId ∧ transfer.send.sendAcked ≤ n ∧
        n ≤ transfer.send.sendOffset then some n else none) = none →
      Leaves (if id = transfer.flowId ∧ transfer.send.sendAcked ≤ n ∧
          n ≤ transfer.send.sendOffset then handleAck transfer carriers n
        else { transfer, carriers, result := .error .invalidFrame }) transfer := by
    intro id n hnone
    split_ifs at hnone with hguard
    rw [if_neg hguard]
    exact hinvalid
  cases f with
  | ack id n => exact hacks id n h
  | duplicate id n winner => exact hacks id n h
  | data id offset bytes =>
    dsimp only [handleFrame]
    unfold handleData
    split_ifs
    · cases io with
      | done => exact leaves_of_ok rfl rfl rfl
      | failed delivered reason => exact leaves_of_error rfl rfl rfl rfl
    · exact leaves_of_ok rfl rfl rfl
    · exact leaves_of_error rfl rfl rfl rfl
    · exact hinvalid
  | fin id finalOffset =>
    dsimp only [handleFrame]
    unfold handleFin
    split_ifs
    · exact leaves_of_ok rfl rfl rfl
    · cases io with
      | done => exact leaves_of_ok rfl rfl rfl
      | failed delivered reason => exact leaves_of_error rfl rfl rfl rfl
    · exact hinvalid
  | finAck id finalOffset =>
    dsimp only [handleFrame]
    split_ifs
    · exact leaves_of_ok rfl rfl rfl
    · exact hinvalid
  | close id reason =>
    dsimp only [handleFrame]
    split_ifs
    · exact leaves_of_error rfl rfl rfl rfl
    · exact hinvalid
  | raceAck | raceDuplicate => exact leaves_of_ok rfl rfl rfl
  | _ => exact hinvalid

end Travel

/-- What an end of the flow and its reader do. -/
inductive TravelAction where
  | reader (a : ReaderAction)
  | receive
  | frame (carrierId : Uuid) (frame : DataFrame) (io : Io)
  | carrierClosed (carrierId : Uuid)
  | opened (carrierId : Uuid) (homeReceiveOffset : ℕ)
  | openFailed (carrierId : Uuid)
  | deadline
  | beginRace (raceId : Uuid) (opens : List Uuid)
  | select
  | reevaluate
  | recoveryExpired
  | finish (drained : Bool)
  | stop
deriving DecidableEq, Repr

namespace Travel

def readingStep (s : Reading Travel) : TravelAction → Option (Reading Travel)
  | .reader a =>
    if s.flow.running then (s.side.readerStep a).map fun side => { s with side } else none
  | .receive =>
    match s.side.events with
    | [] => none
    | event :: rest =>
      (s.flow.event event.flowEvent .done).map fun r => ⟨r.1, s.side.received rest event⟩
  | .frame carrierId frame io =>
    (s.flow.event (.carrierFrame carrierId frame) io).map fun r =>
      ⟨r.1, s.side.onFrame s.flow.transfer.flowId frame⟩
  | .carrierClosed carrierId =>
    (s.flow.event (.carrierClosed carrierId) .done).map fun r => ⟨r.1, s.side⟩
  | .opened carrierId homeReceiveOffset =>
    (s.flow.opened carrierId homeReceiveOffset).map fun r =>
      ⟨r.1, s.side.onOpened homeReceiveOffset⟩
  | .openFailed carrierId => (s.flow.openFailed carrierId).map fun r => ⟨r.1, s.side⟩
  | .deadline => s.flow.deadline.map fun r => ⟨r.1, s.side⟩
  | .beginRace raceId opens => (s.flow.beginRace raceId opens).map fun r => ⟨r.1, s.side⟩
  | .select => s.flow.select.map fun r => ⟨r.1, s.side⟩
  | .reevaluate => s.flow.reevaluate.map fun r => ⟨r.1, s.side⟩
  | .recoveryExpired => s.flow.recoveryExpired.map fun r => ⟨r.1, s.side⟩
  | .finish drained => (s.flow.finish drained).map fun r => ⟨r.1, s.side⟩
  | .stop => s.flow.stop.map fun r => ⟨r.1, s.side⟩

/-- The Travel end of a flow, from its first connection on. -/
def readingMachine (flowId : Uuid) (maxUnackedBytes : ℕ) :
    Machine (Reading Travel) TravelAction where
  start := ⟨{ transfer := { flowId, maxUnackedBytes } }, .start maxUnackedBytes⟩
  step := readingStep

variable {s s' : Reading Travel} {a : TravelAction} {t t' : Travel} {r : Travel × Sends}

/-- What a step of Travel does with the buffer. -/
structure Moves (s s' : Reading Travel) : Prop where
  follows : s.side.Follows s'.side s'.flow.transfer.send s'.flow.split
  max_eq : s'.flow.transfer.maxUnackedBytes = s.flow.transfer.maxUnackedBytes
  limit : s'.flow.phase ≠ .failed .unackedLimitReached

theorem Rests.moves (h : s.flow.Rests t') (hqueue : s.side.queue = s.flow.transfer.send) :
    Moves s ⟨t', s.side⟩ := by
  obtain ⟨hsend, hmax, herror⟩ := h
  have hsplit : t'.split = false := by
    refine decide_eq_false fun hphase => ?_
    have hfalse := herror _ hphase
    cases hfalse
  refine ⟨?_, hmax, fun hphase => ?_⟩
  · rw [hsplit]
    exact ⟨.keep, fun _ => hqueue.trans hsend.symm⟩
  · have hfalse := herror _ hphase
    cases hfalse

theorem acknowledged_of_raceWinner {t : Travel} {race' : Race} {c winner : Uuid} {f : DataFrame}
    (h : t.raceWinner race' (.carrierFrame c f) = some winner) (q : SendQueue) (flowId : Uuid) :
    q.acknowledged flowId f = none := by
  unfold raceWinner at h
  split at h
  · next heq => rw [(FlowEvent.carrierFrame.inj heq).2]; rfl
  · next heq => rw [(FlowEvent.carrierFrame.inj heq).2]; rfl
  · cases h

/-- An event that does not decide a race ends the flow with the error of its handler, if any. -/
theorem event_result {t : Travel} {ev : FlowEvent} {io : Io} (hs : t.event ev io = some r)
    (hno : ∀ race winner, t.phase = .racing race → t.raceWinner race ev ≠ some winner) :
    r.1.transfer = (handleEvent ev io t.transfer t.carriers t.active).transfer ∧
      ∀ error, r.1.phase = .failed error ↔
        (handleEvent ev io t.transfer t.carriers t.active).result = .error error := by
  cases event_cases hs with
  | decided race winner hp hw => exact absurd hw (hno race winner hp)
  | failed error hr =>
    refine ⟨rfl, fun error' => ?_⟩
    rw [hr]
    exact ⟨fun h => by rw [TravelPhase.failed.inj h], fun h => by rw [← Except.error.inj h]; rfl⟩
  | closed race c hp he =>
    subst he
    refine ⟨?_, fun error => ⟨fun h => ?_, fun h => ?_⟩⟩
    · unfold continueRace endRace
      dsimp only
      split_ifs <;> rfl
    · unfold continueRace endRace at h
      dsimp only at h
      split_ifs at h
    · cases h
  | handled phase closed hp hr =>
    refine ⟨rfl, fun error => ⟨fun h => ?_, fun h => ?_⟩⟩
    · have h : phase = .failed error := h
      rcases hp with ⟨race, -, hphase, -⟩ | ⟨-, hphase⟩
      · rw [hphase] at h
        cases h
      · rw [hphase] at h
        cases h
    · rw [hr] at h
      cases h

/-- What the handler leaves decides what the step does with the buffer. -/
theorem moves_of_result {handled : Handled} {side : SendSide}
    (hresult : t'.transfer = handled.transfer ∧
      ∀ error, t'.phase = .failed error ↔ handled.result = .error error)
    (hmax : handled.transfer.maxUnackedBytes = s.flow.transfer.maxUnackedBytes)
    (hlimit : handled.result ≠ .error .unackedLimitReached)
    (hfollows : ∀ split : Bool, (split = true ↔ handled.result = .error .ackSplit) →
      s.side.Follows side handled.transfer.send split) : Moves s ⟨t', side⟩ := by
  obtain ⟨htransfer, hphase⟩ := hresult
  refine ⟨?_, ?_, fun h => hlimit ((hphase _).mp h)⟩
  · show s.side.Follows side t'.transfer.send t'.split
    rw [htransfer]
    apply hfollows
    rw [← hphase]
    exact decide_eq_true_iff
  · show t'.transfer.maxUnackedBytes = _
    rw [htransfer]
    exact hmax

theorem moves_of_calm {handled : Handled} {side : SendSide}
    (hresult : t'.transfer = handled.transfer ∧
      ∀ error, t'.phase = .failed error ↔ handled.result = .error error)
    (hmax : handled.transfer.maxUnackedBytes = s.flow.transfer.maxUnackedBytes)
    (hcalm : ∀ error, handled.result = .error error → error.aboutBuffer = false)
    (hfollows : s.side.Follows side handled.transfer.send false) : Moves s ⟨t', side⟩ := by
  apply moves_of_result hresult hmax
  · intro h
    have hfalse := hcalm _ h
    cases hfalse
  · intro split hsplit
    cases split with
    | true =>
      have hfalse := hcalm _ (hsplit.mp rfl)
      cases hfalse
    | false => exact hfollows

theorem moves_frame {c : Uuid} {f : DataFrame} {io : Io}
    (hs : s.flow.event (.carrierFrame c f) io = some r)
    (hqueue : s.side.queue = s.flow.transfer.send) :
    Moves s ⟨r.1, s.side.onFrame s.flow.transfer.flowId f⟩ := by
  unfold SendSide.onFrame
  rw [hqueue]
  cases hack : s.flow.transfer.send.acknowledged s.flow.transfer.flowId f with
  | none =>
    by_cases hwins : ∃ race winner, s.flow.phase = .racing race ∧
        s.flow.raceWinner race (.carrierFrame c f) = some winner
    · obtain ⟨race, winner, hp, hwins⟩ := hwins
      unfold event at hs
      rw [hp] at hs
      dsimp only at hs
      rw [hwins] at hs
      rw [← Option.some.inj hs]
      exact (rests_endRace _).moves hqueue
    · have hno : ∀ race winner, s.flow.phase = .racing race →
          s.flow.raceWinner race (.carrierFrame c f) ≠ some winner :=
        fun race winner hp hw => hwins ⟨race, winner, hp, hw⟩
      obtain ⟨hsend, hmax, hcalm⟩ : Leaves (handleEvent (.carrierFrame c f) io s.flow.transfer
        s.flow.carriers s.flow.active) s.flow.transfer := handleFrame_leaves hack
      exact moves_of_calm (event_result hs hno) hmax hcalm
        ⟨.keep, fun _ => hqueue.trans hsend.symm⟩
  | some n =>
    have hbounds := SendQueue.acknowledged_bounds hack
    rw [← hqueue] at hbounds
    have hside := SendSide.follows_acknowledge (s := s.side) hbounds.1 hbounds.2
    rw [hqueue] at hside
    have hno : ∀ race winner, s.flow.phase = .racing race →
        s.flow.raceWinner race (.carrierFrame c f) ≠ some winner := by
      intro race winner _ hw
      rw [acknowledged_of_raceWinner hw] at hack
      cases hack
    have hresult := event_result hs hno
    have hevent : handleEvent (.carrierFrame c f) io s.flow.transfer s.flow.carriers
        s.flow.active = handleAck s.flow.transfer s.flow.carriers n :=
      handleFrame_of_acknowledged hack
    unfold handleAck at hevent
    cases hdone : s.flow.transfer.send.acknowledge n with
    | none =>
      rw [hdone] at hevent hside
      rw [hevent] at hresult
      apply moves_of_result hresult rfl (fun h => by cases h)
      intro split hsplit
      rw [hsplit.mpr rfl]
      exact hside _
    | some send =>
      rw [hdone] at hevent hside
      rw [hevent] at hresult
      exact moves_of_calm hresult rfl (fun _ h => by cases h) hside

theorem moves_opened {c n : ℕ} (hs : s.flow.opened c n = some r)
    (hqueue : s.side.queue = s.flow.transfer.send) : Moves s ⟨r.1, s.side.onOpened n⟩ := by
  have hoffset : s.side.sendOffset = s.flow.transfer.send.sendOffset :=
    congrArg SendQueue.sendOffset hqueue
  have hacked : s.side.sendAcked = s.flow.transfer.send.sendAcked :=
    congrArg SendQueue.sendAcked hqueue
  unfold opened at hs
  split at hs
  · next race hp =>
    unfold SendSide.onOpened
    split_ifs at hs with hopen hunsent hbackwards
    · rw [← Option.some.inj hs, if_pos (hoffset ▸ hunsent)]
      exact (rests_fail rfl).moves hqueue
    · rw [← Option.some.inj hs, if_neg (hoffset ▸ hunsent), if_pos (hacked ▸ hbackwards)]
      exact (rests_fail rfl).moves hqueue
    · rw [if_neg (hoffset ▸ hunsent), if_neg (hacked ▸ hbackwards)]
      have hside := SendSide.follows_acknowledge (s := s.side) (n := n) (by omega) (by omega)
      rw [hqueue] at hside
      cases hdone : s.flow.transfer.send.acknowledge n with
      | none =>
        rw [hdone] at hside hs
        rw [← Option.some.inj hs]
        exact ⟨hside _, rfl, fun h => by cases h⟩
      | some send =>
        rw [hdone] at hside hs
        rw [← Option.some.inj hs]
        exact ⟨hside, rfl, fun h => by cases h⟩
  · cases hs

/-- The queue takes what the reader has read: the permits leave room for it. -/
theorem moves_receive {event : ReaderEvent} {rest : List ReaderEvent}
    (hevents : s.side.events = event :: rest)
    (hs : s.flow.event event.flowEvent .done = some r)
    (hqueue : s.side.queue = s.flow.transfer.send)
    (hmax : s.side.maxUnackedBytes = s.flow.transfer.maxUnackedBytes)
    (haccounted : s.side.Accounted) : Moves s ⟨r.1, s.side.received rest event⟩ := by
  have hno : ∀ race winner, s.flow.phase = .racing race →
      s.flow.raceWinner race event.flowEvent ≠ some winner := by
    intro race winner _ hw
    cases event <;> cases hw
  have hresult := event_result hs hno
  have hfits := haccounted.fits hevents
  have hstep := SendSide.Step.receive (s := s.side) event rest hevents
  cases event with
  | data bytes credit =>
    have hcredit : credit = bytes.length := by
      apply haccounted.events bytes credit
      rw [hevents]
      exact List.mem_cons_self
    have hroom : ¬ s.side.unackedBytes + bytes.length > s.side.maxUnackedBytes := by
      rw [← hcredit]
      exact Nat.not_lt.mpr hfits
    have hbytes : s.side.unackedBytes = s.flow.transfer.send.unackedBytes :=
      congrArg SendQueue.unackedBytes hqueue
    have hevent : handleEvent (ReaderEvent.data bytes credit).flowEvent .done s.flow.transfer
        s.flow.carriers s.flow.active = _ := if_neg (hmax ▸ hbytes ▸ hroom)
    rw [hevent] at hresult
    apply moves_of_calm hresult rfl (fun _ h => by cases h)
    refine ⟨hstep, fun _ => ?_⟩
    show (s.side.received rest (.data bytes credit)).queue = s.flow.transfer.send.push bytes
    rw [← hqueue]
    exact SendSide.buffer_queue hroom
  | eof =>
    exact moves_of_calm hresult rfl (fun _ h => by cases h) ⟨hstep, fun _ => hqueue⟩
  | error reason =>
    apply moves_of_calm hresult rfl _ ⟨hstep, fun _ => hqueue⟩
    intro error h
    rw [← Except.error.inj h]
    rfl

theorem moves_carrierClosed {c : Uuid} (hs : s.flow.event (.carrierClosed c) .done = some r)
    (hqueue : s.side.queue = s.flow.transfer.send) : Moves s ⟨r.1, s.side⟩ := by
  apply moves_of_calm (event_result hs fun _ _ _ h => by cases h) rfl (fun _ h => by cases h)
  exact ⟨.keep, fun _ => hqueue⟩

theorem running_of_phase (h : t.phase = .loopTop ∨ t.phase = .selecting ∨
    ∃ race, t.phase = .racing race) : t.running = true := by
  unfold running
  rcases h with h | h | ⟨race, h⟩ <;> rw [h]

theorem running_of_event {ev : FlowEvent} {io : Io} (h : t.event ev io = some r) :
    t.running = true := by
  apply running_of_phase
  unfold event at h
  split at h
  · next race hp => exact .inr (.inr ⟨race, hp⟩)
  · next hp => exact .inr (.inl hp)
  · cases h

theorem running_of_opened {c n : ℕ} (h : t.opened c n = some r) : t.running = true := by
  apply running_of_phase
  unfold opened at h
  split at h
  · next race hp => exact .inr (.inr ⟨race, hp⟩)
  · cases h

theorem rests_openFailed {c : Uuid} (h : t.openFailed c = some r) :
    t.running = true ∧ t.Rests r.1 := by
  unfold openFailed at h
  split at h
  · next race hp =>
    split_ifs at h
    rw [← Option.some.inj h]
    exact ⟨running_of_phase (.inr (.inr ⟨race, hp⟩)), rests_continueRace⟩
  · cases h

theorem rests_deadline (h : t.deadline = some r) : t.running = true ∧ t.Rests r.1 := by
  unfold deadline at h
  split at h
  · next race hp =>
    rw [← Option.some.inj h]
    exact ⟨running_of_phase (.inr (.inr ⟨race, hp⟩)), rests_endRace none⟩
  · cases h

theorem rests_beginRace {raceId : Uuid} {opens : List Uuid}
    (h : t.beginRace raceId opens = some r) : t.running = true ∧ t.Rests r.1 := by
  unfold beginRace at h
  split_ifs at h with hphase
  rw [← Option.some.inj h]
  exact ⟨running_of_phase (.inl hphase.1), rfl, rfl, fun _ h => by cases h⟩

theorem rests_select (h : t.select = some r) : t.running = true ∧ t.Rests r.1 := by
  unfold select at h
  split_ifs at h with hphase
  rw [← Option.some.inj h]
  exact ⟨running_of_phase (.inl hphase.1), rfl, rfl, fun _ h => by cases h⟩

theorem rests_reevaluate (h : t.reevaluate = some r) : t.running = true ∧ t.Rests r.1 := by
  unfold reevaluate at h
  split_ifs at h with hphase
  rw [← Option.some.inj h]
  exact ⟨running_of_phase (.inr (.inl hphase)), rfl, rfl, fun _ h => by cases h⟩

theorem rests_recoveryExpired (h : t.recoveryExpired = some r) :
    t.running = true ∧ t.Rests r.1 := by
  unfold recoveryExpired at h
  split_ifs at h with hphase
  rw [← Option.some.inj h]
  exact ⟨running_of_phase (.inl hphase.1), rests_fail rfl⟩

theorem rests_finish {drained : Bool} (h : t.finish drained = some r) :
    t.running = true ∧ t.Rests r.1 := by
  unfold finish at h
  split_ifs at h with hphase hdrained
  · rw [← Option.some.inj h]
    exact ⟨running_of_phase (.inl hphase.1), rfl, rfl, fun _ h => by cases h⟩
  · rw [← Option.some.inj h]
    exact ⟨running_of_phase (.inl hphase.1), rests_fail rfl⟩

theorem rests_stop (h : t.stop = some r) : t.running = true ∧ t.Rests r.1 := by
  unfold stop at h
  split_ifs at h with hrunning
  rw [← Option.some.inj h]
  exact ⟨hrunning, rests_fail rfl⟩

theorem split_of_running (h : t.running = true) : t.split = false := by
  refine decide_eq_false fun hphase => ?_
  unfold running at h
  rw [hphase] at h
  cases h

theorem moves_of_rests {op : Option (Travel × Sends)}
    (hs : op.map (fun r => (⟨r.1, s.side⟩ : Reading Travel)) = some s')
    (hqueue : s.flow.split = false → s.side.queue = s.flow.transfer.send)
    (hrests : ∀ r, op = some r → s.flow.running = true ∧ s.flow.Rests r.1) :
    s.flow.running = true ∧ Moves s s' := by
  obtain ⟨r, hop, rfl⟩ := Option.map_eq_some_iff.mp hs
  obtain ⟨hrunning, hrests⟩ := hrests r hop
  exact ⟨hrunning, hrests.moves (hqueue (split_of_running hrunning))⟩

theorem moves_reader {action : ReaderAction} (hs : readingStep s (.reader action) = some s')
    (hqueue : s.flow.split = false → s.side.queue = s.flow.transfer.send) :
    s.flow.running = true ∧ Moves s s' := by
  unfold readingStep at hs
  dsimp only at hs
  split_ifs at hs with hrunning
  obtain ⟨side, hside, rfl⟩ := Option.map_eq_some_iff.mp hs
  have hsplit := split_of_running hrunning
  refine ⟨hrunning, ?_, rfl, fun h => ?_⟩
  · have hkept := (SendSide.readerStep_keeps hside).1
    rw [hsplit]
    exact ⟨.reader action side hside, fun _ => hkept.trans (hqueue hsplit)⟩
  · unfold running at hrunning
    rw [h] at hrunning
    cases hrunning

/-- Each step is of an end that runs. -/
theorem moves (hs : readingStep s a = some s')
    (hqueue : s.flow.split = false → s.side.queue = s.flow.transfer.send)
    (hmax : s.side.maxUnackedBytes = s.flow.transfer.maxUnackedBytes)
    (haccounted : s.side.Accounted) : s.flow.running = true ∧ Moves s s' := by
  cases a with
  | reader action => exact moves_reader hs hqueue
  | receive =>
    unfold readingStep at hs
    dsimp only at hs
    split at hs
    · cases hs
    · next event rest hevents =>
      obtain ⟨r, hevent, rfl⟩ := Option.map_eq_some_iff.mp hs
      have hrunning := running_of_event hevent
      have hqueue := hqueue (split_of_running hrunning)
      exact ⟨hrunning, moves_receive hevents hevent hqueue hmax haccounted⟩
  | frame carrierId frame io =>
    obtain ⟨r, hevent, rfl⟩ := Option.map_eq_some_iff.mp hs
    have hrunning := running_of_event hevent
    exact ⟨hrunning, moves_frame hevent (hqueue (split_of_running hrunning))⟩
  | carrierClosed carrierId =>
    obtain ⟨r, hevent, rfl⟩ := Option.map_eq_some_iff.mp hs
    have hrunning := running_of_event hevent
    exact ⟨hrunning, moves_carrierClosed hevent (hqueue (split_of_running hrunning))⟩
  | opened carrierId homeReceiveOffset =>
    obtain ⟨r, hopened, rfl⟩ := Option.map_eq_some_iff.mp hs
    have hrunning := running_of_opened hopened
    exact ⟨hrunning, moves_opened hopened (hqueue (split_of_running hrunning))⟩
  | openFailed carrierId => exact moves_of_rests hs hqueue fun _ => rests_openFailed
  | deadline => exact moves_of_rests hs hqueue fun _ => rests_deadline
  | beginRace raceId opens => exact moves_of_rests hs hqueue fun _ => rests_beginRace
  | select => exact moves_of_rests hs hqueue fun _ => rests_select
  | reevaluate => exact moves_of_rests hs hqueue fun _ => rests_reevaluate
  | recoveryExpired => exact moves_of_rests hs hqueue fun _ => rests_recoveryExpired
  | finish drained => exact moves_of_rests hs hqueue fun _ => rests_finish
  | stop => exact moves_of_rests hs hqueue fun _ => rests_stop

/-- What holds of Travel and its reader at all times. -/
structure Sound (maxUnackedBytes : ℕ) (s : Reading Travel) : Prop where
  kept : s.side.Kept maxUnackedBytes s.flow.transfer.send s.flow.split
  max_eq : s.flow.transfer.maxUnackedBytes = maxUnackedBytes
  limit : s.flow.phase ≠ .failed .unackedLimitReached

theorem Sound.moves {maxUnackedBytes : ℕ} (h : Sound maxUnackedBytes s)
    (hs : readingStep s a = some s') : s.flow.running = true ∧ Moves s s' :=
  Travel.moves hs h.kept.queue (h.kept.max_eq.trans h.max_eq.symm) h.kept.buffered.accounted

theorem Sound.step {maxUnackedBytes : ℕ} (h : Sound maxUnackedBytes s)
    (hs : readingStep s a = some s') : Sound maxUnackedBytes s' := by
  obtain ⟨hrunning, hmoves⟩ := h.moves hs
  have hkept := h.kept
  rw [split_of_running hrunning] at hkept
  exact ⟨hkept.follows hmoves.follows, hmoves.max_eq.trans h.max_eq, hmoves.limit⟩

theorem Sound.waits {maxUnackedBytes : ℕ} (h : Sound maxUnackedBytes s)
    (hs : readingStep s a = some s') : s.side.Waits s'.side :=
  h.kept.buffered.accounted.waits (h.moves hs).2.follows.step

theorem Sound.resumes {maxUnackedBytes : ℕ} (h : Sound maxUnackedBytes s)
    (hlimit : maxDataPayload ≤ maxUnackedBytes) (hrunning : s.flow.running = true) :
    s.side.Resumes (readingStep s (.reader .acquire)).isSome := by
  have hbuffered := h.kept.buffered
  rw [split_of_running hrunning] at hbuffered
  have hresumes := hbuffered.resumes (h.kept.max_eq.symm ▸ hlimit)
  unfold readingStep
  dsimp only
  rw [if_pos hrunning, Option.isSome_map]
  exact hresumes

theorem sound_of_reachable {flowId : Uuid} {maxUnackedBytes : ℕ}
    (h : (readingMachine flowId maxUnackedBytes).Reachable s) : Sound maxUnackedBytes s := by
  apply h.invariant
  · exact ⟨SendSide.kept_start maxUnackedBytes, rfl, fun h => by cases h⟩
  · intro t a t' ht hs
    exact ht.step hs

end Travel

end FlowSplice.Flow
