import FlowSplice.Flow.TravelReader

/-! The Home end of a TCP flow with its reader task, and what holds of both ends. -/
namespace FlowSplice.Flow

/-- The errors that are about the buffer. -/
def HomeError.aboutBuffer : HomeError → Bool
  | .ackSplit | .unackedLimitReached => true
  | _ => false

/-- What the Home end of a flow and its reader do. -/
inductive HomeAction where
  | reader (a : ReaderAction)
  | receive
  | frame (carrierId : Uuid) (frame : DataFrame) (io : Io)
  | carrierClosed (carrierId : Uuid)
  | attach (carrierId : Uuid) (written : Bool)
  | finish (drained : Bool)
  | stop (reason : String)
deriving DecidableEq, Repr

namespace Home

/-- An event of the reader at the loop of `run_flow`. -/
def readerEvent (h : Home) : ReaderEvent → Option Home
  | .data bytes _ => (h.targetData bytes).map (·.1)
  | .eof => h.targetEnd.map (·.1)
  | .error reason =>
    if h.phase = .running ∧ ¬ h.complete then
      some (h.fail (.ended ("target TCP failed: " ++ reason))).1
    else none

def readingStep (s : Reading Home) : HomeAction → Option (Reading Home)
  | .reader a =>
    if s.flow.phase = .running then (s.side.readerStep a).map fun side => { s with side } else none
  | .receive =>
    match s.side.events with
    | [] => none
    | event :: rest => (s.flow.readerEvent event).map fun h => ⟨h, s.side.received rest event⟩
  | .frame carrierId frame io =>
    (s.flow.frame io carrierId frame).map fun r => ⟨r.1, s.side.onFrame s.flow.flowId frame⟩
  | .carrierClosed carrierId => (s.flow.carrierClosed carrierId).map fun h => ⟨h, s.side⟩
  | .attach carrierId written => (s.flow.attach carrierId written).map fun r => ⟨r.1, s.side⟩
  | .finish drained => (s.flow.finish drained).map fun h => ⟨h, s.side⟩
  | .stop reason => (s.flow.stop reason).map fun h => ⟨h, s.side⟩

/-- The Home end of a flow, from its first Carrier on. -/
def readingMachine (flowId : Uuid) (maxUnackedBytes : ℕ) :
    Machine (Reading Home) HomeAction where
  start := ⟨{ flowId, maxUnackedBytes }, .start maxUnackedBytes⟩
  step := readingStep

/-- An ACK that split a segment has ended the flow. -/
def split (h : Home) : Bool := h.phase = .failed .ackSplit

/-- The step had nothing to do with the buffer. -/
def Rests (h h' : Home) : Prop :=
  h'.send = h.send ∧ h'.maxUnackedBytes = h.maxUnackedBytes ∧
    ∀ error, h'.phase = .failed error → error.aboutBuffer = false

/-- What a step of Home does with the buffer. -/
structure Moves (s s' : Reading Home) : Prop where
  follows : s.side.Follows s'.side s'.flow.send s'.flow.split
  max_eq : s'.flow.maxUnackedBytes = s.flow.maxUnackedBytes
  limit : s'.flow.phase ≠ .failed .unackedLimitReached

variable {h h' : Home} {s s' : Reading Home} {a : HomeAction} {r : Home × List DataFrame}

theorem not_failed_of_running (hrunning : h.phase = .running) (error : HomeError) :
    h.phase ≠ .failed error := by
  rw [hrunning]
  exact fun heq => by cases heq

theorem split_of_running (hrunning : h.phase = .running) : h.split = false :=
  decide_eq_false (not_failed_of_running hrunning _)

/-- What Home does where it goes on running. -/
theorem rests_of_running (hsend : h'.send = h.send) (hmax : h'.maxUnackedBytes = h.maxUnackedBytes)
    (hrunning : h'.phase = .running) : h.Rests h' :=
  ⟨hsend, hmax, fun error heq => absurd heq (not_failed_of_running hrunning error)⟩

theorem rests_fail {error : HomeError} (hsend : h'.send = h.send)
    (hmax : h'.maxUnackedBytes = h.maxUnackedBytes) (herror : error.aboutBuffer = false) :
    h.Rests (h'.fail error).1 := by
  refine ⟨hsend, hmax, fun error' heq => ?_⟩
  rw [← HomePhase.failed.inj heq]
  exact herror

theorem Rests.moves (hrests : s.flow.Rests h') (hqueue : s.side.queue = s.flow.send) :
    Moves s ⟨h', s.side⟩ := by
  obtain ⟨hsend, hmax, herror⟩ := hrests
  have hsplit : h'.split = false := by
    refine decide_eq_false fun hphase => ?_
    have hfalse := herror _ hphase
    cases hfalse
  refine ⟨?_, hmax, fun hphase => ?_⟩
  · rw [hsplit]
    exact ⟨.keep, fun _ => hqueue.trans hsend.symm⟩
  · have hfalse := herror _ hphase
    cases hfalse

theorem handleFrame_of_acknowledged {io : Io} {c : Uuid} {f : DataFrame} {n : ℕ}
    (hack : h.send.acknowledged h.flowId f = some n) :
    h.handleFrame io c f = h.handleAck n := by
  unfold SendQueue.acknowledged at hack
  split at hack
  · split_ifs at hack with hguard
    rw [← Option.some.inj hack]
    exact if_pos hguard
  · split_ifs at hack with hguard
    rw [← Option.some.inj hack]
    exact if_pos hguard
  · cases hack

/-- A frame that acknowledges nothing leaves the buffer as it is. -/
theorem handleFrame_rests {io : Io} {c : Uuid} {f : DataFrame} (hrunning : h.phase = .running)
    (hack : h.send.acknowledged h.flowId f = none) : h.Rests (h.handleFrame io c f).1 := by
  have hkeeps : h.Rests h := rests_of_running rfl rfl hrunning
  have hacks : ∀ id n, (if id = h.flowId ∧ h.send.sendAcked ≤ n ∧ n ≤ h.send.sendOffset then
        some n else none) = none →
      h.Rests (if id = h.flowId ∧ h.send.sendAcked ≤ n ∧ n ≤ h.send.sendOffset then
        h.handleAck n else h.rejectFrame).1 := by
    intro id n hnone
    split_ifs at hnone with hguard
    rw [if_neg hguard]
    exact hkeeps
  cases f with
  | ack id n => exact hacks id n hack
  | duplicate id n winner => exact hacks id n hack
  | race id raceId n =>
    dsimp only [handleFrame]
    unfold handleRace
    split_ifs
    · split
      · exact hkeeps
      · exact rests_of_running rfl rfl hrunning
    · exact hkeeps
  | data id offset bytes =>
    dsimp only [handleFrame]
    unfold handleData
    split_ifs
    · cases io with
      | done => exact rests_of_running rfl rfl hrunning
      | failed delivered reason => exact rests_fail rfl rfl rfl
    · exact hkeeps
    · exact hkeeps
    · exact hkeeps
  | fin id finalOffset =>
    dsimp only [handleFrame]
    unfold handleFin
    split_ifs
    · exact hkeeps
    · cases io with
      | done => exact rests_of_running rfl rfl hrunning
      | failed delivered reason => exact rests_fail rfl rfl rfl
    · exact hkeeps
  | finAck id finalOffset =>
    dsimp only [handleFrame]
    split_ifs
    · exact rests_of_running rfl rfl hrunning
    · exact hkeeps
  | close id reason =>
    dsimp only [handleFrame]
    split_ifs
    · exact rests_fail rfl rfl rfl
    · exact hkeeps
  | _ => exact hkeeps

theorem moves_frame {c : Uuid} {f : DataFrame} {io : Io} (hs : s.flow.frame io c f = some r)
    (hqueue : s.side.queue = s.flow.send) : Moves s ⟨r.1, s.side.onFrame s.flow.flowId f⟩ := by
  unfold frame at hs
  split_ifs at hs with hguard
  rw [← Option.some.inj hs]
  unfold SendSide.onFrame
  rw [hqueue]
  cases hack : s.flow.send.acknowledged s.flow.flowId f with
  | none => exact (handleFrame_rests hguard.1 hack).moves hqueue
  | some n =>
    have hbounds := SendQueue.acknowledged_bounds hack
    rw [← hqueue] at hbounds
    have hside := SendSide.follows_acknowledge (s := s.side) hbounds.1 hbounds.2
    rw [hqueue] at hside
    rw [handleFrame_of_acknowledged hack]
    unfold handleAck
    cases hdone : s.flow.send.acknowledge n with
    | none =>
      rw [hdone] at hside
      exact ⟨hside _, rfl, fun heq => by cases heq⟩
    | some send =>
      rw [hdone] at hside
      have hsplit : (split { s.flow with send }) = false := split_of_running hguard.1
      refine ⟨?_, rfl, not_failed_of_running hguard.1 _⟩
      exact hsplit ▸ hside

theorem running_of_readerEvent {event : ReaderEvent} (hs : h.readerEvent event = some h') :
    h.phase = .running ∧ ¬ h.complete := by
  by_contra hguard
  cases event with
  | data bytes credit =>
    obtain ⟨r, hdata, -⟩ := Option.map_eq_some_iff.mp hs
    unfold targetData at hdata
    rw [if_neg hguard] at hdata
    cases hdata
  | eof =>
    obtain ⟨r, hend, -⟩ := Option.map_eq_some_iff.mp hs
    unfold targetEnd at hend
    rw [if_neg hguard] at hend
    cases hend
  | error reason =>
    unfold readerEvent at hs
    dsimp only at hs
    rw [if_neg hguard] at hs
    cases hs

/-- The queue takes what the reader has read: the permits leave room for it. -/
theorem moves_receive {event : ReaderEvent} {rest : List ReaderEvent}
    (hevents : s.side.events = event :: rest) (hs : s.flow.readerEvent event = some h')
    (hqueue : s.side.queue = s.flow.send)
    (hmax : s.side.maxUnackedBytes = s.flow.maxUnackedBytes) (haccounted : s.side.Accounted) :
    Moves s ⟨h', s.side.received rest event⟩ := by
  obtain ⟨hrunning, hcomplete⟩ := running_of_readerEvent hs
  have hfits := haccounted.fits hevents
  have hstep := SendSide.Step.receive (s := s.side) event rest hevents
  cases event with
  | data bytes credit =>
    have hcredit : credit = bytes.length := by
      apply haccounted.events bytes credit
      rw [hevents]
      exact List.mem_cons_self
    have hroom : ¬ s.side.unackedBytes + bytes.length > s.side.maxUnackedBytes := by
      rw [← hcredit]
      exact Nat.not_lt.mpr hfits
    have hbytes : s.side.unackedBytes = s.flow.send.unackedBytes :=
      congrArg SendQueue.unackedBytes hqueue
    obtain ⟨r, hdata, rfl⟩ := Option.map_eq_some_iff.mp hs
    unfold targetData at hdata
    rw [if_pos ⟨hrunning, hcomplete⟩, if_neg (hmax ▸ hbytes ▸ hroom)] at hdata
    rw [← Option.some.inj hdata]
    refine ⟨?_, rfl, not_failed_of_running hrunning _⟩
    have hsplit : split { s.flow with
        send := s.flow.send.push bytes
        targetReads := s.flow.targetReads ++ [bytes] } = false := split_of_running hrunning
    refine ⟨hsplit ▸ hstep, fun _ => ?_⟩
    show (s.side.received rest (.data bytes credit)).queue = s.flow.send.push bytes
    rw [← hqueue]
    exact SendSide.buffer_queue hroom
  | eof =>
    obtain ⟨r, hend, rfl⟩ := Option.map_eq_some_iff.mp hs
    unfold targetEnd at hend
    rw [if_pos ⟨hrunning, hcomplete⟩] at hend
    rw [← Option.some.inj hend]
    refine ⟨?_, rfl, not_failed_of_running hrunning _⟩
    have hsplit : split { s.flow with targetEof := true } = false := split_of_running hrunning
    exact ⟨hsplit ▸ hstep, fun _ => hqueue⟩
  | error reason =>
    unfold readerEvent at hs
    dsimp only at hs
    rw [if_pos ⟨hrunning, hcomplete⟩] at hs
    rw [← Option.some.inj hs]
    exact ⟨⟨hstep, fun _ => hqueue⟩, rfl, fun heq => by cases heq⟩

theorem rests_carrierClosed {c : Uuid} (hs : h.carrierClosed c = some h') :
    h.phase = .running ∧ h.Rests h' := by
  unfold carrierClosed at hs
  by_cases hguard : h.phase = .running ∧ ¬ h.complete
  · rw [if_pos hguard] at hs
    rw [← Option.some.inj hs]
    exact ⟨hguard.1, rests_of_running rfl rfl hguard.1⟩
  · rw [if_neg hguard] at hs
    cases hs

theorem rests_attach {c : Uuid} {written : Bool} (hs : h.attach c written = some r) :
    h.phase = .running ∧ h.Rests r.1 := by
  unfold attach at hs
  split_ifs at hs with hguard
  · rw [← Option.some.inj hs]
    exact ⟨hguard.1, rests_of_running rfl rfl hguard.1⟩
  · rw [← Option.some.inj hs]
    exact ⟨hguard.1, rests_of_running rfl rfl hguard.1⟩
  · rw [← Option.some.inj hs]
    exact ⟨hguard.1, rests_fail rfl rfl rfl⟩

theorem rests_finish {drained : Bool} (hs : h.finish drained = some h') :
    h.phase = .running ∧ h.Rests h' := by
  unfold finish at hs
  split_ifs at hs with hguard
  · rw [← Option.some.inj hs]
    exact ⟨hguard.1, rfl, rfl, fun _ heq => by cases heq⟩
  · rw [← Option.some.inj hs]
    exact ⟨hguard.1, rests_fail rfl rfl rfl⟩

theorem rests_stop {reason : String} (hs : h.stop reason = some h') :
    h.phase = .running ∧ h.Rests h' := by
  unfold stop at hs
  split_ifs at hs with hrunning
  rw [← Option.some.inj hs]
  exact ⟨hrunning, rests_fail rfl rfl rfl⟩

/-- Each step is of an end that runs. -/
theorem moves (hs : readingStep s a = some s')
    (hqueue : s.flow.split = false → s.side.queue = s.flow.send)
    (hmax : s.side.maxUnackedBytes = s.flow.maxUnackedBytes) (haccounted : s.side.Accounted) :
    s.flow.phase = .running ∧ Moves s s' := by
  have hrests : ∀ {h'}, s.flow.phase = .running ∧ s.flow.Rests h' →
      s.flow.phase = .running ∧ Moves s ⟨h', s.side⟩ := fun ⟨hrunning, hrests⟩ =>
    ⟨hrunning, hrests.moves (hqueue (split_of_running hrunning))⟩
  cases a with
  | reader action =>
    unfold readingStep at hs
    dsimp only at hs
    split_ifs at hs with hrunning
    obtain ⟨side, hside, rfl⟩ := Option.map_eq_some_iff.mp hs
    have hsplit := split_of_running hrunning
    have hkept := (SendSide.readerStep_keeps hside).1
    refine ⟨hrunning, ?_, rfl, not_failed_of_running hrunning _⟩
    rw [hsplit]
    exact ⟨.reader action side hside, fun _ => hkept.trans (hqueue hsplit)⟩
  | receive =>
    unfold readingStep at hs
    dsimp only at hs
    split at hs
    · cases hs
    · next event rest hevents =>
      obtain ⟨h', hevent, rfl⟩ := Option.map_eq_some_iff.mp hs
      have hrunning := (running_of_readerEvent hevent).1
      have hqueue := hqueue (split_of_running hrunning)
      exact ⟨hrunning, moves_receive hevents hevent hqueue hmax haccounted⟩
  | frame carrierId frame io =>
    obtain ⟨r, hframe, rfl⟩ := Option.map_eq_some_iff.mp hs
    have hrunning := (frame_cases hframe).1
    exact ⟨hrunning, moves_frame hframe (hqueue (split_of_running hrunning))⟩
  | carrierClosed carrierId =>
    obtain ⟨h', hclosed, rfl⟩ := Option.map_eq_some_iff.mp hs
    exact hrests (rests_carrierClosed hclosed)
  | attach carrierId written =>
    obtain ⟨r, hattach, rfl⟩ := Option.map_eq_some_iff.mp hs
    exact hrests (rests_attach hattach)
  | finish drained =>
    obtain ⟨h', hfinish, rfl⟩ := Option.map_eq_some_iff.mp hs
    exact hrests (rests_finish hfinish)
  | stop reason =>
    obtain ⟨h', hstop, rfl⟩ := Option.map_eq_some_iff.mp hs
    exact hrests (rests_stop hstop)

/-- What holds of Home and its reader at all times. -/
structure Sound (maxUnackedBytes : ℕ) (s : Reading Home) : Prop where
  kept : s.side.Kept maxUnackedBytes s.flow.send s.flow.split
  max_eq : s.flow.maxUnackedBytes = maxUnackedBytes
  limit : s.flow.phase ≠ .failed .unackedLimitReached

theorem Sound.moves {maxUnackedBytes : ℕ} (hsound : Sound maxUnackedBytes s)
    (hs : readingStep s a = some s') : s.flow.phase = .running ∧ Moves s s' :=
  Home.moves hs hsound.kept.queue (hsound.kept.max_eq.trans hsound.max_eq.symm)
    hsound.kept.buffered.accounted

theorem Sound.step {maxUnackedBytes : ℕ} (hsound : Sound maxUnackedBytes s)
    (hs : readingStep s a = some s') : Sound maxUnackedBytes s' := by
  obtain ⟨hrunning, hmoves⟩ := hsound.moves hs
  have hkept := hsound.kept
  rw [split_of_running hrunning] at hkept
  exact ⟨hkept.follows hmoves.follows, hmoves.max_eq.trans hsound.max_eq, hmoves.limit⟩

theorem Sound.waits {maxUnackedBytes : ℕ} (hsound : Sound maxUnackedBytes s)
    (hs : readingStep s a = some s') : s.side.Waits s'.side :=
  hsound.kept.buffered.accounted.waits (hsound.moves hs).2.follows.step

theorem Sound.resumes {maxUnackedBytes : ℕ} (hsound : Sound maxUnackedBytes s)
    (hlimit : maxDataPayload ≤ maxUnackedBytes) (hrunning : s.flow.phase = .running) :
    s.side.Resumes (readingStep s (.reader .acquire)).isSome := by
  have hbuffered := hsound.kept.buffered
  rw [split_of_running hrunning] at hbuffered
  have hresumes := hbuffered.resumes (hsound.kept.max_eq.symm ▸ hlimit)
  unfold readingStep
  dsimp only
  rw [if_pos hrunning, Option.isSome_map]
  exact hresumes

theorem sound_of_reachable {flowId : Uuid} {maxUnackedBytes : ℕ}
    (hreach : (readingMachine flowId maxUnackedBytes).Reachable s) :
    Sound maxUnackedBytes s := by
  apply hreach.invariant
  · exact ⟨SendSide.kept_start maxUnackedBytes, rfl, fun heq => by cases heq⟩
  · intro t a t' ht hs
    exact ht.step hs

end Home

/-- Both ends keep what is not acknowledged, never run into their limit, and let the reader go on.
The limit admits a whole frame, as both configurations check. -/
theorem retained_of_reachable (flowId : Uuid) (maxUnackedBytes : ℕ)
    (hlimit : maxDataPayload ≤ maxUnackedBytes) :
    (∀ s, (Travel.readingMachine flowId maxUnackedBytes).Reachable s →
      s.side.Retained maxUnackedBytes s.flow.transfer.send s.flow.split ∧
      s.flow.phase ≠ .failed .unackedLimitReached ∧
      (s.flow.running = true →
        s.side.Resumes (Travel.readingStep s (.reader .acquire)).isSome) ∧
      ∀ a s', Travel.readingStep s a = some s' → s.side.Waits s'.side) ∧
    ∀ s, (Home.readingMachine flowId maxUnackedBytes).Reachable s →
      s.side.Retained maxUnackedBytes s.flow.send s.flow.split ∧
      s.flow.phase ≠ .failed .unackedLimitReached ∧
      (s.flow.phase = .running →
        s.side.Resumes (Home.readingStep s (.reader .acquire)).isSome) ∧
      ∀ a s', Home.readingStep s a = some s' → s.side.Waits s'.side := by
  constructor
  · intro s hreach
    have hsound := Travel.sound_of_reachable hreach
    exact ⟨hsound.kept.retained, hsound.limit, hsound.resumes hlimit, fun _ _ => hsound.waits⟩
  · intro s hreach
    have hsound := Home.sound_of_reachable hreach
    exact ⟨hsound.kept.retained, hsound.limit, hsound.resumes hlimit, fun _ _ => hsound.waits⟩

namespace Travel

/-- Two reads are buffered, and then an ACK comes that ends within the second. -/
def splitActions : List TravelAction :=
  [.beginRace 7 [1], .reader (.read [0, 0]), .reader .acquire, .reader .send, .receive,
    .reader (.read [0, 0]), .reader .acquire, .reader .send, .receive,
    .frame 1 (.ack 5 3) .done]

def splitState : Reading Travel :=
  ((readingMachine 5 maxDataPayload).exec splitActions).getD
    (readingMachine 5 maxDataPayload).start

theorem reachable_splitState : (readingMachine 5 maxDataPayload).Reachable splitState :=
  @Machine.reachable_of_exec _ _ _ _ splitActions rfl

end Travel

theorem retained_of_reachable_split :
    Travel.splitState.side.Retained maxDataPayload Travel.splitState.flow.transfer.send
      Travel.splitState.flow.split ∧ Travel.splitState.flow.split = true := by
  have hall := retained_of_reachable 5 maxDataPayload le_rfl
  exact ⟨(hall.1 _ Travel.reachable_splitState).1, rfl⟩

/-- The first segment is gone then, although nothing is acknowledged. -/
theorem not_contiguous_of_reachable : ¬ ∀ (flowId : Uuid) (maxUnackedBytes : ℕ) (s : Reading Travel),
    maxDataPayload ≤ maxUnackedBytes →
    (Travel.readingMachine flowId maxUnackedBytes).Reachable s →
      SendSide.Contiguous s.side.sendAcked s.side.unacked s.side.sendOffset := by
  intro h
  have hcontiguous := h 5 maxDataPayload Travel.splitState le_rfl Travel.reachable_splitState
  have hfirst : Travel.splitState.side.sendAcked = 0 := rfl
  have hunacked : Travel.splitState.side.unacked = [⟨⟨2, [0, 0]⟩, 2⟩] := rfl
  rw [hfirst, hunacked] at hcontiguous
  have hoffset : 2 = 0 := hcontiguous.1
  cases hoffset

end FlowSplice.Flow
