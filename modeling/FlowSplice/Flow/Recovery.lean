import FlowSplice.Flow.Cases

/-! The clock of `run_inner` in `flowsplice-travel-core/src/tcp_flow.rs`: when races are due, and
when a flow without an active Carrier is given up. -/
namespace FlowSplice.Flow

structure RecoveryConfig where
  carrierRaceTimeoutSecs : ℕ := 10
  carrierRecoveryTimeoutSecs : ℕ := 90
  carrierReevaluateSecs : ℕ := 60
  maxCarrierReevaluateSecs : ℕ := 900

/-- `Duration::from_secs`. Instants are in nanoseconds. -/
def fromSecs (secs : ℕ) : ℕ := secs * 1000000000

/-- `advance_reevaluation`. -/
def advanceReevaluation (currentSecs initialSecs maximumSecs : ℕ) (stable : Bool) : ℕ × ℕ :=
  let delaySecs := if stable then currentSecs else initialSecs
  (delaySecs, min (delaySecs * 2) maximumSecs)

/-- The locals of `run_inner` and `perform_race` that hold times, beside the Travel end. The last two
fields are for statements: when there was an active Carrier last, and whether a race has been started
without one since. -/
structure Recovery where
  travel : Travel
  now : ℕ
  recoveryStarted : ℕ
  nextReevaluation : ℕ
  reevaluateSecs : ℕ
  raceDeadline : ℕ := 0
  lastActive : Option ℕ := none
  raced : Bool := false
deriving DecidableEq, Repr

namespace Recovery

inductive Action where
  | tick (now : ℕ)
  | finish (drained : Bool)
  | race (raceId : Uuid) (opens : List Uuid)
  | recoveryExpired
  | select
  | reevaluate
  | stop
  | opened (carrierId homeReceiveOffset : ℕ)
  | openFailed (carrierId : Uuid)
  | deadline
  | event (event : FlowEvent) (io : Io)
deriving DecidableEq, Repr

variable (config : RecoveryConfig) (s : Recovery)

def start (transfer : TransferState) (now : ℕ) : Recovery where
  travel := { transfer }
  now := now
  recoveryStarted := now
  nextReevaluation := now
  reevaluateSecs := config.carrierReevaluateSecs

/-- `recovery_started.elapsed()` is over the timeout. -/
def overdue : Bool :=
  decide (s.recoveryStarted + fromSecs config.carrierRecoveryTimeoutSecs < s.now)

/-- What `run_inner` does with the result of `perform_race`, if it is over: a winner, or none. -/
def afterRace (race : Race) (winner : Option Uuid) (next : Travel) : Recovery :=
  match next.phase, winner with
  | .selecting, some winner =>
    let (delaySecs, nextDelaySecs) := advanceReevaluation s.reevaluateSecs
      config.carrierReevaluateSecs config.maxCarrierReevaluateSecs (race.oldActive == some winner)
    { s with
      travel := next, recoveryStarted := s.now, nextReevaluation := s.now + fromSecs delaySecs
      reevaluateSecs := nextDelaySecs }
  | .selecting, none =>
    let (delaySecs, nextDelaySecs) := advanceReevaluation s.reevaluateSecs
      config.carrierReevaluateSecs config.maxCarrierReevaluateSecs false
    { s with
      travel := next, nextReevaluation := s.now + fromSecs delaySecs
      reevaluateSecs := nextDelaySecs }
  | _, _ => { s with travel := next }

/-- What `run_inner` does with an event of its `select!`. -/
def afterEvent (next : Travel) : Recovery :=
  if next.phase = .loopTop ∧ next.active = none then
    { s with
      travel := next, recoveryStarted := s.now, reevaluateSecs := config.carrierReevaluateSecs }
  else { s with travel := next }

def act : Action → Option Recovery
  | .tick now => if now < s.now then none else some { s with now }
  | .finish drained => (s.travel.finish drained).map fun r => { s with travel := r.1 }
  | .race raceId opens =>
    if (s.travel.active = none ∧ s.overdue config = true) ∨
        (s.travel.active ≠ none ∧ s.now < s.nextReevaluation) then none
    else (s.travel.beginRace raceId opens).map fun r =>
      { s with
        travel := r.1, raceDeadline := s.now + fromSecs config.carrierRaceTimeoutSecs
        raced := true }
  | .recoveryExpired =>
    if s.overdue config then s.travel.recoveryExpired.map fun r => { s with travel := r.1 }
    else none
  | .select =>
    if s.now < s.nextReevaluation then s.travel.select.map fun r => { s with travel := r.1 }
    else none
  | .reevaluate =>
    if s.nextReevaluation ≤ s.now then s.travel.reevaluate.map fun r => { s with travel := r.1 }
    else none
  | .stop => s.travel.stop.map fun r => { s with travel := r.1 }
  | .opened carrierId homeReceiveOffset =>
    (s.travel.opened carrierId homeReceiveOffset).map fun r => { s with travel := r.1 }
  | .openFailed carrierId =>
    match s.travel.phase with
    | .racing race =>
      (s.travel.openFailed carrierId).map fun r => s.afterRace config race none r.1
    | _ => none
  | .deadline =>
    match s.travel.phase with
    | .racing race =>
      if s.raceDeadline ≤ s.now then
        s.travel.deadline.map fun r => s.afterRace config race none r.1
      else none
    | _ => none
  | .event event io =>
    (s.travel.event event io).map fun r =>
      match s.travel.phase with
      | .racing race => s.afterRace config race (s.travel.raceWinner race event) r.1
      | _ => s.afterEvent config r.1

/-- An active Carrier is noted, before the step and after it. -/
def note (next : Recovery) : Recovery :=
  { next with
    lastActive :=
      if s.travel.active = none ∧ next.travel.active = none then s.lastActive else some next.now
    raced := next.raced && s.travel.active.isNone && next.travel.active.isNone }

def step (a : Action) : Option Recovery := (s.act config a).map s.note

def machine (transfer : TransferState) (now : ℕ) : Machine Recovery Action where
  start := start config transfer now
  step := step config

/-- A flow that is given up has had no active Carrier for longer than the timeout, and a race has
been started since. -/
def Justified : Prop :=
  s.travel.phase = .failed .recoveryDeadlineExpired →
    (∀ u ∈ s.lastActive, u + fromSecs config.carrierRecoveryTimeoutSecs < s.now) ∧
      s.raced = true

/-- A race that began with an active Carrier does not end without one. -/
def Survives : Action → Prop
  | .deadline => match s.travel.phase with
    | .racing race => ∀ old ∈ race.oldActive, old ∈ s.travel.carriers ∧ old ∉ race.candidateIds
    | _ => True
  | .openFailed carrierId => match s.travel.phase with
    | .racing race => race.oldActive = none ∨
        s.travel.exhausted { race with opens := race.opens.filter (· ≠ carrierId) } = false
    | _ => True
  | .event event _ => match s.travel.phase with
    | .racing race => race.oldActive = none ∨ match s.travel.raceWinner race event, event with
      | some winner, _ => winner ∈ s.travel.carriers
      | none, .carrierClosed carrierId => Travel.exhausted
          { s.travel with
            active := if s.travel.active = some carrierId then none else s.travel.active }
          (Travel.Race.afterEvent race event) = false
      | none, _ => True
    | _ => True
  | _ => True

/-- The clock does not pass the timeout before the first race since the loss. -/
def Prompt : Action → Prop
  | .tick now => s.travel.phase = .loopTop → s.travel.active = none → s.raced = false →
      now ≤ s.recoveryStarted + fromSecs config.carrierRecoveryTimeoutSecs
  | _ => True

/-- The condition on the steps of a run. -/
def Fair (a : Action) : Prop := s.Survives a ∧ s.Prompt config a

instance (a : Action) : Decidable (s.Survives a) := by
  cases a <;> unfold Survives <;> dsimp only <;> repeat' split
  all_goals infer_instance

instance (a : Action) : Decidable (s.Prompt config a) := by
  cases a <;> unfold Prompt <;> infer_instance

instance (a : Action) : Decidable (s.Fair config a) := inferInstanceAs (Decidable (_ ∧ _))


/-! What the Travel end can do, as far as it bears on the clock. -/

theorem handleEvent_ne_expired {event : FlowEvent} {io : Io} {transfer : TransferState}
    {carriers : List Uuid} {active : Option Uuid} :
    (handleEvent event io transfer carriers active).result ≠ .error .recoveryDeadlineExpired := by
  cases event with
  | localData bytes =>
    unfold handleEvent
    dsimp only
    split_ifs <;> simp
  | localEof => simp [handleEvent]
  | localError reason => simp [handleEvent]
  | carrierClosed carrierId => simp [handleEvent]
  | carrierFrame carrierId frame =>
    unfold handleEvent
    cases frame with
    | data flowId offset bytes =>
      simp only [handleFrame]
      split_ifs
      · unfold handleData
        split_ifs
        · cases io <;> simp
        · simp
        · simp
      · simp
    | ack flowId nextOffset =>
      simp only [handleFrame]
      split_ifs
      · unfold handleAck
        split <;> simp
      · simp
    | duplicate flowId nextOffset winner =>
      simp only [handleFrame]
      split_ifs
      · unfold handleAck
        split <;> simp
      · simp
    | fin flowId finalOffset =>
      simp only [handleFrame]
      split_ifs
      · unfold handleFin
        split_ifs
        · simp
        · cases io <;> simp
      · simp
    | finAck flowId finalOffset =>
      simp only [handleFrame]
      split_ifs <;> simp
    | close flowId reason =>
      simp only [handleFrame]
      split_ifs <;> simp
    | _ => simp [handleFrame]

/-- The Travel end is over, for another reason than the deadline. -/
def Over (t : Travel) : Prop :=
  t.phase = .returned ∨ ∃ error, error ≠ .recoveryDeadlineExpired ∧ t.phase = .failed error

theorem over_fail {t : Travel} {error : TravelError} (h : error ≠ .recoveryDeadlineExpired) :
    Over (t.fail error).1 :=
  .inr ⟨error, h, rfl⟩

/-- The race goes on. -/
def GoesOn (race : Race) (next : Travel) : Prop :=
  ∃ race', next.phase = .racing race' ∧ race'.oldActive = race.oldActive

theorem finish_over {t : Travel} {drained : Bool} {r : Travel × Sends}
    (h : t.finish drained = some r) : t.phase = .loopTop ∧ Over r.1 := by
  unfold Travel.finish at h
  split_ifs at h with hphase hdrained
  · rw [← Option.some.inj h]
    exact ⟨hphase.1, .inl rfl⟩
  · rw [← Option.some.inj h]
    exact ⟨hphase.1, over_fail (by simp)⟩

theorem stop_over {t : Travel} {r : Travel × Sends} (h : t.stop = some r) : Over r.1 := by
  unfold Travel.stop at h
  split_ifs at h
  rw [← Option.some.inj h]
  exact over_fail (by simp)

theorem beginRace_cases {t : Travel} {raceId : Uuid} {opens : List Uuid} {r : Travel × Sends}
    (h : t.beginRace raceId opens = some r) : t.phase = .loopTop ∧
      (∃ race, r.1.phase = .racing race ∧ race.oldActive = t.active) ∧ r.1.active = t.active := by
  unfold Travel.beginRace at h
  split_ifs at h with htop
  rw [← Option.some.inj h]
  exact ⟨htop.1, ⟨_, rfl, rfl⟩, rfl⟩

theorem opened_cases {t : Travel} {carrierId homeReceiveOffset : ℕ} {r : Travel × Sends}
    (h : t.opened carrierId homeReceiveOffset = some r) :
    ∃ race, t.phase = .racing race ∧
      (Over r.1 ∨ GoesOn race r.1 ∧ r.1.active = t.active) := by
  unfold Travel.opened at h
  split at h
  · next race hrace =>
    refine ⟨race, hrace, ?_⟩
    split_ifs at h
    · rw [← Option.some.inj h]
      exact .inl (over_fail (by simp))
    · rw [← Option.some.inj h]
      exact .inl (over_fail (by simp))
    · split at h
      · rw [← Option.some.inj h]
        exact .inl (over_fail (by simp))
      · rw [← Option.some.inj h]
        exact .inr ⟨⟨_, rfl, rfl⟩, rfl⟩
  · cases h

theorem openFailed_cases {t : Travel} {carrierId : Uuid} {r : Travel × Sends}
    (h : t.openFailed carrierId = some r) :
    ∃ race, t.phase = .racing race ∧
      r = t.continueRace { race with opens := race.opens.filter (· ≠ carrierId) } := by
  unfold Travel.openFailed at h
  split at h
  · next race hrace =>
    split_ifs at h
    exact ⟨race, hrace, (Option.some.inj h).symm⟩
  · cases h

/-- A race without an old Carrier that nobody wins leaves none. -/
theorem endRace_lost {t : Travel} {race : Race} (h : race.oldActive = none) :
    (t.endRace race none).1.phase = .loopTop ∧ (t.endRace race none).1.active = none := by
  unfold Travel.endRace
  rw [h]
  exact ⟨rfl, rfl⟩

/-- The old Carrier is kept. -/
theorem endRace_kept {t : Travel} {race : Race} {old : Uuid} (h : race.oldActive = some old)
    (hopen : old ∈ t.carriers) (hcandidate : old ∉ race.candidateIds) :
    (t.endRace race none).1.phase = .selecting ∧
      (t.endRace race none).1.active = some old := by
  have hkept : race.oldActive.any (· ∈ t.carriers.filter (· ∉ race.candidateIds)) = true := by
    rw [h]
    simp [hopen, hcandidate]
  unfold Travel.endRace
  dsimp only
  rw [if_pos hkept]
  exact ⟨rfl, h⟩

theorem endRace_won {t : Travel} {race : Race} {winner : Uuid} (h : winner ∈ t.carriers) :
    (t.endRace race (some winner)).1.phase = .selecting ∧
      (t.endRace race (some winner)).1.active = some winner := by
  unfold Travel.endRace
  dsimp only
  rw [if_pos h]
  exact ⟨rfl, rfl⟩

/-- Whoever is named, a Carrier wins or none is left. -/
theorem endRace_named {t : Travel} {race : Race} {winner : Uuid} :
    ((t.endRace race (some winner)).1.phase = .selecting ∧
      (t.endRace race (some winner)).1.active = some winner) ∨
    ((t.endRace race (some winner)).1.phase = .loopTop ∧
      (t.endRace race (some winner)).1.active = none) := by
  by_cases h : winner ∈ t.carriers
  · exact .inl (endRace_won h)
  · unfold Travel.endRace
    dsimp only
    rw [if_neg h]
    exact .inr ⟨rfl, rfl⟩

theorem continueRace_on {t : Travel} {race : Race} (h : t.exhausted race = false) :
    (t.continueRace race).1.phase = .racing race ∧ (t.continueRace race).1.active = t.active := by
  unfold Travel.continueRace
  rw [h]
  exact ⟨rfl, rfl⟩

theorem continueRace_without {t : Travel} {race : Race} (hold : race.oldActive = none)
    (hactive : t.active = none) :
    ((t.continueRace race).1.phase = .loopTop ∨ (t.continueRace race).1.phase = .racing race) ∧
      (t.continueRace race).1.active = none := by
  unfold Travel.continueRace
  split_ifs
  · exact ⟨.inl (endRace_lost hold).1, (endRace_lost hold).2⟩
  · exact ⟨.inr rfl, hactive⟩

@[simp] theorem oldActive_afterEvent (race : Race) (event : FlowEvent) :
    (Travel.Race.afterEvent race event).oldActive = race.oldActive := by
  cases event <;> rfl

variable {config : RecoveryConfig} {s s' : Recovery} {a : Action} {race : Race}

@[simp] theorem travel_afterRace {winner : Option Uuid} {next : Travel} :
    (s.afterRace config race winner next).travel = next := by
  unfold afterRace
  split <;> rfl

theorem afterRace_of_ne {winner : Option Uuid} {next : Travel} (h : next.phase ≠ .selecting) :
    s.afterRace config race winner next = { s with travel := next } := by
  unfold afterRace
  split
  · next hphase => exact absurd hphase h
  · next hphase => exact absurd hphase h
  · rfl

/-- Where a flow can be. Without an active Carrier, the recovery clock was started when the Carrier
was lost or later, and unless a race has been started since, the timeout has not passed. -/
inductive Mode (config : RecoveryConfig) (s : Recovery) : Prop where
  | without (hphase : s.travel.phase = .loopTop ∨
        (∃ race, s.travel.phase = .racing race ∧ race.oldActive = none) ∧ s.raced = true)
      (hactive : s.travel.active = none) (hlost : ∀ u ∈ s.lastActive, u ≤ s.recoveryStarted)
      (hsoon : s.raced = false →
        s.now ≤ s.recoveryStarted + fromSecs config.carrierRecoveryTimeoutSecs)
  | active (hphase : s.travel.phase = .loopTop ∨ s.travel.phase = .selecting)
      (hactive : s.travel.active ≠ none)
  | race (race : Race) (hphase : s.travel.phase = .racing race) (hold : race.oldActive ≠ none)
  | ended (hover : Over s.travel)
  | expired (hphase : s.travel.phase = .failed .recoveryDeadlineExpired)
      (hlost : ∀ u ∈ s.lastActive, u + fromSecs config.carrierRecoveryTimeoutSecs < s.now)
      (hraced : s.raced = true) (hactive : s.travel.active = none)

theorem Mode.start (transfer : TransferState) (now : ℕ) :
    Mode config (machine config transfer now).start :=
  .without (.inl rfl) rfl (fun _ h => by cases h) fun _ => Nat.le_add_right _ _

theorem Mode.justified (h : Mode config s) : s.Justified config := by
  intro hphase
  cases h with
  | without hother _ _ _ =>
    rcases hother with hother | ⟨⟨_, hother, _⟩, _⟩ <;>
    · rw [hphase] at hother
      cases hother
  | active hother _ =>
    rcases hother with hother | hother <;>
    · rw [hphase] at hother
      cases hother
  | race _ hother _ =>
    rw [hphase] at hother
    cases hother
  | ended hover =>
    rcases hover with hother | ⟨error, hne, hother⟩
    · rw [hphase] at hother
      cases hother
    · rw [hphase] at hother
      exact absurd (TravelPhase.failed.inj hother).symm hne
  | expired _ hlost hraced _ => exact ⟨hlost, hraced⟩

theorem not_over {t : Travel} (h : Over t) :
    t.phase ≠ .loopTop ∧ t.phase ≠ .selecting ∧ ∀ race, t.phase ≠ .racing race := by
  rcases h with h | ⟨error, -, h⟩ <;>
  · rw [h]
    simp

/-- At the top of the loop without an active Carrier. -/
theorem Mode.atTop (h : Mode config s) (hphase : s.travel.phase = .loopTop)
    (hactive : s.travel.active = none) :
    (∀ u ∈ s.lastActive, u ≤ s.recoveryStarted) ∧ (s.raced = false →
      s.now ≤ s.recoveryStarted + fromSecs config.carrierRecoveryTimeoutSecs) := by
  cases h with
  | without _ _ hlost hsoon => exact ⟨hlost, hsoon⟩
  | active _ hsome => exact absurd hactive hsome
  | race _ hother _ =>
    rw [hphase] at hother
    cases hother
  | ended hover => exact absurd hphase (not_over hover).1
  | expired hother _ _ _ =>
    rw [hphase] at hother
    cases hother

/-- In a race that was started without an active Carrier. -/
theorem Mode.inRace (h : Mode config s) (hphase : s.travel.phase = .racing race)
    (hold : race.oldActive = none) : s.travel.active = none ∧ s.raced = true ∧
      ∀ u ∈ s.lastActive, u ≤ s.recoveryStarted := by
  cases h with
  | without hother hactive hlost _ =>
    rcases hother with htop | ⟨-, hraced⟩
    · rw [hphase] at htop
      cases htop
    · exact ⟨hactive, hraced, hlost⟩
  | active hother _ =>
    rcases hother with hother | hother <;>
    · rw [hphase] at hother
      cases hother
  | race _ hother hsome =>
    rw [hphase] at hother
    rw [← TravelPhase.racing.inj hother] at hsome
    exact absurd hold hsome
  | ended hover => exact absurd hphase ((not_over hover).2.2 race)
  | expired hother _ _ _ =>
    rw [hphase] at hother
    cases hother

theorem Mode.inSelect (h : Mode config s) (hphase : s.travel.phase = .selecting) :
    s.travel.active ≠ none := by
  cases h with
  | without hother _ _ _ =>
    rcases hother with hother | ⟨⟨_, hother, _⟩, _⟩ <;>
    · rw [hphase] at hother
      cases hother
  | active _ hsome => exact hsome
  | race _ hother _ =>
    rw [hphase] at hother
    cases hother
  | ended hover => exact absurd hphase (not_over hover).2.1
  | expired hother _ _ _ =>
    rw [hphase] at hother
    cases hother

theorem note_of_none {next : Recovery} (h : s.travel.active = none)
    (hnext : next.travel.active = none) :
    s.note next = { next with lastActive := s.lastActive } := by
  unfold note
  rw [if_pos ⟨h, hnext⟩, h, hnext]
  simp

/-- A race without an active Carrier goes on, or is over. -/
theorem Mode.withoutNext {next : Travel} (hactive : s.travel.active = none)
    (hlost : ∀ u ∈ s.lastActive, u ≤ s.recoveryStarted) (hraced : s.raced = true)
    (hphase : next.phase = .loopTop ∨ ∃ race, next.phase = .racing race ∧ race.oldActive = none)
    (hnext : next.active = none) : Mode config (s.note { s with travel := next }) := by
  rw [note_of_none hactive hnext]
  apply Mode.without
  · rcases hphase with htop | hrace
    · exact .inl htop
    · exact .inr ⟨hrace, hraced⟩
  · exact hnext
  · exact hlost
  · intro hfalse
    have hfalse : s.raced = false := hfalse
    rw [hraced] at hfalse
    cases hfalse

theorem Mode.tick {now : ℕ} (h : Mode config s) (hok : s.Prompt config (.tick now))
    (hs : s.act config (.tick now) = some s') : Mode config (s.note s') := by
  unfold act at hs
  dsimp only at hs
  split_ifs at hs with hnow
  rw [← Option.some.inj hs]
  cases h with
  | without hphase hactive hlost hsoon =>
    have hnext : ({ s with now := now } : Recovery).travel.active = none := hactive
    rw [note_of_none hactive hnext]
    refine .without hphase hactive hlost fun hraced => ?_
    rcases hphase with htop | ⟨-, htrue⟩
    · exact hok htop hactive hraced
    · have hraced : s.raced = false := hraced
      rw [htrue] at hraced
      cases hraced
  | active hphase hactive => exact .active hphase hactive
  | race race hphase hold => exact .race race hphase hold
  | ended hover => exact .ended hover
  | expired hphase hlost hraced hactive =>
    have hnext : ({ s with now := now } : Recovery).travel.active = none := hactive
    rw [note_of_none hactive hnext]
    refine .expired hphase (fun u hu => ?_) hraced hactive
    have hu := hlost u hu
    show _ < now
    omega

/-- A race starts, with the active Carrier or without one. -/
theorem Mode.beginRace {raceId : Uuid} {opens : List Uuid} (h : Mode config s)
    (hs : s.act config (.race raceId opens) = some s') : Mode config (s.note s') := by
  unfold act at hs
  dsimp only at hs
  split_ifs at hs
  obtain ⟨r, hr, rfl⟩ := Option.map_eq_some_iff.mp hs
  obtain ⟨htop, ⟨race, hrace, hold⟩, hsame⟩ := beginRace_cases hr
  by_cases hactive : s.travel.active = none
  · have hlost := (h.atTop htop hactive).1
    have hnext : r.1.active = none := hsame.trans hactive
    rw [note_of_none hactive hnext]
    exact .without (.inr ⟨⟨race, hrace, hold.trans hactive⟩, rfl⟩) hnext hlost
      fun h => by cases h
  · refine .race race hrace ?_
    rw [hold]
    exact hactive

/-- Travel gives up. -/
theorem Mode.recoveryExpired (h : Mode config s)
    (hs : s.act config .recoveryExpired = some s') : Mode config (s.note s') := by
  unfold act at hs
  dsimp only at hs
  split_ifs at hs with hoverdue
  obtain ⟨r, hr, rfl⟩ := Option.map_eq_some_iff.mp hs
  unfold Travel.recoveryExpired at hr
  split_ifs at hr with hcondition
  rw [← Option.some.inj hr]
  have hoverdue : s.recoveryStarted + fromSecs config.carrierRecoveryTimeoutSecs < s.now :=
    of_decide_eq_true hoverdue
  obtain ⟨hlost, hsoon⟩ := h.atTop hcondition.1 hcondition.2.2
  have hnext : (s.travel.fail .recoveryDeadlineExpired).1.active = none := rfl
  rw [note_of_none hcondition.2.2 hnext]
  apply Mode.expired
  · rfl
  · intro u hu
    have hu := hlost u hu
    show u + _ < s.now
    omega
  · show s.raced = true
    by_contra hraced
    have hsoon := hsoon (by simpa using hraced)
    omega
  · rfl

/-- A race ends without a winner, or goes on. -/
theorem Mode.continueRace {race' : Race} {t : Travel} (h : Mode config s)
    (hphase : s.travel.phase = .racing race) (hold : race'.oldActive = race.oldActive)
    (hactive : s.travel.active = none → t.active = none)
    (hok : race.oldActive = none ∨ t.exhausted race' = false) {winner : Option Uuid} :
    Mode config (s.note (s.afterRace config race winner (t.continueRace race').1)) := by
  by_cases hnone : race.oldActive = none
  · obtain ⟨hs, hraced, hlost⟩ := h.inRace hphase hnone
    obtain ⟨hnext, hactive'⟩ := continueRace_without (hold.trans hnone) (hactive hs)
    rw [afterRace_of_ne]
    · apply Mode.withoutNext hs hlost hraced _ hactive'
      rcases hnext with htop | hrace
      · exact .inl htop
      · exact .inr ⟨race', hrace, hold.trans hnone⟩
    · rcases hnext with hnext | hnext <;>
      · rw [hnext]
        simp
  · have hgoes := continueRace_on (hok.resolve_left hnone)
    refine .race race' ?_ ?_
    · show (s.afterRace config race winner _).travel.phase = _
      rw [travel_afterRace]
      exact hgoes.1
    · rw [hold]
      exact hnone

theorem Mode.opened {carrierId homeReceiveOffset : ℕ} (h : Mode config s)
    (hs : s.act config (.opened carrierId homeReceiveOffset) = some s') :
    Mode config (s.note s') := by
  unfold act at hs
  dsimp only at hs
  obtain ⟨r, hr, rfl⟩ := Option.map_eq_some_iff.mp hs
  obtain ⟨race, hphase, hover | ⟨⟨race', hrace', hold⟩, hactive⟩⟩ := opened_cases hr
  · exact .ended hover
  · by_cases hnone : race.oldActive = none
    · obtain ⟨hs, hraced, hlost⟩ := h.inRace hphase hnone
      apply Mode.withoutNext hs hlost hraced
      · exact .inr ⟨race', hrace', hold.trans hnone⟩
      · rw [hactive]
        exact hs
    · refine .race race' hrace' ?_
      rw [hold]
      exact hnone

theorem Mode.openFailed {carrierId : Uuid} (h : Mode config s)
    (hok : s.Survives (.openFailed carrierId))
    (hs : s.act config (.openFailed carrierId) = some s') : Mode config (s.note s') := by
  unfold act at hs
  dsimp only at hs
  split at hs
  · next race hphase =>
    obtain ⟨r, hr, rfl⟩ := Option.map_eq_some_iff.mp hs
    obtain ⟨race', hrace', heq⟩ := openFailed_cases hr
    rw [hphase] at hrace'
    obtain rfl := TravelPhase.racing.inj hrace'
    unfold Survives at hok
    dsimp only at hok
    rw [hphase] at hok
    rw [heq]
    apply h.continueRace hphase
    · rfl
    · exact id
    · exact hok
  · cases hs

theorem Mode.deadline (h : Mode config s) (hok : s.Survives .deadline)
    (hs : s.act config .deadline = some s') : Mode config (s.note s') := by
  unfold act at hs
  dsimp only at hs
  split at hs
  · next race hphase =>
    split_ifs at hs
    obtain ⟨r, hr, rfl⟩ := Option.map_eq_some_iff.mp hs
    unfold Travel.deadline at hr
    rw [hphase] at hr
    rw [← Option.some.inj hr]
    cases hold : race.oldActive with
    | none =>
      obtain ⟨hactive, hraced, hlost⟩ := h.inRace hphase hold
      obtain ⟨htop, hnext⟩ := endRace_lost (t := s.travel) hold
      rw [afterRace_of_ne (by rw [htop]; simp)]
      exact Mode.withoutNext hactive hlost hraced (.inl htop) hnext
    | some old =>
      unfold Survives at hok
      dsimp only at hok
      rw [hphase] at hok
      obtain ⟨hopen, hcandidate⟩ := hok old hold
      obtain ⟨hselecting, hnext⟩ := endRace_kept hold hopen hcandidate
      refine .active (.inr ?_) ?_
      · show (s.afterRace config race none _).travel.phase = _
        rw [travel_afterRace]
        exact hselecting
      · show (s.afterRace config race none _).travel.active ≠ none
        rw [travel_afterRace, hnext]
        exact Option.some_ne_none old
  · cases hs

/-- An answer of Home names the winner. -/
theorem Mode.decided {winner : Uuid} (h : Mode config s)
    (hphase : s.travel.phase = .racing race)
    (hok : race.oldActive = none ∨ winner ∈ s.travel.carriers) :
    Mode config (s.note (s.afterRace config race (some winner)
      (s.travel.endRace race (some winner)).1)) := by
  have hwon : (s.travel.endRace race (some winner)).1.phase = .selecting →
      (s.travel.endRace race (some winner)).1.active = some winner →
      Mode config (s.note (s.afterRace config race (some winner)
        (s.travel.endRace race (some winner)).1)) := by
    intro hselecting hactive
    refine .active (.inr ?_) ?_
    · show (s.afterRace config race _ _).travel.phase = _
      rw [travel_afterRace]
      exact hselecting
    · show (s.afterRace config race _ _).travel.active ≠ none
      rw [travel_afterRace, hactive]
      exact Option.some_ne_none winner
  by_cases hnone : race.oldActive = none
  · have hnamed := @endRace_named s.travel race winner
    rcases hnamed with ⟨hselecting, hactive⟩ | ⟨htop, hnext⟩
    · exact hwon hselecting hactive
    · obtain ⟨hactive, hraced, hlost⟩ := h.inRace hphase hnone
      rw [afterRace_of_ne (by rw [htop]; simp)]
      exact Mode.withoutNext hactive hlost hraced (.inl htop) hnext
  · have hwins := @endRace_won s.travel race winner (hok.resolve_left hnone)
    obtain ⟨hselecting, hactive⟩ := hwins
    exact hwon hselecting hactive

@[simp] theorem travel_afterEvent {next : Travel} :
    (s.afterEvent config next).travel = next := by
  unfold afterEvent
  split_ifs <;> rfl

/-- The active Carrier closes in the `select!`, or something else happens there. -/
theorem Mode.afterEvent {next : Travel} (hactive : s.travel.active ≠ none)
    (hnext : next.phase = .loopTop) : Mode config (s.note (s.afterEvent config next)) := by
  by_cases hnone : next.active = none
  · unfold Recovery.afterEvent
    rw [if_pos ⟨hnext, hnone⟩]
    apply Mode.without
    · exact .inl hnext
    · exact hnone
    · intro u hu
      have hlast : some s.now = some u := by
        rw [← Option.mem_def.mp hu]
        show _ = if _ then _ else _
        rw [if_neg fun h => hactive h.1]
      exact le_of_eq (Option.some.inj hlast).symm
    · intro _
      exact Nat.le_add_right _ _
  · refine .active (.inl ?_) ?_
    · show (s.afterEvent config next).travel.phase = _
      rw [travel_afterEvent]
      exact hnext
    · show (s.afterEvent config next).travel.active ≠ none
      rw [travel_afterEvent]
      exact hnone

theorem Mode.event {event : FlowEvent} {io : Io} (h : Mode config s)
    (hok : s.Survives (.event event io)) (hs : s.act config (.event event io) = some s') :
    Mode config (s.note s') := by
  unfold act at hs
  dsimp only at hs
  obtain ⟨r, hr, rfl⟩ := Option.map_eq_some_iff.mp hs
  unfold Survives at hok
  dsimp only at hok
  cases Travel.event_cases hr with
  | decided race winner hp hw =>
    rw [hp] at hok ⊢
    dsimp only at hok ⊢
    rw [hw] at hok ⊢
    exact h.decided hp hok
  | failed error hresult =>
    have hne : error ≠ .recoveryDeadlineExpired := by
      rintro rfl
      exact handleEvent_ne_expired hresult
    apply Mode.ended
    unfold note
    dsimp only
    split
    · rw [travel_afterRace]
      exact over_fail hne
    · rw [travel_afterEvent]
      exact over_fail hne
  | closed race carrierId hp he =>
    subst he
    rw [hp] at hok ⊢
    dsimp only at hok ⊢
    apply h.continueRace hp
    · exact oldActive_afterEvent race _
    · intro hactive
      show (if s.travel.active = some carrierId then none else s.travel.active) = none
      rw [hactive, ite_self]
    · exact hok
  | handled phase closed hp _ =>
    rcases hp with ⟨race, hp, rfl, -, -⟩ | ⟨hp, rfl⟩
    · rw [hp]
      dsimp only
      by_cases hnone : race.oldActive = none
      · obtain ⟨hactive, hraced, hlost⟩ := h.inRace hp hnone
        rw [afterRace_of_ne (by simp)]
        apply Mode.withoutNext hactive hlost hraced
        · exact .inr ⟨race, rfl, hnone⟩
        · show (if closed = true then none else s.travel.active) = none
          rw [hactive, ite_self]
      · refine .race race ?_ hnone
        show (s.afterRace config race _ _).travel.phase = _
        rw [travel_afterRace]
    · rw [hp]
      dsimp only
      exact Mode.afterEvent (h.inSelect hp) rfl

theorem Mode.step (h : Mode config s) (hok : s.Fair config a)
    (hs : s.step config a = some s') : Mode config s' := by
  obtain ⟨next, hact, rfl⟩ := Option.map_eq_some_iff.mp hs
  cases a with
  | tick now => exact h.tick hok.2 hact
  | finish drained =>
    unfold act at hact
    dsimp only at hact
    obtain ⟨r, hr, rfl⟩ := Option.map_eq_some_iff.mp hact
    exact .ended (finish_over hr).2
  | race raceId opens => exact h.beginRace hact
  | recoveryExpired => exact h.recoveryExpired hact
  | select =>
    unfold act at hact
    dsimp only at hact
    split_ifs at hact
    obtain ⟨r, hr, rfl⟩ := Option.map_eq_some_iff.mp hact
    unfold Travel.select at hr
    split_ifs at hr with hcondition
    rw [← Option.some.inj hr]
    exact .active (.inr rfl) (Option.isSome_iff_ne_none.mp hcondition.2.2)
  | reevaluate =>
    unfold act at hact
    dsimp only at hact
    split_ifs at hact
    obtain ⟨r, hr, rfl⟩ := Option.map_eq_some_iff.mp hact
    unfold Travel.reevaluate at hr
    split_ifs at hr with hphase
    rw [← Option.some.inj hr]
    exact .active (.inl rfl) (h.inSelect hphase)
  | stop =>
    unfold act at hact
    dsimp only at hact
    obtain ⟨r, hr, rfl⟩ := Option.map_eq_some_iff.mp hact
    exact .ended (stop_over hr)
  | opened carrierId homeReceiveOffset => exact h.opened hact
  | openFailed carrierId => exact h.openFailed hok.1 hact
  | deadline => exact h.deadline hok.1 hact
  | event event io => exact h.event hok.1 hact

variable {transfer : TransferState} {now : ℕ}

/-- In every run in which no race loses the Carrier that it began with, and the first race after a
loss comes in time, a flow that is given up was without an active Carrier for the whole timeout and
has tried. -/
theorem justified_of_fair
    (h : (machine config transfer now).ReachableWhere (Fair config) s) : s.Justified config := by
  have hmode : Mode config s := h.invariant (Mode.start transfer now)
    fun _ _ _ _ hmode hok hs => hmode.step hok hs
  exact hmode.justified

/-- The limits of the example configuration. -/
def sampleTransfer : TransferState where
  flowId := 1
  maxUnackedBytes := 1048576

/-- The only Carrier closes after one second, and no Relay can be reached for 91 seconds. -/
theorem justified_of_fair_outage : ∃ s,
    (machine {} sampleTransfer 0).ReachableWhere (Fair {}) s ∧
      s.travel.phase = .failed .recoveryDeadlineExpired ∧ s.Justified {} := by
  have hrun : ((machine {} sampleTransfer 0).execWhere (Fair {})
      [.race 100 [2], .opened 2 0, .event (.carrierFrame 2 (.raceAck 1 100 2)) .done,
        .tick (fromSecs 1), .event (.carrierClosed 2) .done, .race 101 [3], .openFailed 3,
        .tick (fromSecs 92), .recoveryExpired]).map (·.travel.phase) =
      some (.failed .recoveryDeadlineExpired) := by
    decide
  obtain ⟨s, hexec, hphase⟩ := Option.map_eq_some_iff.mp hrun
  have hreach := Machine.reachableWhere_of_execWhere hexec
  exact ⟨s, hreach, hphase, justified_of_fair hreach⟩

/-- The active Carrier wins again after a minute. Two minutes later it closes in the next periodic
race, which ends without a winner, and the flow is given up at once. -/
theorem not_justified_of_reachable : ¬ ∀ s, (machine {} sampleTransfer 0).Reachable s →
    s.Justified {} := by
  intro h
  have hrun : ((machine {} sampleTransfer 0).exec
      [.race 100 [2], .opened 2 0, .event (.carrierFrame 2 (.raceAck 1 100 2)) .done,
        .tick (fromSecs 60), .reevaluate, .race 101 [3],
        .event (.carrierFrame 2 (.raceAck 1 101 2)) .done,
        .tick (fromSecs 180), .reevaluate, .race 102 [4], .event (.carrierClosed 2) .done,
        .openFailed 4, .tick (fromSecs 181), .recoveryExpired]).map
      (fun s => (s.travel.phase, s.now, s.lastActive)) =
      some (.failed .recoveryDeadlineExpired, fromSecs 181, some (fromSecs 180)) := by
    decide
  obtain ⟨s, hexec, hs⟩ := Option.map_eq_some_iff.mp hrun
  simp only [Prod.mk.injEq] at hs
  obtain ⟨hphase, hnow, hlast⟩ := hs
  have hlost := (h s (Machine.reachable_of_exec hexec) hphase).1 _ hlast
  rw [hnow] at hlost
  revert hlost
  decide

end Recovery
end FlowSplice.Flow
