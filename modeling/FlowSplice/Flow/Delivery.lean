import FlowSplice.Flow.Refinement

/-! What reaches the sockets of a flow that keeps its Home instance, and what both ends know
when they return. -/
namespace FlowSplice.Flow

/-- An end that returned had seen both streams finish. -/
structure Sys.Settled (s : Sys) : Prop where
  travel : s.travel.phase = .returned → s.travel.complete = true
  home : s.home.phase = .returned → s.home.complete = true

namespace Travel
variable {t : Travel} {r : Travel × Sends}

theorem Quiet.settled (h : t.Quiet r) (hr : r.1.phase = .returned) : r.1.complete = true := by
  cases h with
  | ended phase hp hc => exact hc hr
  | rephased phase hp => exact absurd hr hp
  | kept => cases hr
  | won => cases hr

theorem event_settled {ev : FlowEvent} {io : Io} (h : t.Ok) (hs : t.event ev io = some r)
    (hr : r.1.phase = .returned) : r.1.complete = true := by
  cases event_cases hs with
  | decided race winner hp hw => exact (endRace_quiet (h.oldActive race hp)).settled hr
  | failed => cases hr
  | closed race c hp he =>
    subst he
    exact (continueRace_quiet (t := t.without c) (h.without_old hp c)).settled hr
  | handled phase closed hp hok => obtain ⟨race, -, rfl, -⟩ | ⟨-, rfl⟩ := hp <;> cases hr

end Travel

namespace Sys
variable {s s' : Sys}

theorem Settled.of_travel (h : s.Settled) (hh : s'.home = s.home)
    (hr : s'.travel.phase = .returned → s'.travel.complete = true) : s'.Settled :=
  ⟨hr, fun hp => hh ▸ h.home (hh ▸ hp)⟩

/-- Home only ever returns from the test at the top of its loop. -/
theorem Settled.of_home (h : s.Settled) (ht : s'.travel = s.travel)
    (hr : s'.home.phase ≠ .returned) : s'.Settled :=
  ⟨fun hp => ht ▸ h.travel (ht ▸ hp), fun hp => absurd hp hr⟩

theorem homeFrame_not_returned {h : Home} {r : Home × List DataFrame} {io : Io} {c : Uuid}
    {f : DataFrame} (hs : h.frame io c f = some r) : r.1.phase ≠ .returned := by
  obtain ⟨hrun, -, hcase⟩ := Home.frame_cases hs
  cases hcase with
  | partly | failed => simp [Home.fail]
  | raceDecided | raceKnown | wrote | known | acked | finAgain | finished | finAcked | rejected =>
    simp [Home.remember, hrun]

theorem Settled.step {a : Action} (hw : s.Wired) (h : s.Settled) (hs : s.step a = some s') :
    s'.Settled := by
  cases a with
  | travelFinish =>
    obtain ⟨r, hr, rfl⟩ := Option.map_eq_some_iff.mp hs
    exact h.of_travel rfl (Travel.finish_quiet hr).2.settled
  | travelRace count =>
    obtain ⟨r, hr, rfl⟩ := Option.map_eq_some_iff.mp hs
    obtain ⟨-, sent, rfl, -⟩ := beginRace_eq hr
    exact h.of_travel rfl (fun hp => by cases hp)
  | travelSelect =>
    obtain ⟨r, hr, rfl⟩ := Option.map_eq_some_iff.mp hs
    exact h.of_travel rfl (Travel.select_quiet hr).2.settled
  | travelReevaluate =>
    obtain ⟨r, hr, rfl⟩ := Option.map_eq_some_iff.mp hs
    exact h.of_travel rfl (Travel.reevaluate_quiet hr).2.settled
  | travelRecoveryExpired =>
    obtain ⟨r, hr, rfl⟩ := Option.map_eq_some_iff.mp hs
    exact h.of_travel rfl (Travel.recoveryExpired_quiet hr).2.settled
  | travelStop =>
    obtain ⟨r, hr, rfl⟩ := Option.map_eq_some_iff.mp hs
    exact h.of_travel rfl (Travel.stop_quiet hr).2.settled
  | travelOpened =>
    obtain ⟨n, m, v, rest, r, -, hr, rfl⟩ := travelOpened_cases hs
    obtain ⟨-, ⟨error, rfl⟩ | ⟨race, send, -, -, -, -, rfl⟩⟩ := Travel.opened_cases hr
    · exact h.of_travel rfl (fun hp => by cases hp)
    · exact h.of_travel rfl (fun hp => by cases hp)
  | travelOpenFailed =>
    obtain ⟨r, hr, rfl⟩ := Option.map_eq_some_iff.mp hs
    exact h.of_travel rfl (hw.travel.openFailed_quiet hr).2.settled
  | travelDeadline =>
    obtain ⟨r, hr, rfl⟩ := Option.map_eq_some_iff.mp hs
    exact h.of_travel rfl (hw.travel.deadline_quiet hr).2.settled
  | travelLocalData | travelLocalEof | travelLocalError =>
    simp only [Sys.step] at hs
    split_ifs at hs
    obtain ⟨r, hr, rfl⟩ := Option.map_eq_some_iff.mp hs
    exact h.of_travel rfl (Travel.event_settled hw.travel hr)
  | travelFrame =>
    obtain ⟨f, rest, r, -, -, hr, rfl⟩ := travelFrame_cases hs
    exact h.of_travel rfl (Travel.event_settled hw.travel hr)
  | travelCarrierClosed =>
    obtain ⟨r, -, -, -, hr, rfl⟩ := travelCarrierClosed_cases hs
    exact h.of_travel rfl (Travel.event_settled hw.travel hr)
  | homeRespawn =>
    obtain ⟨-, -, rfl⟩ := homeRespawn_cases hs
    exact ⟨h.travel, fun hp => by cases hp⟩
  | homeAttach =>
    obtain ⟨r, -, hr, rfl⟩ := homeAttach_cases hs
    refine h.of_home rfl (show r.1.phase ≠ .returned from ?_)
    simp only [Home.attach] at hr
    split_ifs at hr with hg <;> obtain rfl := Option.some.inj hr <;> simp [hg.1, Home.fail]
  | homeTargetData =>
    simp only [Sys.step] at hs
    split_ifs at hs
    obtain ⟨r, hr, rfl⟩ := Option.map_eq_some_iff.mp hs
    refine h.of_home rfl (show r.1.phase ≠ .returned from ?_)
    simp only [Home.targetData] at hr
    split_ifs at hr with hg <;> obtain rfl := Option.some.inj hr <;> simp [hg.1, Home.fail]
  | homeTargetEof =>
    simp only [Sys.step] at hs
    split_ifs at hs
    obtain ⟨r, hr, rfl⟩ := Option.map_eq_some_iff.mp hs
    refine h.of_home rfl (show r.1.phase ≠ .returned from ?_)
    simp only [Home.targetEnd] at hr
    split_ifs at hr with hg
    obtain rfl := Option.some.inj hr
    simp [hg.1]
  | homeFrame =>
    obtain ⟨f, rest, r, -, -, hr, rfl⟩ := homeFrame_cases hs
    exact h.of_home rfl (homeFrame_not_returned hr)
  | homeCarrierClosed =>
    obtain ⟨h', -, -, -, hr, rfl⟩ := homeCarrierClosed_cases hs
    refine ⟨h.travel, fun hp => absurd hp ?_⟩
    simp only [Home.carrierClosed] at hr
    split_ifs at hr with hg <;> obtain rfl := Option.some.inj hr <;> simp [hg.1]
  | homeFinish =>
    obtain ⟨h', hr, rfl⟩ := Option.map_eq_some_iff.mp hs
    refine ⟨h.travel, fun hp => ?_⟩
    simp only [Home.finish] at hr
    split_ifs at hr with hg <;> obtain rfl := Option.some.inj hr
    · exact hg.2
    · cases hp
  | homeStop =>
    obtain ⟨h', hr, rfl⟩ := Option.map_eq_some_iff.mp hs
    refine ⟨h.travel, fun hp => ?_⟩
    simp only [Home.stop] at hr
    split_ifs at hr
    obtain rfl := Option.some.inj hr
    cases hp
  | close =>
    obtain ⟨-, rfl⟩ := close_cases hs
    exact ⟨h.travel, h.home⟩

theorem settled_of_reachable {config : Config} (h : (machine config).Reachable s) : s.Settled :=
  Machine.ReachableWhere.invariant h ⟨fun hp => (by cases hp), fun hp => (by cases hp)⟩
    fun _ _ _ hr hset _ hs => hset.step (wired_of_reachable hr) hs

/-- Only a fresh instance puts the one before it into the past. -/
theorem past_eq_of_step {a : Action} (hs : s.step a = some s') (ha : ∀ c, a ≠ .homeRespawn c) :
    s'.past = s.past := by
  have hmap : ∀ {β : Type} {o : Option β} {g : β → Sys}, o.map g = some s' →
      (∀ x, (g x).past = s.past) → s'.past = s.past := by
    intro β o g h hg
    obtain ⟨x, -, rfl⟩ := Option.map_eq_some_iff.mp h
    exact hg x
  cases a with
  | travelFinish | travelRace | travelSelect | travelReevaluate | travelRecoveryExpired
  | travelStop | travelOpenFailed | travelDeadline | homeFinish | homeStop =>
    exact hmap hs fun _ => rfl
  | travelLocalData | travelLocalEof | travelLocalError | homeTargetData | homeTargetEof =>
    simp only [step] at hs
    split_ifs at hs
    exact hmap hs fun _ => rfl
  | travelOpened =>
    obtain ⟨n, m, v, rest, r, -, -, rfl⟩ := travelOpened_cases hs
    rfl
  | travelFrame =>
    obtain ⟨f, rest, r, -, -, -, rfl⟩ := travelFrame_cases hs
    rfl
  | travelCarrierClosed =>
    obtain ⟨r, -, -, -, -, rfl⟩ := travelCarrierClosed_cases hs
    rfl
  | homeRespawn c => exact absurd rfl (ha c)
  | homeAttach =>
    obtain ⟨r, -, -, rfl⟩ := homeAttach_cases hs
    rfl
  | homeFrame =>
    obtain ⟨f, rest, r, -, -, -, rfl⟩ := homeFrame_cases hs
    rfl
  | homeCarrierClosed =>
    obtain ⟨h, -, -, -, -, rfl⟩ := homeCarrierClosed_cases hs
    rfl
  | close =>
    obtain ⟨-, rfl⟩ := close_cases hs
    rfl

/-- A run that has replaced no Home instance did not do so in its last step either. -/
theorem past_of_step {a : Action} (hs : s.step a = some s') (hp : s'.past = []) :
    s.past = [] ∧ ∀ c, a ≠ .homeRespawn c := by
  have ha : ∀ c, a ≠ .homeRespawn c := by
    rintro c rfl
    obtain ⟨-, -, rfl⟩ := homeRespawn_cases hs
    simp at hp
  exact ⟨(past_eq_of_step hs ha).symm.trans hp, ha⟩

theorem transfer_start (config : Config) :
    Transfer.Inv config.start.upload ∧ Transfer.Inv config.start.download :=
  ⟨.initial (fun _ => rfl) (fun _ => rfl) rfl rfl rfl rfl rfl rfl rfl rfl,
    .initial (fun _ => rfl) (fun _ => rfl) rfl rfl rfl rfl rfl rfl rfl rfl⟩

/-- As long as the first Home instance serves the flow, both directions are sound transfers. -/
theorem transfers_of_reachable {config : Config} (h : (machine config).Reachable s)
    (hp : s.past = []) : Transfer.Inv s.upload ∧ Transfer.Inv s.download := by
  refine Machine.ReachableWhere.invariant
    (P := fun s => s.past = [] → Transfer.Inv s.upload ∧ Transfer.Inv s.download) h
    (fun _ => transfer_start config) (fun t a t' ht hi _ hs hp' => ?_) hp
  have hw := wired_of_reachable ht
  obtain ⟨hpast, ha⟩ := past_of_step hs hp'
  obtain ⟨hup, hdown⟩ := hi hpast
  exact ⟨hup.steps (upload_step hw hs ha), hdown.steps (download_step hw hs ha)⟩

end Sys

variable {config : Config} {s : Sys}

/-- As long as one Home instance serves the flow, what reached either socket is a prefix of what
the other end has read. -/
theorem written_prefix_of_reachable (h : (machine config).Reachable s) (hp : s.past = []) :
    s.home.targetWriter.written <+: s.travel.transfer.localReads.flatten ∧
      s.travel.transfer.localWriter.written <+: s.home.targetReads.flatten := by
  obtain ⟨hup, hdown⟩ := Sys.transfers_of_reachable h hp
  exact ⟨hup.written, hdown.written⟩

/-- Both ends exchange bytes while a second Carrier takes over from the first. -/
def handover : List Action :=
  [.travelRace 1, .homeAttach 1 true, .travelOpened 1, .homeFrame 1 .done, .travelFrame 1 .done,
    .travelLocalData [1, 2], .travelRace 1, .homeAttach 3 true, .homeTargetData [3],
    .travelOpened 3, .homeFrame 1 .done, .homeFrame 3 .done]

theorem written_prefix_handover :
    ∃ s, (machine ⟨7, 1000, 1000⟩).exec handover = some s ∧
      s.home.activeCarrier = some 3 ∧ s.home.targetWriter.written = [1, 2] ∧
      s.home.targetWriter.written <+: s.travel.transfer.localReads.flatten ∧
      s.travel.transfer.localWriter.written <+: s.home.targetReads.flatten := by
  have hrun : ((machine ⟨7, 1000, 1000⟩).exec handover).map
      (fun s => (s.home.activeCarrier, s.home.targetWriter.written, s.past)) =
        some (some 3, [1, 2], []) := by decide
  obtain ⟨s, hs, heq⟩ := Option.map_eq_some_iff.mp hrun
  simp only [Prod.mk.injEq] at heq
  exact ⟨s, hs, heq.1, heq.2.1,
    written_prefix_of_reachable (Machine.reachable_of_exec hs) heq.2.2⟩

/-- An end that returned leaves both streams delivered: read to their end, written in full and
shut down behind the last byte. -/
theorem delivered_of_returned (h : (machine config).Reachable s) (hp : s.past = [])
    (hr : s.travel.phase = .returned ∨ s.home.phase = .returned) :
    (s.travel.transfer.localEof = true ∧
      s.home.targetWriter.written = s.travel.transfer.localReads.flatten ∧
      s.home.targetWriter.shutdownAt = some s.travel.transfer.localReads.flatten.length) ∧
    s.home.targetEof = true ∧
      s.travel.transfer.localWriter.written = s.home.targetReads.flatten ∧
      s.travel.transfer.localWriter.shutdownAt = some s.home.targetReads.flatten.length := by
  obtain ⟨hup, hdown⟩ := Sys.transfers_of_reachable h hp
  have hw := Sys.wired_of_reachable h
  have hset := Sys.settled_of_reachable h
  have hclosed : s.upload.closedAt.isSome ∧ s.download.closedAt.isSome := by
    rcases hr with hr | hr
    · have hc := hset.travel hr
      simp only [Travel.complete, Bool.and_eq_true] at hc
      exact ⟨hup.finAcked hc.1.2, hw.travel.transfer.remoteEof ▸ hc.1.1.2⟩
    · have hc := hset.home hr
      simp only [Home.complete, Bool.and_eq_true] at hc
      exact ⟨hw.home.travelEof ▸ hc.1.1.1, hdown.finAcked hc.1.2⟩
  obtain ⟨⟨n, hn⟩, m, hm⟩ := hclosed.imp Option.isSome_iff_exists.mp Option.isSome_iff_exists.mp
  obtain ⟨heof, rfl, hwritten, -⟩ := hup.closed n hn
  obtain ⟨heof', rfl, hwritten', -⟩ := hdown.closed m hm
  exact ⟨⟨heof, hwritten, hn⟩, heof', hwritten', hm⟩

/-- Both streams end, both ends acknowledge, Travel returns. -/
def exchange : List Action :=
  [.travelRace 1, .homeAttach 1 true, .travelOpened 1, .homeFrame 1 .done, .travelFrame 1 .done,
    .travelLocalData [1, 2], .travelSelect, .homeTargetData [3], .homeFrame 1 .done,
    .travelLocalEof, .travelSelect, .travelFrame 1 .done, .travelSelect, .travelFrame 1 .done,
    .homeTargetEof, .homeFrame 1 .done, .homeFrame 1 .done, .travelSelect, .travelFrame 1 .done,
    .travelSelect, .travelFrame 1 .done, .homeFrame 1 .done, .travelFinish true]

theorem delivered_exchange :
    ∃ s, (machine ⟨7, 1000, 1000⟩).exec exchange = some s ∧ s.travel.phase = .returned ∧
      s.home.targetWriter.written = [1, 2] ∧
      (s.travel.transfer.localEof = true ∧
        s.home.targetWriter.written = s.travel.transfer.localReads.flatten ∧
        s.home.targetWriter.shutdownAt = some s.travel.transfer.localReads.flatten.length) ∧
      s.home.targetEof = true ∧
        s.travel.transfer.localWriter.written = s.home.targetReads.flatten ∧
        s.travel.transfer.localWriter.shutdownAt = some s.home.targetReads.flatten.length := by
  have hrun : ((machine ⟨7, 1000, 1000⟩).exec exchange).map
      (fun s => (s.travel.phase, s.home.targetWriter.written, s.past)) =
        some (.returned, [1, 2], []) := by decide
  obtain ⟨s, hs, heq⟩ := Option.map_eq_some_iff.mp hrun
  simp only [Prod.mk.injEq] at heq
  exact ⟨s, hs, heq.1, heq.2.1,
    delivered_of_returned (Machine.reachable_of_exec hs) heq.2.2 (.inl heq.1)⟩

end FlowSplice.Flow
