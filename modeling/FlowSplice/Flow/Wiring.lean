import FlowSplice.Flow.Cases

/-! Facts about the two ends and their Carriers that hold in every state of every run. -/
namespace FlowSplice.Flow

/-- What the transfer state of Travel keeps by itself. -/
structure TransferState.Ok (transfer : TransferState) : Prop where
  counts : transfer.send.Counts transfer.localReads
  remoteEof : transfer.remoteEof = transfer.localWriter.shutdownAt.isSome

theorem WriteHalf.shutdown_isSome (w : WriteHalf) : w.shutdown.shutdownAt.isSome = true := by
  cases hs : w.shutdownAt <;> simp [shutdown, hs]

theorem FrameCase.transfer_ok {io : Io} {transfer : TransferState} {carriers : List Uuid}
    {active : Option Uuid} {c : Uuid} {f : DataFrame} {handled : Handled}
    (hf : FrameCase io transfer carriers active c f handled) (h : transfer.Ok) :
    handled.transfer.Ok := by
  cases hf with
  | acked n send _ _ ha =>
    obtain ⟨hs, -, -⟩ := SendQueue.acknowledge_eq_some ha
    exact ⟨hs.trans h.counts, h.remoteEof⟩
  | finished _ => exact ⟨h.counts, (WriteHalf.shutdown_isSome _).symm⟩
  | wrote | partly | known | finAgain | finAcked | raceAnswer | rejected =>
    exact ⟨h.counts, h.remoteEof⟩

theorem FrameCase.carriers_eq {io : Io} {transfer : TransferState} {carriers : List Uuid}
    {active : Option Uuid} {c : Uuid} {f : DataFrame} {handled : Handled}
    (hf : FrameCase io transfer carriers active c f handled) : handled.carriers = carriers := by
  cases hf <;> rfl

theorem FrameCase.result_ne {io : Io} {transfer : TransferState} {carriers : List Uuid}
    {active : Option Uuid} {c : Uuid} {f : DataFrame} {handled : Handled}
    (hf : FrameCase io transfer carriers active c f handled) : handled.result ≠ .ok true := by
  cases hf <;> simp

theorem handleEvent_ok {ev : FlowEvent} {io : Io} {transfer : TransferState}
    {carriers : List Uuid} {active : Option Uuid} (h : transfer.Ok) :
    (handleEvent ev io transfer carriers active).transfer.Ok := by
  cases ev with
  | localData bytes =>
    simp only [handleEvent]
    split_ifs
    · exact h
    · exact ⟨h.counts.push bytes, h.remoteEof⟩
  | localEof => exact ⟨h.counts, h.remoteEof⟩
  | localError | carrierClosed => exact h
  | carrierFrame c f => exact (handleFrame_cases io transfer carriers active c f).transfer_ok h

theorem handleEvent_carriers {ev : FlowEvent} (io : Io) (transfer : TransferState)
    (carriers : List Uuid) (active : Option Uuid) (hne : ∀ c, ev ≠ .carrierClosed c) :
    (handleEvent ev io transfer carriers active).carriers = carriers ∧
      (handleEvent ev io transfer carriers active).result ≠ .ok true := by
  cases ev with
  | localData bytes =>
    simp only [handleEvent]
    split_ifs <;> simp
  | localEof | localError => simp [handleEvent]
  | carrierFrame c f =>
    have hf := handleFrame_cases io transfer carriers active c f
    exact ⟨hf.carriers_eq, hf.result_ne⟩
  | carrierClosed c => exact absurd rfl (hne c)

/-- What Travel keeps by itself. A race that ends without a winner finds the Carrier it started
from in the map only if that Carrier is still active. -/
structure Travel.Ok (t : Travel) : Prop where
  transfer : t.transfer.Ok
  active : ∀ c, t.active = some c → c ∈ t.carriers
  oldActive : ∀ race, t.phase = .racing race → ∀ c, race.oldActive = some c → c ∈ t.carriers →
    c ∉ race.candidateIds → t.active = some c

namespace Travel
variable {t t' : Travel} {r : Travel × Sends}

theorem Ok.ended (h : t.transfer.Ok) (phase : TravelPhase) (hp : ∀ race, phase ≠ .racing race) :
    Ok { t with carriers := [], active := none, phase := phase } :=
  ⟨h, fun _ hc => (by cases hc), fun race hr => absurd hr (hp race)⟩

theorem Ok.fail (h : t.transfer.Ok) (error : TravelError) : (t.fail error).1.Ok :=
  .ended h _ (by simp)

theorem Ok.finish {drained : Bool} (h : t.Ok) (hs : t.finish drained = some r) : r.1.Ok := by
  simp only [Travel.finish] at hs
  split_ifs at hs <;> obtain rfl := Option.some.inj hs
  · exact .ended h.transfer _ (by simp)
  · exact .fail h.transfer _

theorem Ok.beginRace {raceId : Uuid} {opens : List Uuid} (h : t.Ok)
    (hs : t.beginRace raceId opens = some r) : r.1.Ok := by
  simp only [Travel.beginRace] at hs
  split_ifs at hs
  obtain rfl := Option.some.inj hs
  refine ⟨h.transfer, h.active, fun race hr c ho _ _ => ?_⟩
  obtain rfl := TravelPhase.racing.inj hr
  exact ho

theorem Ok.stop (h : t.Ok) (hs : t.stop = some r) : r.1.Ok := by
  simp only [Travel.stop] at hs
  split_ifs at hs
  obtain rfl := Option.some.inj hs
  exact .fail h.transfer _

theorem Ok.recoveryExpired (h : t.Ok) (hs : t.recoveryExpired = some r) : r.1.Ok := by
  simp only [Travel.recoveryExpired] at hs
  split_ifs at hs
  obtain rfl := Option.some.inj hs
  exact .fail h.transfer _

theorem Ok.select (h : t.Ok) (hs : t.select = some r) : r.1.Ok := by
  simp only [Travel.select] at hs
  split_ifs at hs
  obtain rfl := Option.some.inj hs
  exact ⟨h.transfer, h.active, fun race hr => by cases hr⟩

theorem Ok.reevaluate (h : t.Ok) (hs : t.reevaluate = some r) : r.1.Ok := by
  simp only [Travel.reevaluate] at hs
  split_ifs at hs
  obtain rfl := Option.some.inj hs
  exact ⟨h.transfer, h.active, fun race hr => by cases hr⟩

theorem Ok.endRace (h : t.transfer.Ok) (race : Race) (winner : Option Uuid) :
    (t.endRace race winner).1.Ok := by
  cases winner with
  | some winner =>
    simp only [Travel.endRace]
    split_ifs
    · exact ⟨h, fun c hc => by simp_all, fun race hr => by cases hr⟩
    · exact .ended h _ (by simp)
  | none =>
    simp only [Travel.endRace]
    split_ifs with hany
    · refine ⟨h, fun d hd => ?_, fun race hr => by cases hr⟩
      have hd : race.oldActive = some d := hd
      simpa [hd] using hany
    · exact .ended h _ (by simp)

theorem Ok.continueRace (race : Race) (h : t.transfer.Ok)
    (hactive : ∀ c, t.active = some c → c ∈ t.carriers)
    (hold : ∀ c, race.oldActive = some c → c ∈ t.carriers → c ∉ race.candidateIds →
      t.active = some c) : (t.continueRace race).1.Ok := by
  simp only [Travel.continueRace]
  split_ifs
  · exact .endRace h race none
  · refine ⟨h, hactive, fun race' hr => ?_⟩
    obtain rfl := TravelPhase.racing.inj hr
    exact hold

theorem Ok.deadline (h : t.Ok) (hs : t.deadline = some r) : r.1.Ok := by
  simp only [Travel.deadline] at hs
  split at hs
  · obtain rfl := Option.some.inj hs
    exact .endRace h.transfer _ none
  · cases hs

theorem Ok.openFailed {c : Uuid} (h : t.Ok) (hs : t.openFailed c = some r) : r.1.Ok := by
  simp only [Travel.openFailed] at hs
  split at hs
  next race hp =>
    split_ifs at hs
    obtain rfl := Option.some.inj hs
    exact .continueRace _ h.transfer h.active (h.oldActive race hp)
  next => cases hs

theorem Ok.opened {c n : ℕ} (h : t.Ok) (hs : t.opened c n = some r) : r.1.Ok := by
  simp only [Travel.opened] at hs
  split at hs
  next race hp =>
    split_ifs at hs
    · obtain rfl := Option.some.inj hs
      exact .fail h.transfer _
    · obtain rfl := Option.some.inj hs
      exact .fail h.transfer _
    · split at hs
      next =>
        obtain rfl := Option.some.inj hs
        exact .fail h.transfer _
      next send ha =>
        obtain rfl := Option.some.inj hs
        obtain ⟨hsent, -, -⟩ := SendQueue.acknowledge_eq_some ha
        refine ⟨⟨hsent.trans h.transfer.counts, h.transfer.remoteEof⟩,
          fun d hd => List.mem_cons_of_mem _ (h.active d hd), fun race' hr d ho hd hn => ?_⟩
        obtain rfl := TravelPhase.racing.inj hr
        simp only [List.mem_cons, not_or] at hd hn
        exact h.oldActive race hp d ho (hd.resolve_left hn.1) hn.2
  next => cases hs

/-- What is left of Travel, inside a race, once a Carrier closed. -/
def without (t : Travel) (c : Uuid) : Travel :=
  { t with
    carriers := t.carriers.filter (· ≠ c)
    active := if t.active = some c then none else t.active }

theorem Ok.without_active (h : t.Ok) (c d : Uuid) (hd : (t.without c).active = some d) :
    d ∈ (t.without c).carriers := by
  simp only [without] at hd
  split_ifs at hd with hc
  refine List.mem_filter.mpr ⟨h.active d hd, ?_⟩
  simp only [decide_eq_true_eq]
  rintro rfl
  exact hc hd

theorem Ok.without_old (h : t.Ok) {race : Race} (hp : t.phase = .racing race) (c d : Uuid)
    (ho : (Race.afterEvent race (.carrierClosed c)).oldActive = some d)
    (hd : d ∈ (t.without c).carriers)
    (hn : d ∉ (Race.afterEvent race (.carrierClosed c)).candidateIds) :
    (t.without c).active = some d := by
  obtain ⟨hd, hne⟩ := List.mem_filter.mp hd
  have hne : d ≠ c := by simpa using hne
  have hact : t.active = some d :=
    h.oldActive race hp d ho hd fun hm => hn (List.mem_filter.mpr ⟨hm, by simpa using hne⟩)
  simp [without, hact, hne]

theorem Ok.event {ev : FlowEvent} {io : Io} (h : t.Ok) (hs : t.event ev io = some r) :
    r.1.Ok := by
  cases event_cases hs with
  | decided race winner hp hw => exact .endRace h.transfer race _
  | failed error hr => exact .fail (handleEvent_ok h.transfer) _
  | closed race c hp he =>
    subst he
    exact .continueRace (t := t.without c) _ h.transfer (h.without_active c) (h.without_old hp c)
  | handled phase closed hp hr =>
    have hother : (∀ c, ev ≠ .carrierClosed c) →
        (handleEvent ev io t.transfer t.carriers t.active).carriers = t.carriers ∧
          closed = false := by
      intro hne
      obtain ⟨hcarriers, hclosed⟩ := handleEvent_carriers io t.transfer t.carriers t.active hne
      exact ⟨hcarriers, by cases closed with | false => rfl | true => exact absurd hr hclosed⟩
    refine ⟨handleEvent_ok h.transfer, fun d hd => ?_, fun race' hr' d ho hd hn => ?_⟩
    · by_cases hev : ∃ c, ev = .carrierClosed c
      · obtain ⟨c, rfl⟩ := hev
        simp only [handleEvent, Except.ok.injEq] at hr
        subst hr
        simp only [beq_iff_eq] at hd
        split_ifs at hd with hc
        refine List.mem_filter.mpr ⟨h.active d hd, ?_⟩
        simp only [decide_eq_true_eq]
        rintro rfl
        exact hc hd
      · obtain ⟨hcarriers, rfl⟩ := hother fun c hc => hev ⟨c, hc⟩
        rw [hcarriers]
        exact h.active d hd
    · obtain ⟨race, hp, rfl, hne, -⟩ | ⟨-, rfl⟩ := hp
      · obtain rfl := TravelPhase.racing.inj hr'
        obtain ⟨hcarriers, rfl⟩ := hother hne
        exact h.oldActive race hp d ho (hcarriers ▸ hd) hn
      · cases hr'

/-- The moves of `run_inner` that leave the transfer state alone and add no Carrier. -/
inductive Quiet (t : Travel) : Travel × Sends → Prop where
  | ended (phase : TravelPhase) (hp : ∀ race, phase ≠ .racing race)
      (hc : phase = .returned → t.complete = true) :
      Quiet t ({ t with carriers := [], active := none, phase := phase }, [])
  | rephased (phase : TravelPhase) (hp : phase ≠ .returned) (hf : ∀ error, phase ≠ .failed error) :
      Quiet t ({ t with phase := phase }, [])
  | kept (p : Uuid → Bool) (c : Uuid) (hc : t.active = some c) (hp : p c = true) :
      Quiet t ({ t with carriers := t.carriers.filter p, phase := .selecting }, [])
  | won (winner : Uuid) (hw : winner ∈ t.carriers) :
      Quiet t ({ t with carriers := [winner], active := some winner, phase := .selecting },
        sendTo t.carriers winner
          (t.transfer.send.retransmit t.transfer.flowId t.transfer.localEof))

theorem Quiet.fail (t : Travel) (error : TravelError) : t.Quiet (t.fail error) :=
  .ended _ (by simp) (by simp)

theorem Quiet.carriers_subset (h : t.Quiet r) : r.1.carriers ⊆ t.carriers := by
  cases h with
  | ended => exact List.nil_subset _
  | rephased => exact List.Subset.refl _
  | kept p => exact List.filter_sublist.subset
  | won winner hw => simpa using hw

theorem endRace_quiet {race : Race} {winner : Option Uuid}
    (hold : ∀ c, race.oldActive = some c → c ∈ t.carriers → c ∉ race.candidateIds →
      t.active = some c) : t.Quiet (t.endRace race winner) := by
  cases winner with
  | some winner =>
    simp only [Travel.endRace]
    split_ifs with hw
    · exact .won winner hw
    · exact .ended _ (by simp) (by simp)
  | none =>
    simp only [Travel.endRace]
    split_ifs with hany
    · obtain ⟨c, ho⟩ : ∃ c, race.oldActive = some c := by
        cases ho : race.oldActive with
        | none => simp [ho] at hany
        | some c => exact ⟨c, rfl⟩
      have hc : c ∈ t.carriers ∧ c ∉ race.candidateIds := by simpa [ho] using hany
      have hact := hold c ho hc.1 hc.2
      rw [ho, ← hact]
      exact .kept _ c hact (by simpa using hc.2)
    · exact .ended _ (by simp) (by simp)

theorem continueRace_quiet {race : Race}
    (hold : ∀ c, race.oldActive = some c → c ∈ t.carriers → c ∉ race.candidateIds →
      t.active = some c) : t.Quiet (t.continueRace race) := by
  unfold continueRace
  split_ifs
  · exact endRace_quiet hold
  · exact .rephased _ (by simp) (by simp)

theorem finish_quiet {drained : Bool} (hs : t.finish drained = some r) :
    t.running = true ∧ t.Quiet r := by
  simp only [finish] at hs
  split_ifs at hs with hg <;> obtain rfl := Option.some.inj hs
  · exact ⟨by simp [running, hg.1], .ended _ (by simp) fun _ => hg.2⟩
  · exact ⟨by simp [running, hg.1], .fail t _⟩

theorem stop_quiet (hs : t.stop = some r) : t.running = true ∧ t.Quiet r := by
  simp only [stop] at hs
  split_ifs at hs with hg
  obtain rfl := Option.some.inj hs
  exact ⟨hg, .fail t _⟩

theorem recoveryExpired_quiet (hs : t.recoveryExpired = some r) :
    t.running = true ∧ t.Quiet r := by
  simp only [recoveryExpired] at hs
  split_ifs at hs with hg
  obtain rfl := Option.some.inj hs
  exact ⟨by simp [running, hg.1], .fail t _⟩

theorem select_quiet (hs : t.select = some r) : t.running = true ∧ t.Quiet r := by
  simp only [select] at hs
  split_ifs at hs with hg
  obtain rfl := Option.some.inj hs
  exact ⟨by simp [running, hg.1], .rephased _ (by simp) (by simp)⟩

theorem reevaluate_quiet (hs : t.reevaluate = some r) : t.running = true ∧ t.Quiet r := by
  simp only [reevaluate] at hs
  split_ifs at hs with hg
  obtain rfl := Option.some.inj hs
  exact ⟨by simp [running, hg], .rephased _ (by simp) (by simp)⟩

theorem Ok.deadline_quiet (h : t.Ok) (hs : t.deadline = some r) :
    t.running = true ∧ t.Quiet r := by
  simp only [Travel.deadline] at hs
  split at hs
  next race hp =>
    obtain rfl := Option.some.inj hs
    exact ⟨by simp [running, hp], endRace_quiet (h.oldActive race hp)⟩
  next => cases hs

theorem Ok.openFailed_quiet {c : Uuid} (h : t.Ok) (hs : t.openFailed c = some r) :
    t.running = true ∧ t.Quiet r := by
  simp only [Travel.openFailed] at hs
  split at hs
  next race hp =>
    split_ifs at hs
    obtain rfl := Option.some.inj hs
    exact ⟨by simp [running, hp], continueRace_quiet (h.oldActive race hp)⟩
  next => cases hs

/-- An OPEN_OK either ends the flow or makes its Carrier a candidate of the race. -/
theorem opened_cases {c n : ℕ} (hs : t.opened c n = some r) :
    t.running = true ∧ ((∃ error, r = t.fail error) ∨
      ∃ race send, t.phase = .racing race ∧ c ∈ race.opens ∧ t.transfer.send.sendAcked ≤ n ∧
        t.transfer.send.acknowledge n = some send ∧
        r = ({ t with
            transfer := { t.transfer with send := send }
            carriers := c :: t.carriers
            phase := .racing { race with
              opens := race.opens.filter (· ≠ c), candidateIds := c :: race.candidateIds } },
          [(c, .race t.transfer.flowId race.raceId send.sendAcked)])) := by
  simp only [Travel.opened] at hs
  split at hs
  next race hp =>
    refine ⟨by simp [running, hp], ?_⟩
    split_ifs at hs with hc h1 h2
    · exact .inl ⟨_, (Option.some.inj hs).symm⟩
    · exact .inl ⟨_, (Option.some.inj hs).symm⟩
    · split at hs
      next => exact .inl ⟨_, (Option.some.inj hs).symm⟩
      next send ha =>
        exact .inr ⟨race, send, hp, hc, by omega, ha, (Option.some.inj hs).symm⟩
  next => cases hs

theorem event_running {ev : FlowEvent} {io : Io} (hs : t.event ev io = some r) :
    t.running = true := by
  unfold event at hs
  split at hs
  next race hp => simp [running, hp]
  next hp => simp [running, hp]
  next => cases hs

theorem event_carriers_subset {ev : FlowEvent} {io : Io} (h : t.Ok)
    (hs : t.event ev io = some r) : r.1.carriers ⊆ t.carriers := by
  have hhandled : (handleEvent ev io t.transfer t.carriers t.active).carriers ⊆ t.carriers := by
    by_cases hev : ∃ c, ev = .carrierClosed c
    · obtain ⟨c, rfl⟩ := hev
      exact List.filter_sublist.subset
    · rw [(handleEvent_carriers io t.transfer t.carriers t.active fun c hc => hev ⟨c, hc⟩).1]
      exact List.Subset.refl _
  cases event_cases hs with
  | decided race winner hp hw => exact (endRace_quiet (h.oldActive race hp)).carriers_subset
  | failed => exact List.nil_subset _
  | closed race c hp he =>
    subst he
    have hq := continueRace_quiet (t := t.without c) (h.without_old hp c)
    exact List.Subset.trans hq.carriers_subset List.filter_sublist.subset
  | handled => exact hhandled

end Travel

/-- What Home keeps by itself. -/
structure Home.Ok (h : Home) : Prop where
  counts : h.send.Counts h.targetReads
  travelEof : h.travelEof = h.targetWriter.shutdownAt.isSome
  active : ∀ c, h.activeCarrier = some c → c ∈ h.carriers

namespace Home
variable {h : Home}

theorem Ok.fail (hc : h.send.Counts h.targetReads)
    (he : h.travelEof = h.targetWriter.shutdownAt.isSome) (error : HomeError) :
    (h.fail error).1.Ok :=
  ⟨hc, he, fun _ hc => by cases hc⟩

theorem Ok.finish {h' : Home} {drained : Bool} (hk : h.Ok) (hs : h.finish drained = some h') :
    h'.Ok := by
  simp only [Home.finish] at hs
  split_ifs at hs <;> obtain rfl := Option.some.inj hs
  · exact ⟨hk.counts, hk.travelEof, fun _ hc => by cases hc⟩
  · exact .fail hk.counts hk.travelEof _

theorem Ok.stop {h' : Home} {reason : String} (hk : h.Ok) (hs : h.stop reason = some h') :
    h'.Ok := by
  simp only [Home.stop] at hs
  split_ifs at hs
  obtain rfl := Option.some.inj hs
  exact .fail hk.counts hk.travelEof _

theorem Ok.attach {r : Home × List DataFrame} {c : Uuid} {written : Bool} (hk : h.Ok)
    (hs : h.attach c written = some r) : r.1.Ok := by
  simp only [Home.attach] at hs
  split_ifs at hs <;> obtain rfl := Option.some.inj hs
  · exact hk
  · exact ⟨hk.counts, hk.travelEof, fun d hd => List.mem_cons_of_mem _ (hk.active d hd)⟩
  · exact .fail hk.counts hk.travelEof _

theorem Ok.carrierClosed {h' : Home} {c : Uuid} (hk : h.Ok) (hs : h.carrierClosed c = some h') :
    h'.Ok := by
  simp only [Home.carrierClosed] at hs
  split_ifs at hs <;> obtain rfl := Option.some.inj hs
  · exact ⟨hk.counts, hk.travelEof, fun _ hd => by cases hd⟩
  · rename_i hne
    refine ⟨hk.counts, hk.travelEof, fun d hd => List.mem_filter.mpr ⟨hk.active d hd, ?_⟩⟩
    simp only [decide_eq_true_eq]
    rintro rfl
    exact hne hd

theorem Ok.targetData {r : Home × List DataFrame} {bytes : Bytes} (hk : h.Ok)
    (hs : h.targetData bytes = some r) : r.1.Ok := by
  simp only [Home.targetData] at hs
  split_ifs at hs <;> obtain rfl := Option.some.inj hs
  · exact .fail hk.counts hk.travelEof _
  · exact ⟨hk.counts.push bytes, hk.travelEof, hk.active⟩

theorem Ok.targetEnd {r : Home × List DataFrame} (hk : h.Ok) (hs : h.targetEnd = some r) :
    r.1.Ok := by
  simp only [Home.targetEnd] at hs
  split_ifs at hs
  obtain rfl := Option.some.inj hs
  exact ⟨hk.counts, hk.travelEof, hk.active⟩

theorem Ok.frame {r : Home × List DataFrame} {io : Io} {c : Uuid} {f : DataFrame} (hk : h.Ok)
    (hc : c ∈ h.carriers) (hs : h.frame io c f = some r) : r.1.Ok := by
  obtain ⟨-, -, hcase⟩ := frame_cases hs
  cases hcase with
  | raceDecided raceId n hf hw =>
    refine ⟨hk.counts, hk.travelEof, fun d hd => ?_⟩
    obtain rfl := Option.some.inj hd
    exact hc
  | acked n send hf hn ha =>
    obtain ⟨hsent, -, -⟩ := SendQueue.acknowledge_eq_some ha
    exact ⟨hsent.trans hk.counts, hk.travelEof, hk.active⟩
  | finished hf => exact ⟨hk.counts, (WriteHalf.shutdown_isSome _).symm, hk.active⟩
  | partly => exact ⟨hk.counts, hk.travelEof, fun _ hd => by cases hd⟩
  | failed error => exact .fail hk.counts hk.travelEof _
  | wrote | raceKnown | known | finAgain | finAcked | rejected =>
    exact ⟨hk.counts, hk.travelEof, hk.active⟩

/-- A frame leaves the map of Carriers alone, unless it ends the flow. -/
theorem frame_carriers_subset {r : Home × List DataFrame} {io : Io} {c : Uuid} {f : DataFrame}
    (hs : h.frame io c f = some r) : r.1.carriers ⊆ h.carriers := by
  obtain ⟨-, -, hcase⟩ := frame_cases hs
  cases hcase with
  | partly | failed => exact List.nil_subset _
  | raceDecided | raceKnown | wrote | known | acked | finAgain | finished | finAcked | rejected =>
    exact List.Subset.refl _

end Home

namespace Link

variable (l : Link) (frames : List DataFrame)

@[simp] theorem pushHome_up : (l.pushHome frames).up = l.up := by
  unfold pushHome; split_ifs <;> rfl

@[simp] theorem pushHome_offered : (l.pushHome frames).offered = l.offered := by
  unfold pushHome; split_ifs <;> rfl

@[simp] theorem pushHome_spawned : (l.pushHome frames).spawned = l.spawned := by
  unfold pushHome; split_ifs <;> rfl

@[simp] theorem pushHome_toTravel : (l.pushHome frames).toTravel = l.toTravel := by
  unfold pushHome; split_ifs <;> rfl

theorem pushHome_toHome :
    (l.pushHome frames).toHome = l.toHome ++ if l.up then frames else [] := by
  unfold pushHome; split_ifs <;> simp

@[simp] theorem pushHome_nil : l.pushHome [] = l := by simp [pushHome]

@[simp] theorem pushTravel_up : (l.pushTravel frames).up = l.up := by
  unfold pushTravel; split_ifs <;> rfl

@[simp] theorem pushTravel_offered : (l.pushTravel frames).offered = l.offered := by
  unfold pushTravel; split_ifs <;> rfl

@[simp] theorem pushTravel_spawned : (l.pushTravel frames).spawned = l.spawned := by
  unfold pushTravel; split_ifs <;> rfl

@[simp] theorem pushTravel_toHome : (l.pushTravel frames).toHome = l.toHome := by
  unfold pushTravel; split_ifs <;> rfl

theorem pushTravel_toTravel :
    (l.pushTravel frames).toTravel = l.toTravel ++ if l.up then frames else [] := by
  unfold pushTravel; split_ifs <;> simp

@[simp] theorem pushTravel_nil : l.pushTravel [] = l := by simp [pushTravel]

theorem pushHome_default (frames : List DataFrame) : Link.pushHome {} frames = {} := rfl

theorem pushTravel_default (frames : List DataFrame) : Link.pushTravel {} frames = {} := rfl

end Link

/-- Both ends are sound, and what has not been drawn as an id is not in use. -/
structure Sys.Wired (s : Sys) : Prop where
  travel : s.travel.Ok
  home : s.home.Ok
  fresh : ∀ c, s.fresh ≤ c →
    s.links c = {} ∧ c ∉ s.travel.carriers ∧ c ∉ s.home.carriers

namespace Sys
variable {s s' : Sys}

theorem Wired.withTravel (h : s.Wired) {r : Travel × Sends} (hr : r.1.Ok)
    (hsub : r.1.carriers ⊆ s.travel.carriers) : (s.withTravel r).Wired := by
  refine ⟨hr, h.home, fun c hc => ?_⟩
  obtain ⟨hl, ht, hh⟩ := h.fresh c hc
  exact ⟨by simp only [Sys.withTravel, hl, Link.pushHome_default], fun hm => ht (hsub hm), hh⟩

theorem Wired.withHome (h : s.Wired) {r : Home × List DataFrame} {oc : Option Uuid}
    (hr : r.1.Ok) (hsub : r.1.carriers ⊆ s.home.carriers) : (s.withHome oc r).Wired := by
  refine ⟨h.travel, hr, fun c hc => ?_⟩
  obtain ⟨hl, ht, hh⟩ := h.fresh c hc
  refine ⟨?_, ht, fun hm => hh (hsub hm)⟩
  simp only [Sys.withHome, hl, Link.pushTravel_default, ite_self]

theorem Wired.setLink (h : s.Wired) {c : Uuid} (hc : s.links c ≠ {}) (l : Link) :
    (s.setLink c l).Wired := by
  refine ⟨h.travel, h.home, fun d hd => ?_⟩
  obtain ⟨hl, ht, hh⟩ := h.fresh d hd
  refine ⟨?_, ht, hh⟩
  have hne : d ≠ c := by
    rintro rfl
    exact hc hl
  simpa [Sys.setLink, Function.update_of_ne hne] using hl

/-- A frame of Travel is taken off its Carrier before Travel sees it. -/
theorem travelFrame_cases {c : Uuid} {io : Io} (hs : s.travelFrame c io = some s') :
    ∃ f rest r, (s.links c).spawned = true ∧ (s.links c).toTravel = f :: rest ∧
      s.travel.event (.carrierFrame c f) io = some r ∧
      s' = (s.setLink c { s.links c with toTravel := rest }).withTravel r := by
  simp only [Sys.travelFrame] at hs
  split at hs
  next f rest hsp hq =>
    obtain ⟨r, hr, rfl⟩ := Option.map_eq_some_iff.mp hs
    exact ⟨f, rest, r, hsp, hq, hr, rfl⟩
  next => cases hs

theorem travelOpened_cases {c : Uuid} (hs : s.travelOpened c = some s') :
    ∃ n m v rest r,
      (s.links c).toTravel = .openOk s.travel.transfer.flowId c n m v :: rest ∧
      s.travel.opened c n = some r ∧
      s' = (s.setLink c { s.links c with toTravel := rest, spawned := true }).withTravel r := by
  simp only [Sys.travelOpened] at hs
  split at hs
  next flowId id n m v rest hq =>
    split_ifs at hs with hg
    obtain ⟨rfl, rfl⟩ := hg
    obtain ⟨r, hr, rfl⟩ := Option.map_eq_some_iff.mp hs
    exact ⟨n, m, v, rest, r, hq, hr, rfl⟩
  next => cases hs

theorem travelCarrierClosed_cases {c : Uuid} (hs : s.travelCarrierClosed c = some s') :
    ∃ r, (s.links c).spawned = true ∧ (s.links c).up = false ∧ (s.links c).toTravel = [] ∧
      s.travel.event (.carrierClosed c) .done = some r ∧
      s' = (s.setLink c { s.links c with spawned := false }).withTravel r := by
  simp only [Sys.travelCarrierClosed] at hs
  split_ifs at hs with hg
  obtain ⟨r, hr, rfl⟩ := Option.map_eq_some_iff.mp hs
  exact ⟨r, hg.1, by simpa using hg.2.1, hg.2.2, hr, rfl⟩

theorem homeRespawn_cases {c : Uuid} (hs : s.homeRespawn c = some s') :
    (s.links c).offered = true ∧ s.home.phase ≠ .running ∧
      s' = { s with
        past := s.past ++ [s.home]
        home := { flowId := s.home.flowId, maxUnackedBytes := s.home.maxUnackedBytes } } := by
  simp only [Sys.homeRespawn] at hs
  split_ifs at hs with hg
  exact ⟨hg.1, hg.2, (Option.some.inj hs).symm⟩

theorem homeAttach_cases {c : Uuid} {written : Bool} (hs : s.homeAttach c written = some s') :
    ∃ r, (s.links c).offered = true ∧ s.home.attach c written = some r ∧
      s' = (s.setLink c { s.links c with offered := false }).withHome (some c) r := by
  simp only [Sys.homeAttach] at hs
  split_ifs at hs with hg
  obtain ⟨r, hr, rfl⟩ := Option.map_eq_some_iff.mp hs
  exact ⟨r, hg, hr, rfl⟩

theorem homeFrame_cases {c : Uuid} {io : Io} (hs : s.homeFrame c io = some s') :
    ∃ f rest r, (s.links c).toHome = f :: rest ∧ c ∈ s.home.carriers ∧
      s.home.frame io c f = some r ∧
      s' = (s.setLink c { s.links c with toHome := rest }).withHome (some c) r := by
  simp only [Sys.homeFrame] at hs
  split at hs
  next f rest hq =>
    split_ifs at hs with hg
    obtain ⟨r, hr, rfl⟩ := Option.map_eq_some_iff.mp hs
    exact ⟨f, rest, r, hq, hg, hr, rfl⟩
  next => cases hs

theorem homeCarrierClosed_cases {c : Uuid} (hs : s.homeCarrierClosed c = some s') :
    ∃ h, c ∈ s.home.carriers ∧ (s.links c).up = false ∧ (s.links c).toHome = [] ∧
      s.home.carrierClosed c = some h ∧ s' = { s with home := h } := by
  simp only [Sys.homeCarrierClosed] at hs
  split_ifs at hs with hg
  obtain ⟨h, hh, rfl⟩ := Option.map_eq_some_iff.mp hs
  exact ⟨h, hg.1, by simpa using hg.2.1, hg.2.2, hh, rfl⟩

theorem close_cases {c : Uuid} {n m : ℕ} (hs : s.close c n m = some s') :
    (s.links c).up = true ∧ s' = s.setLink c { s.links c with
      up := false
      toHome := (s.links c).toHome.take n
      toTravel := (s.links c).toTravel.take m } := by
  simp only [Sys.close] at hs
  split_ifs at hs with hg
  exact ⟨hg, (Option.some.inj hs).symm⟩

theorem mem_opening {first count c : ℕ} : c ∈ opening first count ↔ first ≤ c ∧ c < first + count := by
  simp only [opening, List.mem_map, List.mem_range]
  constructor
  · rintro ⟨k, hk, rfl⟩
    omega
  · intro h
    exact ⟨c - first, by omega, by omega⟩

theorem beginRace_eq {raceId : Uuid} {opens : List Uuid} {r : Travel × Sends}
    (hr : s.travel.beginRace raceId opens = some r) :
    s.travel.phase = .loopTop ∧ ∃ sent,
      r = ({ s.travel with phase := .racing ⟨raceId, s.travel.active, [], opens⟩ }, sent) ∧
      (s.travel.active = none → sent = []) ∧
      ∀ c, s.travel.active = some c → sent = sendTo s.travel.carriers c
        [.race s.travel.transfer.flowId raceId s.travel.transfer.send.sendAcked] := by
  simp only [Travel.beginRace] at hr
  split_ifs at hr with hg
  obtain rfl := Option.some.inj hr
  exact ⟨hg.1, _, rfl, fun hn => by simp only [hn], fun c hc => by simp only [hc]⟩

theorem Wired.travelRace (h : s.Wired) {count : ℕ} {r : Travel × Sends}
    (hr : s.travel.beginRace s.fresh (opening (s.fresh + 1) count) = some r) :
    Wired { (s.offer (opening (s.fresh + 1) count)).withTravel r with
      fresh := s.fresh + 1 + count } := by
  have hcarriers : r.1.carriers = s.travel.carriers := by
    simp only [Travel.beginRace] at hr
    split_ifs at hr
    obtain rfl := Option.some.inj hr
    rfl
  refine ⟨h.travel.beginRace hr, h.home, fun c hc => ?_⟩
  have hc : s.fresh + 1 + count ≤ c := hc
  obtain ⟨hl, ht, hh⟩ := h.fresh c
    (Nat.le_trans (Nat.le_add_right _ _) (Nat.add_assoc s.fresh 1 count ▸ hc))
  refine ⟨?_, by rw [← hcarriers] at ht; exact ht, hh⟩
  have hn : c ∉ opening (s.fresh + 1) count := fun hm => (mem_opening.mp hm).2.not_ge hc
  simp only [Sys.withTravel, Sys.offer, if_neg hn, hl, Link.pushHome_default]

theorem Wired.step {a : Action} (h : s.Wired) (hs : s.step a = some s') : s'.Wired := by
  cases a with
  | travelFinish drained =>
    obtain ⟨r, hr, rfl⟩ := Option.map_eq_some_iff.mp hs
    exact h.withTravel (h.travel.finish hr) (Travel.finish_quiet hr).2.carriers_subset
  | travelRace count =>
    obtain ⟨r, hr, rfl⟩ := Option.map_eq_some_iff.mp hs
    exact h.travelRace hr
  | travelSelect =>
    obtain ⟨r, hr, rfl⟩ := Option.map_eq_some_iff.mp hs
    exact h.withTravel (h.travel.select hr) (Travel.select_quiet hr).2.carriers_subset
  | travelReevaluate =>
    obtain ⟨r, hr, rfl⟩ := Option.map_eq_some_iff.mp hs
    exact h.withTravel (h.travel.reevaluate hr) (Travel.reevaluate_quiet hr).2.carriers_subset
  | travelRecoveryExpired =>
    obtain ⟨r, hr, rfl⟩ := Option.map_eq_some_iff.mp hs
    exact h.withTravel (h.travel.recoveryExpired hr)
      (Travel.recoveryExpired_quiet hr).2.carriers_subset
  | travelStop =>
    obtain ⟨r, hr, rfl⟩ := Option.map_eq_some_iff.mp hs
    exact h.withTravel (h.travel.stop hr) (Travel.stop_quiet hr).2.carriers_subset
  | travelOpened c =>
    obtain ⟨n, m, v, rest, r, hq, hr, rfl⟩ := travelOpened_cases hs
    have hl : s.links c ≠ {} := fun hl => by simp [hl] at hq
    obtain ⟨-, ⟨error, rfl⟩ | ⟨race, send, -, -, -, -, rfl⟩⟩ := Travel.opened_cases hr
    · exact (h.setLink hl _).withTravel (h.travel.opened hr) (List.nil_subset _)
    · refine ⟨h.travel.opened hr, h.home, fun d hd => ?_⟩
      obtain ⟨hd1, hd2, hd3⟩ := (h.setLink hl
        { s.links c with toTravel := rest, spawned := true }).fresh d hd
      refine ⟨?_, ?_, hd3⟩
      · simp only [Sys.withTravel, hd1, Link.pushHome_default]
      · rintro (_ | ⟨_, hm⟩)
        · exact hl (h.fresh c hd).1
        · exact hd2 hm
  | travelOpenFailed c =>
    obtain ⟨r, hr, rfl⟩ := Option.map_eq_some_iff.mp hs
    exact h.withTravel (h.travel.openFailed hr) (h.travel.openFailed_quiet hr).2.carriers_subset
  | travelDeadline =>
    obtain ⟨r, hr, rfl⟩ := Option.map_eq_some_iff.mp hs
    exact h.withTravel (h.travel.deadline hr) (h.travel.deadline_quiet hr).2.carriers_subset
  | travelLocalData bytes =>
    simp only [Sys.step] at hs
    split_ifs at hs
    obtain ⟨r, hr, rfl⟩ := Option.map_eq_some_iff.mp hs
    exact h.withTravel (h.travel.event hr) (Travel.event_carriers_subset h.travel hr)
  | travelLocalEof =>
    simp only [Sys.step] at hs
    split_ifs at hs
    obtain ⟨r, hr, rfl⟩ := Option.map_eq_some_iff.mp hs
    exact h.withTravel (h.travel.event hr) (Travel.event_carriers_subset h.travel hr)
  | travelLocalError reason =>
    simp only [Sys.step] at hs
    split_ifs at hs
    obtain ⟨r, hr, rfl⟩ := Option.map_eq_some_iff.mp hs
    exact h.withTravel (h.travel.event hr) (Travel.event_carriers_subset h.travel hr)
  | travelFrame c io =>
    obtain ⟨f, rest, r, -, hq, hr, rfl⟩ := travelFrame_cases hs
    exact (h.setLink (fun hl => by simp [hl] at hq) _).withTravel (h.travel.event hr)
      (Travel.event_carriers_subset h.travel hr)
  | travelCarrierClosed c =>
    obtain ⟨r, hsp, -, -, hr, rfl⟩ := travelCarrierClosed_cases hs
    exact (h.setLink (fun hl => by simp [hl] at hsp) _).withTravel (h.travel.event hr)
      (Travel.event_carriers_subset h.travel hr)
  | homeRespawn c =>
    obtain ⟨-, -, rfl⟩ := homeRespawn_cases hs
    exact ⟨h.travel, ⟨rfl, rfl, fun _ hd => by cases hd⟩, fun d hd =>
      ⟨(h.fresh d hd).1, (h.fresh d hd).2.1, List.not_mem_nil⟩⟩
  | homeAttach c written =>
    obtain ⟨r, ho, hr, rfl⟩ := homeAttach_cases hs
    have hl : s.links c ≠ {} := fun hl => by simp [hl] at ho
    refine ⟨h.travel, h.home.attach hr, fun d hd => ?_⟩
    obtain ⟨hd1, hd2, hd3⟩ := (h.setLink hl { s.links c with offered := false }).fresh d hd
    refine ⟨?_, hd2, ?_⟩
    · simp only [Sys.withHome, hd1, Link.pushTravel_default, ite_self]
    · have hdc : d ≠ c := by
        rintro rfl
        exact hl (h.fresh _ hd).1
      simp only [Home.attach] at hr
      split_ifs at hr <;> obtain rfl := Option.some.inj hr
      · exact hd3
      · exact fun hm => hd3 ((List.mem_cons.mp hm).resolve_left hdc)
      · exact List.not_mem_nil
  | homeTargetData bytes =>
    simp only [Sys.step] at hs
    split_ifs at hs
    obtain ⟨r, hr, rfl⟩ := Option.map_eq_some_iff.mp hs
    refine h.withHome (h.home.targetData hr) ?_
    simp only [Home.targetData] at hr
    split_ifs at hr <;> obtain rfl := Option.some.inj hr
    · exact List.nil_subset _
    · exact List.Subset.refl _
  | homeTargetEof =>
    simp only [Sys.step] at hs
    split_ifs at hs
    obtain ⟨r, hr, rfl⟩ := Option.map_eq_some_iff.mp hs
    refine h.withHome (h.home.targetEnd hr) ?_
    simp only [Home.targetEnd] at hr
    split_ifs at hr
    obtain rfl := Option.some.inj hr
    exact List.Subset.refl _
  | homeFrame c io =>
    obtain ⟨f, rest, r, hq, hc, hr, rfl⟩ := homeFrame_cases hs
    exact (h.setLink (fun hl => by simp [hl] at hq) _).withHome (h.home.frame hc hr)
      (Home.frame_carriers_subset hr)
  | homeCarrierClosed c =>
    obtain ⟨h', -, -, -, hr, rfl⟩ := homeCarrierClosed_cases hs
    refine ⟨h.travel, h.home.carrierClosed hr, fun d hd => ⟨(h.fresh d hd).1, (h.fresh d hd).2.1,
      fun hm => (h.fresh d hd).2.2 ?_⟩⟩
    simp only [Home.carrierClosed] at hr
    split_ifs at hr <;> obtain rfl := Option.some.inj hr <;> exact List.mem_of_mem_filter hm
  | homeFinish drained =>
    obtain ⟨h', hr, rfl⟩ := Option.map_eq_some_iff.mp hs
    refine ⟨h.travel, h.home.finish hr, fun d hd => ⟨(h.fresh d hd).1, (h.fresh d hd).2.1, ?_⟩⟩
    simp only [Home.finish] at hr
    split_ifs at hr <;> obtain rfl := Option.some.inj hr <;> exact List.not_mem_nil
  | homeStop reason =>
    obtain ⟨h', hr, rfl⟩ := Option.map_eq_some_iff.mp hs
    refine ⟨h.travel, h.home.stop hr, fun d hd => ⟨(h.fresh d hd).1, (h.fresh d hd).2.1, ?_⟩⟩
    simp only [Home.stop] at hr
    split_ifs at hr
    obtain rfl := Option.some.inj hr
    exact List.not_mem_nil
  | close c n m =>
    obtain ⟨hup, rfl⟩ := close_cases hs
    exact h.setLink (fun hl => by simp [hl] at hup) _

theorem wired_start (config : Config) : config.start.Wired := by
  exact ⟨⟨⟨rfl, rfl⟩, fun _ hc => (by cases hc), fun race hr => (by cases hr)⟩,
    ⟨rfl, rfl, fun _ hc => (by cases hc)⟩, fun c _ => ⟨rfl, List.not_mem_nil, List.not_mem_nil⟩⟩

theorem wired_of_reachable {config : Config} (h : (machine config).Reachable s) : s.Wired :=
  h.invariant (wired_start config) fun _ _ _ hw hs => hw.step hs

end Sys

end FlowSplice.Flow
