import FlowSplice.Lib.TransferOrder
import FlowSplice.Flow.Delivery
import FlowSplice.Flow.Links

/-! Whether a flow survives its own handovers. Every check that either end makes of a frame is
met in every run, save two: an acknowledgement may be overtaken by a later one on another Carrier,
and data may reach Home on a Carrier that it has turned away from. -/
namespace FlowSplice.Flow
open Chunks

/-- The errors that a frame out of order leads to. -/
def TravelError.ofOrder : TravelError → Bool
  | .homeAckMovedBackwards | .homeAcknowledgedUnsent | .ackSplit | .nonContiguousData
  | .invalidFrame => true
  | _ => false

/-- Neither end has given the flow up over a frame. -/
structure Sys.Healthy (s : Sys) : Prop where
  travel : ∀ error, s.travel.phase = .failed error → error.ofOrder = false
  close : s.homeSent.any isClose = false
  home : s.home.phase ≠ .failed .ackSplit

/-- What the next frame to Travel acknowledges was not acknowledged past before. -/
def Sys.travelInOrder (s : Sys) (c : Uuid) : Bool :=
  match (s.links c).toTravel with
  | .openOk _ _ n _ _ :: _ | .ack _ n :: _ | .duplicate _ n _ :: _ =>
    s.travel.transfer.send.sendAcked ≤ n
  | _ => true

/-- Nor was what the next frame to Home acknowledges, and data that is new to Home comes on the
Carrier it has chosen. -/
def Sys.homeInOrder (s : Sys) (c : Uuid) : Bool :=
  match (s.links c).toHome with
  | .ack _ n :: _ | .duplicate _ n _ :: _ => s.home.send.sendAcked ≤ n
  | .data _ offset bytes :: _ =>
    s.home.activeCarrier = some c ∨ offset + bytes.length ≤ s.home.receiveOffset
  | _ => true

def Sys.inOrder (s : Sys) : Action → Bool
  | .travelOpened c | .travelFrame c _ => s.travelInOrder c
  | .homeFrame c _ => s.homeInOrder c
  | _ => true

/-- An acknowledgement at the end of a chunk splits none. -/
theorem SendQueue.acknowledge_isSome {q : SendQueue} {reads done rest : List Bytes} {n : ℕ}
    (hr : reads = done ++ rest) (ha : q.sendAcked = done.flatten.length)
    (hu : q.chunks = segmentsFrom q.sendAcked rest) (hc : Cut reads n) (hn : q.sendAcked ≤ n) :
    ∃ q', q.acknowledge n = some q' := by
  obtain ⟨done', rest', -, -, hdrop⟩ := dropWhile_segmentsFrom hr hc (ha ▸ hn)
  rw [← ha, ← hu, chunks, List.dropWhile_map] at hdrop
  have hhead : ((popAcked n q.unacked q.unackedBytes).1.head?.any
      fun segment => segment.offset < n) = false := by
    rw [popAcked_fst]
    cases hd : q.unacked.dropWhile (fun segment => segment.end ≤ n) with
    | nil => rfl
    | cons g gs =>
      have hd' : q.unacked.dropWhile ((fun p : ℕ × Bytes => decide (p.1 + p.2.length ≤ n)) ∘
          fun segment => (segment.offset, segment.bytes)) = g :: gs := hd
      rw [hd', List.map_cons] at hdrop
      cases rest' with
      | nil => cases hdrop
      | cons b bs =>
        have hoff : g.offset = n := congrArg Prod.fst (List.cons.inj hdrop).1
        simp [hoff]
  exact ⟨_, by simp only [acknowledge, hhead]; rfl⟩

/-- What a frame from Home can be trusted to say. -/
structure TransferState.Expects (transfer : TransferState) (f : DataFrame) : Prop where
  kind : ofHome transfer.flowId f
  close : isClose f = false
  data : ∀ offset bytes, f = .data transfer.flowId offset bytes →
    bytes.length ≤ maxDataPayload ∧
      (offset = transfer.receiveOffset ∨ offset + bytes.length ≤ transfer.receiveOffset)
  ack : ∀ n, Acks f transfer.flowId n → transfer.send.sendAcked ≤ n ∧
    n ≤ transfer.send.sendOffset ∧ ∃ send, transfer.send.acknowledge n = some send
  fin : ∀ n, f = .fin transfer.flowId n → n = transfer.receiveOffset
  finAck : ∀ n, f = .finAck transfer.flowId n →
    transfer.localEof = true ∧ n = transfer.send.sendOffset

theorem TransferState.Expects.healthy {transfer : TransferState} {f : DataFrame}
    (h : transfer.Expects f) {io : Io} {carriers : List Uuid} {active : Option Uuid} {c : Uuid}
    {error : TravelError}
    (he : (handleFrame io transfer carriers active c f).result = .error error) :
    error.ofOrder = false := by
  have hack : ∀ n, Acks f transfer.flowId n →
      (handleAck transfer carriers n).result = .error error → error.ofOrder = false := by
    intro n hn hr
    obtain ⟨-, -, send, ha⟩ := h.ack n hn
    simp only [handleAck, ha] at hr
    cases hr
  cases f with
  | data flowId offset bytes =>
    obtain rfl : flowId = transfer.flowId := h.kind
    obtain ⟨hlen, ho⟩ := h.data offset bytes rfl
    simp only [handleFrame, hlen, and_self, if_true, handleData] at he
    split_ifs at he with h1 h2
    · split at he
      · cases he
      · obtain rfl := Except.error.inj he
        rfl
    · exact absurd ho (by tauto)
  | ack flowId n =>
    obtain rfl : flowId = transfer.flowId := h.kind
    obtain ⟨h1, h2, -⟩ := h.ack n (.inl rfl)
    simp only [handleFrame, h1, h2, and_self, if_true] at he
    exact hack n (.inl rfl) he
  | duplicate flowId n winner =>
    obtain rfl : flowId = transfer.flowId := h.kind
    obtain ⟨h1, h2, -⟩ := h.ack n (.inr ⟨winner, rfl⟩)
    simp only [handleFrame, h1, h2, and_self, if_true] at he
    exact hack n (.inr ⟨winner, rfl⟩) he
  | fin flowId n =>
    obtain rfl : flowId = transfer.flowId := h.kind
    obtain rfl := h.fin n rfl
    simp only [handleFrame, true_and, if_true, handleFin] at he
    split_ifs at he
    split at he
    · cases he
    · obtain rfl := Except.error.inj he
      rfl
  | finAck flowId n =>
    obtain rfl : flowId = transfer.flowId := h.kind
    obtain ⟨h1, rfl⟩ := h.finAck n rfl
    simp only [handleFrame, h1, true_and, if_true] at he
    cases he
  | raceAck | raceDuplicate => cases he
  | close => cases h.close
  | «open» | openOk | openError | race | datagram | ping | pong => exact h.kind.elim

/-- What a frame from Travel, on Carrier `c`, can be trusted to say. -/
structure Home.Expects (h : Home) (c : Uuid) (f : DataFrame) : Prop where
  kind : ofTravel h.flowId f
  race : ∀ raceId n, f = .race h.flowId raceId n → n ≤ h.receiveOffset
  data : ∀ offset bytes, f = .data h.flowId offset bytes → bytes.length ≤ maxDataPayload ∧
    (offset = h.receiveOffset ∧ h.activeCarrier = some c ∨ offset + bytes.length ≤ h.receiveOffset)
  ack : ∀ n, Acks f h.flowId n → h.send.sendAcked ≤ n ∧ n ≤ h.send.sendOffset ∧
    ∃ send, h.send.acknowledge n = some send
  fin : ∀ n, f = .fin h.flowId n → n = h.receiveOffset
  finAck : ∀ n, f = .finAck h.flowId n → h.targetEof = true ∧ n = h.send.sendOffset

theorem Home.Expects.healthy {h : Home} {c : Uuid} {f : DataFrame} (hx : h.Expects c f)
    (hr : h.phase = .running) (io : Io) :
    (h.handleFrame io c f).2.any isClose = false ∧
      (h.handleFrame io c f).1.phase ≠ .failed .ackSplit := by
  have hphase : h.phase ≠ .failed .ackSplit := by simp [hr]
  have hack : ∀ n, Acks f h.flowId n →
      (h.handleAck n).2.any isClose = false ∧ (h.handleAck n).1.phase ≠ .failed .ackSplit := by
    intro n hn
    obtain ⟨-, -, send, ha⟩ := hx.ack n hn
    simp only [handleAck, ha]
    exact ⟨rfl, hphase⟩
  cases f with
  | race flowId raceId n =>
    obtain rfl : flowId = h.flowId := hx.kind
    have hn := hx.race raceId n rfl
    simp only [handleFrame, hn, and_self, if_true, handleRace]
    split
    · exact ⟨rfl, hphase⟩
    · exact ⟨by simp [SendQueue.retransmit_any_isClose, isClose], hphase⟩
  | data flowId offset bytes =>
    obtain rfl : flowId = h.flowId := hx.kind
    obtain ⟨hlen, ho⟩ := hx.data offset bytes rfl
    simp only [handleFrame, hlen, and_self, if_true, handleData]
    split_ifs with h1 h2
    · split
      · exact ⟨rfl, hphase⟩
      · exact ⟨rfl, by simp [Home.fail]⟩
    · exact ⟨rfl, hphase⟩
    · exact absurd ho (by tauto)
  | ack flowId n =>
    obtain rfl : flowId = h.flowId := hx.kind
    obtain ⟨h1, h2, -⟩ := hx.ack n (.inl rfl)
    simp only [handleFrame, h1, h2, and_self, if_true]
    exact hack n (.inl rfl)
  | duplicate flowId n winner =>
    obtain rfl : flowId = h.flowId := hx.kind
    obtain ⟨h1, h2, -⟩ := hx.ack n (.inr ⟨winner, rfl⟩)
    simp only [handleFrame, h1, h2, and_self, if_true]
    exact hack n (.inr ⟨winner, rfl⟩)
  | fin flowId n =>
    obtain rfl : flowId = h.flowId := hx.kind
    obtain rfl := hx.fin n rfl
    simp only [handleFrame, true_and, if_true, handleFin]
    split_ifs
    · exact ⟨rfl, hphase⟩
    · split
      · exact ⟨rfl, hphase⟩
      · exact ⟨rfl, by simp [Home.fail]⟩
  | finAck flowId n =>
    obtain rfl : flowId = h.flowId := hx.kind
    obtain ⟨h1, rfl⟩ := hx.finAck n rfl
    simp only [handleFrame, h1, true_and, if_true]
    exact ⟨rfl, hphase⟩
  | raceAck | raceDuplicate | close | «open» | openOk | openError | datagram | ping | pong =>
    exact hx.kind.elim

namespace Sys
variable {s s' : Sys} {c : Uuid}

/-- The acknowledgements of the upload on their way to Travel. -/
theorem upload_ack (h : s.Wired) (hup : Transfer.Inv s.upload) {n : ℕ} {f : DataFrame}
    (hf : f ∈ (s.links c).toTravel) (hb : uploadBackward f = some (.ack n)) :
    n ≤ s.travel.transfer.send.sendOffset ∧ (s.travel.transfer.send.sendAcked ≤ n →
      ∃ send, s.travel.transfer.send.acknowledge n = some send) := by
  obtain ⟨hle, hcut⟩ := hup.backward c (.ack n) (List.mem_filterMap.mpr ⟨f, hf, hb⟩)
  obtain ⟨done, rest, hr, ha, hu⟩ := hup.unacked
  refine ⟨?_, SendQueue.acknowledge_isSome hr ha hu hcut⟩
  rw [h.travel.transfer.counts]
  exact hle.trans hup.received_le

theorem download_ack (h : s.Wired) (hdown : Transfer.Inv s.download) {n : ℕ} {f : DataFrame}
    (hf : f ∈ (s.links c).toHome) (hb : downloadBackward f = some (.ack n)) :
    n ≤ s.home.send.sendOffset ∧ (s.home.send.sendAcked ≤ n →
      ∃ send, s.home.send.acknowledge n = some send) := by
  obtain ⟨hle, hcut⟩ := hdown.backward c (.ack n) (List.mem_filterMap.mpr ⟨f, hf, hb⟩)
  obtain ⟨done, rest, hr, ha, hu⟩ := hdown.unacked
  refine ⟨?_, SendQueue.acknowledge_isSome hr ha hu hcut⟩
  rw [h.home.counts]
  exact hle.trans hdown.received_le

/-- Travel can handle the frame that comes next, unless it acknowledges too little. -/
theorem travel_expects (hw : s.Wired) (hf : s.Framed) (hup : Transfer.Inv s.upload)
    (hdown : Transfer.Inv s.download) (hord : Transfer.Ordered s.download)
    (hrun : s.travel.hasFailed = false) (hclose : s.homeSent.any isClose = false)
    {f : DataFrame} {rest : List DataFrame} (hsp : (s.links c).spawned = true)
    (hq : (s.links c).toTravel = f :: rest) (hin : s.travelInOrder c = true) :
    s.travel.transfer.Expects f := by
  have hmem : f ∈ (s.links c).toTravel := hq ▸ List.mem_cons_self
  have hfwd : s.download.forward c = (f :: rest).filterMap downloadForward := by rw [← hq]; rfl
  refine ⟨(hf.links c).spawned hsp f hmem, ?_, fun o b heq => ?_, fun n hn => ?_, fun n heq => ?_,
    fun n heq => ?_⟩
  · exact Bool.eq_false_iff.mpr fun h =>
      absurd (List.any_eq_true.mpr ⟨f, hf.sent c f hmem, h⟩) (by simp [hclose])
  · subst heq
    have hseg := hdown.forward c (.data o b) (hfwd ▸ List.mem_cons_self)
    exact ⟨hf.targetReads b hseg.mem, hord.data_head hdown hrun hfwd⟩
  · obtain ⟨hle, hsome⟩ := upload_ack hw hup hmem hn.uploadBackward
    have hacked : s.travel.transfer.send.sendAcked ≤ n := by
      unfold travelInOrder at hin
      obtain rfl | ⟨w, rfl⟩ := hn <;> simpa [hq] using hin
    exact ⟨hacked, hle, hsome hacked⟩
  · subst heq
    exact hord.fin_head hdown hfwd
  · subst heq
    have hok := hup.backward c (.finAck n) (List.mem_filterMap.mpr ⟨_, hmem, rfl⟩)
    obtain ⟨m, hm⟩ := Option.isSome_iff_exists.mp hok.1
    exact ⟨(hup.closed m hm).1, hok.2.trans hw.travel.transfer.counts.symm⟩

/-- Home can handle the frame that comes next, unless it acknowledges too little or brings new
data on a Carrier that Home has not chosen. -/
theorem home_expects (hw : s.Wired) (hf : s.Framed) (hup : Transfer.Inv s.upload)
    (hdown : Transfer.Inv s.download) (hord : Transfer.Ordered s.upload)
    (hrun : s.home.hasFailed = false) {f : DataFrame} {rest : List DataFrame}
    (hq : (s.links c).toHome = f :: rest) (hin : s.homeInOrder c = true) :
    s.home.Expects c f := by
  have hmem : f ∈ (s.links c).toHome := hq ▸ List.mem_cons_self
  have hfwd : s.upload.forward c = (f :: rest).filterMap uploadForward := by rw [← hq]; rfl
  refine ⟨hf.flowId ▸ (hf.links c).toHome f hmem, fun r n heq => ?_, fun o b heq => ?_,
    fun n hn => ?_, fun n heq => ?_, fun n heq => ?_⟩
  · subst heq
    exact hup.forward c (.probe n) (List.mem_filterMap.mpr ⟨_, hmem, rfl⟩)
  · subst heq
    have hseg := hup.forward c (.data o b) (hfwd ▸ List.mem_cons_self)
    refine ⟨hf.localReads b hseg.mem, ?_⟩
    have hhead := hord.data_head hup hrun hfwd
    have hguard : s.home.activeCarrier = some c ∨ o + b.length ≤ s.home.receiveOffset := by
      unfold homeInOrder at hin
      simpa [hq] using hin
    rcases hguard with hact | hle
    · exact hhead.imp_left fun ho => ⟨ho, hact⟩
    · exact .inr hle
  · obtain ⟨hle, hsome⟩ := download_ack hw hdown hmem hn.downloadBackward
    have hacked : s.home.send.sendAcked ≤ n := by
      unfold homeInOrder at hin
      obtain rfl | ⟨w, rfl⟩ := hn <;> simpa [hq] using hin
    exact ⟨hacked, hle, hsome hacked⟩
  · subst heq
    exact hord.fin_head hup hfwd
  · subst heq
    have hok := hdown.backward c (.finAck n) (List.mem_filterMap.mpr ⟨_, hmem, rfl⟩)
    obtain ⟨m, hm⟩ := Option.isSome_iff_exists.mp hok.1
    exact ⟨(hdown.closed m hm).1, hok.2.trans hw.home.counts.symm⟩

end Sys

namespace Travel
variable {t : Travel} {r : Travel × Sends}

theorem endRace_not_failed (race : Race) (winner : Option Uuid) (error : TravelError) :
    (t.endRace race winner).1.phase ≠ .failed error := by
  cases winner <;> simp only [endRace] <;> split_ifs <;> simp

theorem continueRace_not_failed (race : Race) (error : TravelError) :
    (t.continueRace race).1.phase ≠ .failed error := by
  unfold continueRace
  split_ifs
  · exact endRace_not_failed race none error
  · simp

/-- An event ends the flow only through the error of `handle_event`. -/
theorem event_error {ev : FlowEvent} {io : Io} (hs : t.event ev io = some r) {error : TravelError}
    (hr : r.1.phase = .failed error) :
    (handleEvent ev io t.transfer t.carriers t.active).result = .error error := by
  cases event_cases hs with
  | decided race winner hp hw => exact absurd hr (endRace_not_failed _ _ _)
  | failed error' he =>
    obtain rfl := TravelPhase.failed.inj hr
    exact he
  | closed race c hp he => exact absurd hr (continueRace_not_failed _ _)
  | handled phase closed hp hok => obtain ⟨race, -, rfl, -⟩ | ⟨-, rfl⟩ := hp <;> cases hr

/-- An OPEN_OK within what is sent, and not behind what is acknowledged, is welcome. -/
theorem opened_not_failed {c n : ℕ} (hs : t.opened c n = some r)
    (hle : n ≤ t.transfer.send.sendOffset) (hacked : t.transfer.send.sendAcked ≤ n)
    (hsome : ∃ send, t.transfer.send.acknowledge n = some send) (error : TravelError) :
    r.1.phase ≠ .failed error := by
  obtain ⟨send, ha⟩ := hsome
  simp only [opened, ha] at hs
  split at hs
  next race hp =>
    rw [if_neg (by omega : ¬ n > t.transfer.send.sendOffset),
      if_neg (by omega : ¬ n < t.transfer.send.sendAcked)] at hs
    split_ifs at hs
    obtain rfl := Option.some.inj hs
    simp
  next => cases hs

end Travel

namespace Sys
variable {s s' : Sys}

theorem Healthy.of_travel (h : s.Healthy) (hh : s'.home = s.home)
    (hsent : s'.homeSent = s.homeSent)
    (he : ∀ error, s'.travel.phase = .failed error → error.ofOrder = false) : s'.Healthy :=
  ⟨he, by rw [hsent]; exact h.close, by rw [hh]; exact h.home⟩

theorem Healthy.of_home (h : s.Healthy) (ht : s'.travel = s.travel)
    (hclose : s'.homeSent.any isClose = false) (hh : s'.home.phase ≠ .failed .ackSplit) :
    s'.Healthy :=
  ⟨by rw [ht]; exact h.travel, hclose, hh⟩

theorem Healthy.travelFrame {c : Uuid} {io : Io} (h : s.Healthy) (hw : s.Wired) (hf : s.Framed)
    (hup : Transfer.Inv s.upload) (hdown : Transfer.Inv s.download)
    (hord : s.download.refused = false → Transfer.Ordered s.download)
    (hin : s.travelInOrder c = true) (hs : s.travelFrame c io = some s') : s'.Healthy := by
  obtain ⟨f, rest, r, hsp, hq, hr, rfl⟩ := travelFrame_cases hs
  refine h.of_travel rfl rfl fun error he => ?_
  have hrun := hasFailed_of_running (Travel.event_running hr)
  exact (travel_expects hw hf hup hdown (hord hrun) hrun h.close hsp hq hin).healthy
    (Travel.event_error hr he)

theorem Healthy.travelOpened {c : Uuid} (h : s.Healthy) (hw : s.Wired)
    (hup : Transfer.Inv s.upload) (hin : s.travelInOrder c = true)
    (hs : s.travelOpened c = some s') : s'.Healthy := by
  obtain ⟨n, m, v, rest, r, hq, hr, rfl⟩ := travelOpened_cases hs
  refine h.of_travel rfl rfl fun error he => ?_
  obtain ⟨hle, hsome⟩ := upload_ack hw hup (hq ▸ List.mem_cons_self) rfl
  have hacked : s.travel.transfer.send.sendAcked ≤ n := by
    unfold travelInOrder at hin
    simpa [hq] using hin
  exact absurd he (Travel.opened_not_failed hr hle hacked (hsome hacked) error)

theorem Healthy.homeFrame {c : Uuid} {io : Io} (h : s.Healthy) (hw : s.Wired) (hf : s.Framed)
    (hup : Transfer.Inv s.upload) (hdown : Transfer.Inv s.download)
    (hord : s.upload.refused = false → Transfer.Ordered s.upload)
    (hin : s.homeInOrder c = true) (hs : s.homeFrame c io = some s') : s'.Healthy := by
  obtain ⟨f, rest, r, hq, -, hr, rfl⟩ := homeFrame_cases hs
  obtain ⟨hrun, -, -⟩ := Home.frame_cases hr
  have hfailed := home_hasFailed_of_running hrun
  have hrefused : s.upload.refused = false := by simp [upload, hfailed, h.close]
  have hx := (home_expects hw hf hup hdown (hord hrefused) hfailed hq hin).healthy hrun io
  simp only [Home.frame] at hr
  split_ifs at hr
  obtain rfl := Option.some.inj hr
  refine h.of_home rfl ?_ hx.2
  simp only [withHome, setLink, List.any_append, h.close, hx.1, Bool.or_self]

theorem Healthy.step {a : Action} (h : s.Healthy) (hw : s.Wired) (hf : s.Framed)
    (hup : Transfer.Inv s.upload) (hdown : Transfer.Inv s.download)
    (hordup : s.upload.refused = false → Transfer.Ordered s.upload)
    (horddown : s.download.refused = false → Transfer.Ordered s.download)
    (hin : s.inOrder a = true) (hs : s.step a = some s') : s'.Healthy := by
  cases a with
  | travelFinish =>
    obtain ⟨r, hr, rfl⟩ := Option.map_eq_some_iff.mp hs
    refine h.of_travel rfl rfl fun error he => ?_
    simp only [Travel.finish] at hr
    split_ifs at hr <;> obtain rfl := Option.some.inj hr
    · cases he
    · obtain rfl := TravelPhase.failed.inj he
      rfl
  | travelRace =>
    obtain ⟨r, hr, rfl⟩ := Option.map_eq_some_iff.mp hs
    obtain ⟨-, sent, rfl, -⟩ := beginRace_eq hr
    exact h.of_travel rfl rfl fun error he => by cases he
  | travelSelect =>
    obtain ⟨r, hr, rfl⟩ := Option.map_eq_some_iff.mp hs
    refine h.of_travel rfl rfl fun error he => ?_
    simp only [Travel.select] at hr
    split_ifs at hr
    obtain rfl := Option.some.inj hr
    cases he
  | travelReevaluate =>
    obtain ⟨r, hr, rfl⟩ := Option.map_eq_some_iff.mp hs
    refine h.of_travel rfl rfl fun error he => ?_
    simp only [Travel.reevaluate] at hr
    split_ifs at hr
    obtain rfl := Option.some.inj hr
    cases he
  | travelRecoveryExpired =>
    obtain ⟨r, hr, rfl⟩ := Option.map_eq_some_iff.mp hs
    refine h.of_travel rfl rfl fun error he => ?_
    simp only [Travel.recoveryExpired] at hr
    split_ifs at hr
    obtain rfl := Option.some.inj hr
    obtain rfl := TravelPhase.failed.inj he
    rfl
  | travelStop =>
    obtain ⟨r, hr, rfl⟩ := Option.map_eq_some_iff.mp hs
    refine h.of_travel rfl rfl fun error he => ?_
    simp only [Travel.stop] at hr
    split_ifs at hr
    obtain rfl := Option.some.inj hr
    obtain rfl := TravelPhase.failed.inj he
    rfl
  | travelOpened => exact h.travelOpened hw hup hin hs
  | travelOpenFailed =>
    obtain ⟨r, hr, rfl⟩ := Option.map_eq_some_iff.mp hs
    refine h.of_travel rfl rfl fun error he => ?_
    simp only [Travel.openFailed] at hr
    split at hr
    · split_ifs at hr
      obtain rfl := Option.some.inj hr
      exact absurd he (Travel.continueRace_not_failed _ _)
    · cases hr
  | travelDeadline =>
    obtain ⟨r, hr, rfl⟩ := Option.map_eq_some_iff.mp hs
    refine h.of_travel rfl rfl fun error he => ?_
    simp only [Travel.deadline] at hr
    split at hr
    · obtain rfl := Option.some.inj hr
      exact absurd he (Travel.endRace_not_failed _ _ _)
    · cases hr
  | travelLocalData bytes =>
    simp only [Sys.step] at hs
    split_ifs at hs
    obtain ⟨r, hr, rfl⟩ := Option.map_eq_some_iff.mp hs
    refine h.of_travel rfl rfl fun error he => ?_
    have herr := Travel.event_error hr he
    simp only [handleEvent] at herr
    split_ifs at herr
    obtain rfl := Except.error.inj herr
    rfl
  | travelLocalEof =>
    simp only [Sys.step] at hs
    split_ifs at hs
    obtain ⟨r, hr, rfl⟩ := Option.map_eq_some_iff.mp hs
    exact h.of_travel rfl rfl fun error he => by cases Travel.event_error hr he
  | travelLocalError =>
    simp only [Sys.step] at hs
    split_ifs at hs
    obtain ⟨r, hr, rfl⟩ := Option.map_eq_some_iff.mp hs
    refine h.of_travel rfl rfl fun error he => ?_
    obtain rfl := Except.error.inj (Travel.event_error hr he)
    rfl
  | travelFrame => exact h.travelFrame hw hf hup hdown horddown hin hs
  | travelCarrierClosed =>
    obtain ⟨r, -, -, -, hr, rfl⟩ := travelCarrierClosed_cases hs
    exact h.of_travel rfl rfl fun error he => by cases Travel.event_error hr he
  | homeRespawn =>
    obtain ⟨-, -, rfl⟩ := homeRespawn_cases hs
    exact h.of_home rfl h.close (by simp)
  | homeAttach =>
    obtain ⟨r, -, hr, rfl⟩ := homeAttach_cases hs
    simp only [Home.attach] at hr
    split_ifs at hr with hg <;> obtain rfl := Option.some.inj hr <;>
      refine h.of_home rfl ?_ ?_ <;>
      simp [withHome, setLink, Home.fail, isClose, hg.1, h.close, -List.any_eq_false]
  | homeTargetData =>
    simp only [Sys.step] at hs
    split_ifs at hs
    obtain ⟨r, hr, rfl⟩ := Option.map_eq_some_iff.mp hs
    simp only [Home.targetData] at hr
    split_ifs at hr with hg <;> obtain rfl := Option.some.inj hr <;>
      refine h.of_home rfl ?_ ?_ <;>
      simp [withHome, Home.fail, isClose, hg.1, h.close, -List.any_eq_false]
  | homeTargetEof =>
    simp only [Sys.step] at hs
    split_ifs at hs
    obtain ⟨r, hr, rfl⟩ := Option.map_eq_some_iff.mp hs
    simp only [Home.targetEnd] at hr
    split_ifs at hr with hg
    obtain rfl := Option.some.inj hr
    refine h.of_home rfl ?_ ?_ <;>
      simp [withHome, isClose, hg.1, h.close, -List.any_eq_false]
  | homeFrame => exact h.homeFrame hw hf hup hdown hordup hin hs
  | homeCarrierClosed =>
    obtain ⟨h', -, -, -, hr, rfl⟩ := homeCarrierClosed_cases hs
    simp only [Home.carrierClosed] at hr
    split_ifs at hr with hg <;> obtain rfl := Option.some.inj hr <;>
      exact h.of_home rfl h.close (by simp [hg.1])
  | homeFinish =>
    obtain ⟨h', hr, rfl⟩ := Option.map_eq_some_iff.mp hs
    simp only [Home.finish] at hr
    split_ifs at hr <;> obtain rfl := Option.some.inj hr <;>
      exact h.of_home rfl h.close (by simp [Home.fail])
  | homeStop =>
    obtain ⟨h', hr, rfl⟩ := Option.map_eq_some_iff.mp hs
    simp only [Home.stop] at hr
    split_ifs at hr
    obtain rfl := Option.some.inj hr
    exact h.of_home rfl h.close (by simp [Home.fail])
  | close =>
    obtain ⟨-, rfl⟩ := close_cases hs
    exact h.of_travel rfl rfl h.travel

/-- The order of the frames in flight, as long as nothing was refused. -/
theorem ordered_of_reachable {config : Config} (h : (machine config).Reachable s)
    (hp : s.past = []) :
    (s.upload.refused = false → Transfer.Ordered s.upload) ∧
      (s.download.refused = false → Transfer.Ordered s.download) := by
  refine Machine.ReachableWhere.invariant (P := fun s => s.past = [] →
      (s.upload.refused = false → Transfer.Ordered s.upload) ∧
        (s.download.refused = false → Transfer.Ordered s.download)) h
    (fun _ => ?_) (fun t a t' ht hi _ hs hp' => ?_) hp
  · exact ⟨fun _ => ⟨fun _ => trivial, fun _ hc => (by cases hc)⟩,
      fun _ => ⟨fun _ => trivial, fun _ hc => (by cases hc)⟩⟩
  · have hw := wired_of_reachable ht
    obtain ⟨hp, ha⟩ := past_of_step hs hp'
    obtain ⟨hup, hdown⟩ := transfers_of_reachable ht hp
    obtain ⟨houp, hodown⟩ := hi hp
    exact ⟨Transfer.Ordered.steps hup houp (upload_step hw hs ha),
      Transfer.Ordered.steps hdown hodown (download_step hw hs ha)⟩

end Sys

variable {config : Config} {s : Sys}

/-- A run in which no acknowledgement is overtaken, and all that is new to Home comes on its
active Carrier, leaves the flow alive. -/
theorem healthy_of_inOrder
    (h : (machine config).ReachableWhere (fun s a => s.inOrder a = true) s) (hp : s.past = []) :
    s.Healthy := by
  refine h.invariant (P := fun s => s.past = [] → s.Healthy) (fun _ => ?_)
    (fun t a t' ht hi hin hs hp' => ?_) hp
  · exact ⟨fun _ he => (by cases he), rfl, fun he => (by cases he)⟩
  · have hr := ht.reachable
    have hp := (Sys.past_of_step hs hp').1
    obtain ⟨hup, hdown⟩ := Sys.transfers_of_reachable hr hp
    obtain ⟨houp, hodown⟩ := Sys.ordered_of_reachable hr hp
    exact (hi hp).step (Sys.wired_of_reachable hr) (Sys.framed_of_reachable hr) hup hdown houp
      hodown hin hs

/-- A run through which a flow passes several handovers in order. -/
theorem healthy_of_inOrder_handover :
    ∃ s, (machine ⟨7, 1000, 1000⟩).execWhere (fun s a => s.inOrder a = true) handover = some s ∧
      s.home.activeCarrier = some 3 ∧ s.Healthy := by
  have hrun : ((machine ⟨7, 1000, 1000⟩).execWhere (fun s a => s.inOrder a = true) handover).map
      (fun s => (s.home.activeCarrier, s.past)) = some (some 3, []) := by decide
  obtain ⟨s, hs, heq⟩ := Option.map_eq_some_iff.mp hrun
  simp only [Prod.mk.injEq] at heq
  exact ⟨s, hs, heq.1, healthy_of_inOrder (Machine.reachableWhere_of_execWhere hs) heq.2⟩

/-- An error of `handle_event` ends the flow. -/
theorem Travel.failed_of_error {t : Travel} {c : Uuid} {f : DataFrame} {io : Io}
    {r : Travel × Sends} (hs : t.event (.carrierFrame c f) io = some r) {error : TravelError}
    (hw : ∀ race, t.raceWinner race (.carrierFrame c f) = none)
    (hr : (handleFrame io t.transfer t.carriers t.active c f).result = .error error) :
    r.1.phase = .failed error := by
  cases event_cases hs with
  | decided race winner hp hw' => simp [hw race] at hw'
  | failed error' he =>
    obtain rfl := Except.error.inj (he.symm.trans hr)
    rfl
  | closed race d hp he => cases he
  | handled phase closed hp hok => cases hok.symm.trans hr

/-- A frame that comes out of order, in either sense, does end the flow. -/
theorem not_healthy_of_not_inOrder {a : Action} {s' : Sys} (hin : s.inOrder a = false)
    (hs : s.step a = some s') : ¬ s'.Healthy := by
  intro h
  cases a with
  | travelOpened c =>
    obtain ⟨n, m, v, rest, r, hq, hr, rfl⟩ := Sys.travelOpened_cases hs
    have hn : n < s.travel.transfer.send.sendAcked := by
      simpa [Sys.inOrder, Sys.travelInOrder, hq] using hin
    have hfail : ∃ error, r.1.phase = .failed error ∧ error.ofOrder = true := by
      simp only [Travel.opened] at hr
      split at hr
      · split_ifs at hr
        · obtain rfl := Option.some.inj hr
          exact ⟨_, rfl, rfl⟩
        · obtain rfl := Option.some.inj hr
          exact ⟨_, rfl, rfl⟩
      · cases hr
    obtain ⟨error, hp, ho⟩ := hfail
    simpa [ho] using h.travel error hp
  | travelFrame c io =>
    obtain ⟨f, rest, r, -, hq, hr, rfl⟩ := Sys.travelFrame_cases hs
    have hfail : r.1.phase = .failed .invalidFrame := by
      simp only [Sys.inOrder, Sys.travelInOrder, hq] at hin
      refine Travel.failed_of_error hr (fun race => ?_) ?_ <;> split at hin <;> simp at hin
      all_goals rename_i heq; obtain ⟨rfl, rfl⟩ := List.cons.inj heq
      · rfl
      · rfl
      · rfl
      · rfl
      · simp [handleFrame, hin.not_ge]
      · simp [handleFrame, hin.not_ge]
    simpa [TravelError.ofOrder] using h.travel _ hfail
  | homeFrame c io =>
    obtain ⟨f, rest, r, hq, -, hr, rfl⟩ := Sys.homeFrame_cases hs
    have hclose : r = s.home.rejectFrame ∨
        r = (s.home, [.close s.home.flowId "non-contiguous TCP data"]) := by
      simp only [Home.frame] at hr
      split_ifs at hr
      obtain rfl := Option.some.inj hr
      simp only [Sys.inOrder, Sys.homeInOrder, hq] at hin
      split at hin <;> simp at hin
      all_goals rename_i heq; obtain ⟨rfl, rfl⟩ := List.cons.inj heq
      · exact .inl (by simp [Home.handleFrame, hin])
      · exact .inl (by simp [Home.handleFrame, hin])
      · simp only [Home.handleFrame, Home.handleData]
        split_ifs
        · simp_all
        · omega
        · exact .inr rfl
        · exact .inl rfl
    have hany := h.close
    obtain rfl | rfl := hclose <;>
      simp [Sys.withHome, Home.rejectFrame, isClose] at hany
  | _ => cases hin

/-- What may happen around a flow whose sockets, limits and timers give it no reason to end. -/
def Action.benign : Action → Bool
  | .travelFrame _ io | .homeFrame _ io => io = .done
  | .travelFinish drained | .homeFinish drained => drained
  | .homeAttach _ written => written
  | .travelStop | .travelRecoveryExpired | .travelLocalError _ | .homeStop _ | .homeRespawn _ =>
    false
  | _ => true

/-- An OPEN_OK is overtaken by the acknowledgement of bytes sent after it. -/
def staleOpenOk : List Action :=
  [.travelRace 1, .homeAttach 1 true, .travelOpened 1, .homeFrame 1 .done, .travelFrame 1 .done,
    .travelLocalData [1], .travelRace 1, .homeAttach 3 true, .homeFrame 1 .done,
    .travelFrame 1 .done, .travelOpened 3]

/-- Home chooses the new Carrier while data is on its way on the old one. -/
def lateData : List Action :=
  [.travelRace 1, .homeAttach 1 true, .travelOpened 1, .homeFrame 1 .done, .travelFrame 1 .done,
    .travelReevaluate, .travelRace 1, .homeAttach 3 true, .travelOpened 3, .travelLocalData [1],
    .homeFrame 3 .done, .homeFrame 1 .done, .homeFrame 1 .done]

/-- Either run kills a flow that nothing is wrong with. -/
theorem not_healthy_of_benign :
    (∃ s, (machine ⟨7, 1000, 1000⟩).exec staleOpenOk = some s ∧ s.past = [] ∧
      s.travel.phase = .failed .homeAckMovedBackwards) ∧
    (∃ s, (machine ⟨7, 1000, 1000⟩).exec lateData = some s ∧ s.past = [] ∧
      s.homeSent.any isClose = true) ∧
    ¬ ∀ s, (machine ⟨7, 1000, 1000⟩).ReachableWhere (fun _ a => a.benign = true) s →
      s.past = [] → s.Healthy := by
  have hstale : ((machine ⟨7, 1000, 1000⟩).execWhere (fun _ a => a.benign = true) staleOpenOk).map
      (fun s => (s.past, s.travel.phase)) = some ([], .failed .homeAckMovedBackwards) := by
    decide
  have hstale' : ((machine ⟨7, 1000, 1000⟩).exec staleOpenOk).map
      (fun s => (s.past, s.travel.phase)) = some ([], .failed .homeAckMovedBackwards) := by
    decide
  have hlate : ((machine ⟨7, 1000, 1000⟩).exec lateData).map
      (fun s => (s.past, s.homeSent.any isClose)) = some ([], true) := by decide
  refine ⟨?_, ?_, fun h => ?_⟩
  · obtain ⟨s, hs, heq⟩ := Option.map_eq_some_iff.mp hstale'
    exact ⟨s, hs, Prod.mk.inj heq⟩
  · obtain ⟨s, hs, heq⟩ := Option.map_eq_some_iff.mp hlate
    exact ⟨s, hs, Prod.mk.inj heq⟩
  · obtain ⟨s, hs, heq⟩ := Option.map_eq_some_iff.mp hstale
    obtain ⟨hp, hphase⟩ := Prod.mk.inj heq
    have := (h s (Machine.reachableWhere_of_execWhere hs) hp).travel _ hphase
    simp [TravelError.ofOrder] at this

end FlowSplice.Flow
