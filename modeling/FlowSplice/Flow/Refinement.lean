import FlowSplice.Lib.Transfer
import FlowSplice.Flow.Wiring

/-! Each direction of a flow is a reliable transfer: `upload` is what Travel reads and Home
writes, `download` what Home reads and Travel writes. Every step of a flow that keeps its Home
instance is a number of moves of each. -/
namespace FlowSplice.Flow
open Transfer (Forward Backward)

/-- What a frame to Home says about the upload. -/
def uploadForward : DataFrame → Option (Forward UInt8)
  | .data _ offset bytes => some (.data offset bytes)
  | .fin _ finalOffset => some (.fin finalOffset)
  | .race _ _ nextOffset => some (.probe nextOffset)
  | _ => none

/-- What a frame to Travel says about the upload. -/
def uploadBackward : DataFrame → Option Backward
  | .ack _ nextOffset | .duplicate _ nextOffset _ => some (.ack nextOffset)
  | .openOk _ _ receiveOffset _ _ => some (.ack receiveOffset)
  | .finAck _ finalOffset => some (.finAck finalOffset)
  | _ => none

/-- What a frame to Travel says about the download. -/
def downloadForward : DataFrame → Option (Forward UInt8)
  | .data _ offset bytes => some (.data offset bytes)
  | .fin _ finalOffset => some (.fin finalOffset)
  | _ => none

/-- What a frame to Home says about the download. -/
def downloadBackward : DataFrame → Option Backward
  | .ack _ nextOffset | .duplicate _ nextOffset _ => some (.ack nextOffset)
  | .finAck _ finalOffset => some (.finAck finalOffset)
  | _ => none

def isClose : DataFrame → Bool
  | .close .. => true
  | _ => false

def Travel.hasFailed (t : Travel) : Bool :=
  match t.phase with
  | .failed _ => true
  | _ => false

def Home.hasFailed (h : Home) : Bool :=
  match h.phase with
  | .failed _ => true
  | _ => false

def SendQueue.chunks (q : SendQueue) : List (ℕ × Bytes) :=
  q.unacked.map (fun segment => (segment.offset, segment.bytes))

namespace Sys

def upload (s : Sys) : Transfer.State Uuid UInt8 where
  reads := s.travel.transfer.localReads
  eof := s.travel.transfer.localEof
  acked := s.travel.transfer.send.sendAcked
  unacked := s.travel.transfer.send.chunks
  finAcked := s.travel.transfer.localFinAcked
  active := s.travel.active
  up c := (s.links c).up
  forward c := (s.links c).toHome.filterMap uploadForward
  backward c := (s.links c).toTravel.filterMap uploadBackward
  received := s.home.receiveOffset
  written := s.home.targetWriter.written
  closedAt := s.home.targetWriter.shutdownAt
  torn := s.home.hasFailed
  refused := s.home.hasFailed || s.homeSent.any isClose

def download (s : Sys) : Transfer.State Uuid UInt8 where
  reads := s.home.targetReads
  eof := s.home.targetEof
  acked := s.home.send.sendAcked
  unacked := s.home.send.chunks
  finAcked := s.home.targetFinAcked
  active := s.home.activeCarrier
  up c := (s.links c).up
  forward c := (s.links c).toTravel.filterMap downloadForward
  backward c := (s.links c).toHome.filterMap downloadBackward
  received := s.travel.transfer.receiveOffset
  written := s.travel.transfer.localWriter.written
  closedAt := s.travel.transfer.localWriter.shutdownAt
  torn := s.travel.hasFailed
  refused := s.travel.hasFailed

end Sys

theorem Acks.uploadBackward {f : DataFrame} {n : ℕ} {flowId : Uuid} (h : Acks f flowId n) :
    uploadBackward f = some (.ack n) := by
  obtain rfl | ⟨winner, rfl⟩ := h <;> rfl

theorem Acks.downloadBackward {f : DataFrame} {n : ℕ} {flowId : Uuid} (h : Acks f flowId n) :
    downloadBackward f = some (.ack n) := by
  obtain rfl | ⟨winner, rfl⟩ := h <;> rfl

/-- Travel answers a frame of a Carrier without sending on the upload. -/
theorem FrameCase.sent_silent {io : Io} {transfer : TransferState} {carriers : List Uuid}
    {active : Option Uuid} {c : Uuid} {f : DataFrame} {handled : Handled}
    (hf : FrameCase io transfer carriers active c f handled) :
    ∃ fs, handled.sent = sendTo carriers c fs ∧ fs.filterMap uploadForward = [] := by
  cases hf with
  | wrote | known | finAgain | finished => exact ⟨_, rfl, rfl⟩
  | acked | partly | finAcked | raceAnswer | rejected => exact ⟨[], by simp, rfl⟩

theorem Travel.raceWinner_downloadForward {t : Travel} {race : Race} {c winner : Uuid}
    {f : DataFrame} (h : t.raceWinner race (.carrierFrame c f) = some winner) :
    downloadForward f = none := by
  unfold raceWinner at h
  split at h <;> simp_all [downloadForward]

/-- What the local socket brings is sent on the upload only. -/
theorem handleEvent_sent {ev : FlowEvent} (io : Io) (transfer : TransferState)
    (carriers : List Uuid) (active : Option Uuid) (hev : ∀ c f, ev ≠ .carrierFrame c f) :
    ∃ c fs, (handleEvent ev io transfer carriers active).sent = sendTo carriers c fs ∧
      fs.filterMap downloadBackward = [] := by
  have hnil : ∃ c fs, ([] : Sends) = sendTo carriers c fs ∧ fs.filterMap downloadBackward = [] :=
    ⟨0, [], by simp, rfl⟩
  cases ev with
  | localData bytes =>
    simp only [handleEvent]
    split_ifs
    · exact hnil
    · cases active with
      | none => exact hnil
      | some c => exact ⟨c, _, rfl, rfl⟩
  | localEof =>
    cases active with
    | none => exact hnil
    | some c => exact ⟨c, _, rfl, rfl⟩
  | localError | carrierClosed => exact hnil
  | carrierFrame c f => exact absurd rfl (hev c f)

/-- Only frames of a Carrier reach the local socket. -/
theorem handleEvent_writes {ev : FlowEvent} {io : Io} {transfer : TransferState}
    {carriers : List Uuid} {active : Option Uuid} (hev : ∀ c f, ev ≠ .carrierFrame c f) :
    (handleEvent ev io transfer carriers active).transfer.receiveOffset =
        transfer.receiveOffset ∧
      (handleEvent ev io transfer carriers active).transfer.localWriter =
        transfer.localWriter := by
  cases ev with
  | localData bytes =>
    simp only [handleEvent]
    split_ifs <;> exact ⟨rfl, rfl⟩
  | localEof | localError | carrierClosed => exact ⟨rfl, rfl⟩
  | carrierFrame c f => exact absurd rfl (hev c f)

section Queue
variable {q : SendQueue}

theorem SendQueue.chunks_push (q : SendQueue) (bytes : Bytes) :
    (q.push bytes).chunks = q.chunks ++ [(q.sendOffset, bytes)] := by
  simp [chunks, push, segment]

theorem SendQueue.chunks_acknowledge {q' : SendQueue} {n : ℕ} (h : q.acknowledge n = some q') :
    q'.chunks = q.chunks.dropWhile (fun p => p.1 + p.2.length ≤ n) := by
  rw [chunks, (acknowledge_eq_some h).2.2, chunks, List.dropWhile_map]
  rfl

theorem SendQueue.retransmit_upload (q : SendQueue) (flowId : Uuid) (eof : Bool) :
    (q.retransmit flowId eof).filterMap uploadForward =
      q.chunks.map (fun p => .data p.1 p.2) ++ if eof then [.fin q.sendOffset] else [] := by
  cases eof <;>
    simp [retransmit, chunks, uploadForward, List.filterMap_map, Function.comp_def]

theorem SendQueue.retransmit_download (q : SendQueue) (flowId : Uuid) (eof : Bool) :
    (q.retransmit flowId eof).filterMap downloadForward =
      q.chunks.map (fun p => .data p.1 p.2) ++ if eof then [.fin q.sendOffset] else [] := by
  cases eof <;>
    simp [retransmit, chunks, downloadForward, List.filterMap_map, Function.comp_def]

/-- Retransmitted frames acknowledge nothing. -/
theorem SendQueue.retransmit_uploadBackward (q : SendQueue) (flowId : Uuid) (eof : Bool) :
    (q.retransmit flowId eof).filterMap uploadBackward = [] := by
  cases eof <;> simp [retransmit, uploadBackward, List.filterMap_map, Function.comp_def]

theorem SendQueue.retransmit_downloadBackward (q : SendQueue) (flowId : Uuid) (eof : Bool) :
    (q.retransmit flowId eof).filterMap downloadBackward = [] := by
  cases eof <;> simp [retransmit, downloadBackward, List.filterMap_map, Function.comp_def]

theorem SendQueue.retransmit_any_isClose (q : SendQueue) (flowId : Uuid) (eof : Bool) :
    (q.retransmit flowId eof).any isClose = false := by
  cases eof <;> simp [retransmit, isClose]

end Queue

namespace Sys
variable {s : Sys}

theorem upload_popHome (c : Uuid) (rest : List DataFrame) :
    (s.setLink c { s.links c with toHome := rest }).upload =
      s.upload.popForward c (rest.filterMap uploadForward) := by
  simp only [upload, setLink, Transfer.State.popForward, Transfer.State.mk.injEq, true_and, and_true]
  refine ⟨?_, ?_, ?_⟩ <;> funext d <;> by_cases hd : d = c <;>
    simp [hd]

theorem upload_popTravel (c : Uuid) (rest : List DataFrame) (b : Bool) :
    (s.setLink c { s.links c with toTravel := rest, spawned := b }).upload =
      s.upload.popBackward c (rest.filterMap uploadBackward) := by
  simp only [upload, setLink, Transfer.State.popBackward, Transfer.State.mk.injEq, true_and, and_true]
  refine ⟨?_, ?_, ?_⟩ <;> funext d <;> by_cases hd : d = c <;>
    simp [hd]

theorem download_popTravel (c : Uuid) (rest : List DataFrame) (b : Bool) :
    (s.setLink c { s.links c with toTravel := rest, spawned := b }).download =
      s.download.popForward c (rest.filterMap downloadForward) := by
  simp only [download, setLink, Transfer.State.popForward, Transfer.State.mk.injEq, true_and, and_true]
  refine ⟨?_, ?_, ?_⟩ <;> funext d <;> by_cases hd : d = c <;>
    simp [hd]

theorem download_popHome (c : Uuid) (rest : List DataFrame) :
    (s.setLink c { s.links c with toHome := rest }).download =
      s.download.popBackward c (rest.filterMap downloadBackward) := by
  simp only [download, setLink, Transfer.State.popBackward, Transfer.State.mk.injEq, true_and, and_true]
  refine ⟨?_, ?_, ?_⟩ <;> funext d <;> by_cases hd : d = c <;>
    simp [hd]

theorem upload_setSpawned (c : Uuid) (b : Bool) :
    (s.setLink c { s.links c with spawned := b }).upload = s.upload :=
  (upload_popTravel c (s.links c).toTravel b).trans (Transfer.State.popBackward_self _ _)

theorem download_setSpawned (c : Uuid) (b : Bool) :
    (s.setLink c { s.links c with spawned := b }).download = s.download :=
  (download_popTravel c (s.links c).toTravel b).trans (Transfer.State.popForward_self _ _)

theorem withTravel_nil (t : Travel) : s.withTravel (t, []) = { s with travel := t } := by
  simp [withTravel, Sends.on]

theorem upload_withTravel (t : Travel) {carriers : List Uuid} {c : Uuid} (hc : c ∈ carriers)
    (fs : List DataFrame) :
    (s.withTravel (t, sendTo carriers c fs)).upload =
      ({ s with travel := t }.upload).sendForward (some c) (fs.filterMap uploadForward) := by
  simp only [upload, withTravel, Transfer.State.sendForward, Transfer.State.mk.injEq,
    Link.pushHome_up, Link.pushHome_toTravel, Link.pushHome_toHome, sendTo_on, true_and, and_true]
  funext d
  obtain rfl | hd := eq_or_ne d c
  · split_ifs <;> simp_all
  · simp [hd, hd.symm]

theorem download_withTravel (t : Travel) {carriers : List Uuid} {c : Uuid} (hc : c ∈ carriers)
    (fs : List DataFrame) :
    (s.withTravel (t, sendTo carriers c fs)).download =
      ({ s with travel := t }.download).sendBackward c (fs.filterMap downloadBackward) := by
  simp only [download, withTravel, Transfer.State.sendBackward, Transfer.State.mk.injEq,
    Link.pushHome_up, Link.pushHome_toTravel, Link.pushHome_toHome, sendTo_on, true_and, and_true]
  funext d
  obtain rfl | hd := eq_or_ne d c
  · split_ifs <;> simp_all
  · simp [hd]

theorem upload_withTravel_silent (t : Travel) (carriers : List Uuid) (c : Uuid)
    {fs : List DataFrame} (hf : fs.filterMap uploadForward = []) :
    (s.withTravel (t, sendTo carriers c fs)).upload = { s with travel := t }.upload := by
  by_cases hc : c ∈ carriers
  · rw [upload_withTravel t hc, hf, Transfer.State.sendForward_nil]
  · rw [sendTo, if_neg hc, withTravel_nil]

theorem download_withTravel_silent (t : Travel) (carriers : List Uuid) (c : Uuid)
    {fs : List DataFrame} (hf : fs.filterMap downloadBackward = []) :
    (s.withTravel (t, sendTo carriers c fs)).download = { s with travel := t }.download := by
  by_cases hc : c ∈ carriers
  · rw [download_withTravel t hc, hf, Transfer.State.sendBackward_nil]
  · rw [sendTo, if_neg hc, withTravel_nil]

theorem upload_withHome (h : Home) (oc : Option Uuid) {fs : List DataFrame}
    (hf : fs.any isClose = false) (hb : fs.filterMap uploadBackward = []) :
    (s.withHome oc (h, fs)).upload = { s with home := h }.upload := by
  simp only [upload, withHome, Transfer.State.mk.injEq, true_and, and_true, List.any_append, hf,
    Bool.or_false]
  refine ⟨?_, ?_, ?_⟩ <;> funext d <;> split_ifs
  all_goals simp [Link.pushTravel_toTravel]
  exact fun a _ ha => List.filterMap_eq_nil_iff.mp hb a ha

theorem upload_withHome_reply (h : Home) (c : Uuid) {fs : List DataFrame}
    (hf : fs.any isClose = false) :
    (s.withHome (some c) (h, fs)).upload =
      ({ s with home := h }.upload).sendBackward c (fs.filterMap uploadBackward) := by
  simp only [upload, withHome, Transfer.State.sendBackward, Transfer.State.mk.injEq, true_and,
    and_true, List.any_append, hf, Bool.or_false]
  refine ⟨?_, ?_, ?_⟩ <;> funext d <;> obtain rfl | hd := eq_or_ne d c
  · simp
  · simp [hd.symm]
  · simp
  · simp [hd.symm]
  · simp only [if_true, Link.pushTravel_toTravel, true_and]
    split_ifs <;> simp
  · simp [hd, hd.symm]

/-- A CLOSE frame marks the upload as refused. -/
theorem upload_withHome_close (h : Home) (c : Uuid) (flowId : Uuid) (reason : String) :
    (s.withHome (some c) (h, [.close flowId reason])).upload =
      { ({ s with home := h }).upload with refused := true } := by
  simp only [upload, withHome, Transfer.State.mk.injEq, true_and, and_true, List.any_append,
    isClose, List.any_cons, Bool.true_or, Bool.or_true]
  refine ⟨?_, ?_, ?_⟩ <;> funext d <;> split_ifs
  all_goals simp [Link.pushTravel_toTravel]
  exact fun _ => rfl

theorem download_withHome (h : Home) (oc : Option Uuid) (fs : List DataFrame) :
    (s.withHome oc (h, fs)).download =
      ({ s with home := h }.download).sendForward oc (fs.filterMap downloadForward) := by
  simp only [download, withHome, Transfer.State.sendForward, Transfer.State.mk.injEq, true_and,
    and_true]
  refine ⟨?_, ?_, ?_⟩ <;> funext d <;> by_cases hd : oc = some d
  · simp [hd]
  · simp [hd]
  · simp only [hd, if_true, Link.pushTravel_toTravel, true_and]
    split_ifs <;> simp
  · simp [hd]
  · simp [hd]
  · simp [hd]

theorem download_withHome_silent (h : Home) (oc : Option Uuid) {fs : List DataFrame}
    (hf : fs.filterMap downloadForward = []) :
    (s.withHome oc (h, fs)).download = { s with home := h }.download := by
  rw [download_withHome, hf, Transfer.State.sendForward_nil]

open Relation.ReflTransGen in
theorem upload_quiet (h : s.travel.transfer.send.Counts s.travel.transfer.localReads)
    {r : Travel × Sends} (hr : s.travel.Quiet r) :
    Transfer.Steps s.upload (s.withTravel r).upload := by
  cases hr with
  | ended phase =>
    rw [withTravel_nil]
    exact single .deactivate
  | rephased phase =>
    rw [withTravel_nil]
    exact refl
  | kept p =>
    rw [withTravel_nil]
    exact refl
  | won winner hw =>
    rw [upload_withTravel _ hw, SendQueue.retransmit_upload, h]
    exact single (.activate winner)

theorem hasFailed_of_running (h : s.travel.running = true) : s.travel.hasFailed = false := by
  unfold Travel.running at h
  unfold Travel.hasFailed
  split at h <;> simp_all

open Relation.ReflTransGen in
/-- A change of Travel that writes nothing can only end the download. -/
theorem download_travel {t : Travel} (ho : t.transfer.receiveOffset = s.travel.transfer.receiveOffset)
    (hw : t.transfer.localWriter = s.travel.transfer.localWriter)
    (hr : s.travel.hasFailed = false) :
    Transfer.Steps s.download { s with travel := t }.download := by
  have hstep : ({ s with travel := t }).download =
      { s.download with torn := t.hasFailed, refused := t.hasFailed } := by
    simp only [download, ho, hw]
  rw [hstep]
  cases hf : t.hasFailed with
  | false =>
    have : s.download = { s.download with torn := false, refused := false } := by
      simp only [download, hr]
    rw [← this]
  | true =>
    have := Transfer.Step.refuse (s := s.download) 0 (s.download.forward 0) true
      (List.suffix_refl _)
    simpa using single this

theorem download_quiet (hr : s.travel.running = true) {r : Travel × Sends}
    (hq : s.travel.Quiet r) : Transfer.Steps s.download (s.withTravel r).download := by
  have hf := hasFailed_of_running hr
  cases hq with
  | ended | rephased | kept =>
    rw [withTravel_nil]
    exact download_travel rfl rfl hf
  | won winner hw =>
    rw [download_withTravel_silent _ _ _ (SendQueue.retransmit_downloadBackward _ _ _)]
    exact download_travel rfl rfl hf

section Frames
variable {c : Uuid} {io : Io} {f : DataFrame} {rest : List DataFrame} {carriers : List Uuid}
  {handled : Handled}

theorem suffix_filterMap {β : Type*} (g : DataFrame → Option β) {q : List DataFrame}
    (hq : q = f :: rest) : rest.filterMap g <:+ q.filterMap g := by
  subst hq
  exact (List.suffix_cons f rest).filterMap g

open Relation.ReflTransGen in
/-- Travel takes a frame: what the upload learns of it. -/
theorem upload_frame (hq : (s.links c).toTravel = f :: rest)
    (hcase : FrameCase io s.travel.transfer s.travel.carriers s.travel.active c f handled)
    (t : Travel) (ht : t.transfer = handled.transfer)
    (hactive : t.active = s.travel.active ∨ t.active = none) :
    Transfer.Steps s.upload
      ({ s.setLink c { s.links c with toTravel := rest } with travel := t }).upload := by
  have hpop := upload_popTravel (s := s) c rest (s.links c).spawned
  have hmid : Transfer.Steps s.upload
      ({ s.setLink c { s.links c with toTravel := rest } with
        travel := { s.travel with transfer := handled.transfer } }).upload := by
    have hdrop : Transfer.Steps s.upload
        (s.setLink c { s.links c with toTravel := rest }).upload := by
      rw [hpop]
      exact single (.dropBackward c _ (suffix_filterMap _ hq))
    have hback : s.upload.backward c = (f :: rest).filterMap uploadBackward := by rw [← hq]; rfl
    cases hcase with
    | acked n send hf hn ha =>
      have hstep := Transfer.Step.takeAck (s := s.upload) c n (rest.filterMap uploadBackward)
        (by rw [hback, List.filterMap_cons_some hf.uploadBackward]) hn
      rw [← hpop] at hstep
      convert single hstep using 1
      have hsend := SendQueue.acknowledge_eq_some ha
      simp only [upload, Transfer.State.settle, setLink, SendQueue.chunks_acknowledge ha, hsend.2.1]
    | finAcked hf he =>
      have hstep := Transfer.Step.takeFinAck (s := s.upload) c _ (rest.filterMap uploadBackward)
        (by rw [hback, hf]; rfl)
      rw [← hpop] at hstep
      exact single hstep
    | wrote | partly | known | finAgain | finished | raceAnswer | rejected => exact hdrop
  refine hmid.trans ?_
  have hlast : ({ s.setLink c { s.links c with toTravel := rest } with travel := t }).upload =
      { ({ s.setLink c { s.links c with toTravel := rest } with
        travel := { s.travel with transfer := handled.transfer } }).upload with
        active := t.active } := by
    simp only [upload, ht]
  rw [hlast]
  rcases hactive with h | h
  · rw [h]
    exact refl
  · rw [h]
    exact single .deactivate

/-- What Travel sends back on a Carrier it holds. -/
theorem download_reply {t : Travel} {frames : List DataFrame} (hs : handled.sent = sendTo carriers c frames)
    (hsteps : Transfer.Steps { s with travel := t }.download
      (({ s with travel := t }.download).sendBackward c (frames.filterMap downloadBackward))) :
    Transfer.Steps { s with travel := t }.download (s.withTravel (t, handled.sent)).download := by
  rw [hs]
  by_cases hc : c ∈ carriers
  · rwa [download_withTravel t hc]
  · rw [sendTo, if_neg hc, withTravel_nil]

open Relation.ReflTransGen in
/-- Travel takes a frame and goes on: what the download learns of it. -/
theorem download_frame (h : s.Wired) (hq : (s.links c).toTravel = f :: rest)
    (hcase : FrameCase io s.travel.transfer s.travel.carriers s.travel.active c f handled)
    (hr : s.travel.hasFailed = false) (hok : handled.result = .ok false)
    (t : Travel) (ht : t.transfer = handled.transfer) (hf : t.hasFailed = false) :
    Transfer.Steps s.download
      ((s.setLink c { s.links c with toTravel := rest }).withTravel (t, handled.sent)).download := by
  have hpop := download_popTravel (s := s) c rest (s.links c).spawned
  have hfwd : s.download.forward c = (f :: rest).filterMap downloadForward := by rw [← hq]; rfl
  have htorn : s.download.torn = false := hr
  have hmid : ({ s.setLink c { s.links c with toTravel := rest } with travel := t }).download =
      { s.download.popForward c (rest.filterMap downloadForward) with
        received := handled.transfer.receiveOffset
        written := handled.transfer.localWriter.written
        closedAt := handled.transfer.localWriter.shutdownAt } := by
    rw [← hpop]
    simp only [download, setLink, ht, hf, hr]
  have hsame (hd : downloadForward f = none) :
      s.download.popForward c (rest.filterMap downloadForward) = s.download := by
    rw [← List.filterMap_cons_none hd, ← hfwd, Transfer.State.popForward_self]
  have hack : Transfer.Step
      ({ s.setLink c { s.links c with toTravel := rest } with travel := t }).download
      (({ s.setLink c { s.links c with toTravel := rest } with travel := t }).download.sendBackward
        c [.ack handled.transfer.receiveOffset]) := by
    rw [← ht]
    exact Transfer.Step.sendAck _ hf
  have hfin (hc : handled.transfer.localWriter.shutdownAt.isSome) : Transfer.Step
      ({ s.setLink c { s.links c with toTravel := rest } with travel := t }).download
      (({ s.setLink c { s.links c with toTravel := rest } with travel := t }).download.sendBackward
        c [.finAck handled.transfer.receiveOffset]) := by
    rw [← ht] at hc ⊢
    exact Transfer.Step.sendFinAck _ hc
  cases hcase with
  | wrote bytes hf' =>
    have hstep := Transfer.Step.accept (s := s.download) c bytes (rest.filterMap downloadForward)
      (by rw [hfwd, hf']; rfl) htorn
    exact head (hmid ▸ hstep) (download_reply rfl (single hack))
  | known offset bytes hf' hle =>
    have hstep := Transfer.Step.skipData (s := s.download) c offset bytes
      (rest.filterMap downloadForward) (by rw [hfwd, hf']; rfl) hle
    exact head (hmid ▸ hstep) (download_reply rfl (single hack))
  | finAgain hf' he =>
    have hclosed : s.download.closedAt.isSome := h.travel.transfer.remoteEof ▸ he
    have hstep := Transfer.Step.finish (s := s.download) c (rest.filterMap downloadForward)
      (by rw [hfwd, hf']; rfl) htorn
    have hor : s.download.closedAt.or (some s.download.written.length) = s.download.closedAt := by
      obtain ⟨n, hn⟩ := Option.isSome_iff_exists.mp hclosed
      rw [hn, Option.some_or]
    rw [hor] at hstep
    exact head (hmid ▸ hstep) (download_reply rfl (single (hfin hclosed)))
  | finished hf' =>
    have hstep := Transfer.Step.finish (s := s.download) c (rest.filterMap downloadForward)
      (by rw [hfwd, hf']; rfl) htorn
    exact head (hmid ▸ hstep)
      (download_reply rfl (single (hfin (WriteHalf.shutdown_isSome _))))
  | acked n send hf' hn ha =>
    rw [withTravel_nil, hmid, hsame (by obtain rfl | ⟨w, rfl⟩ := hf' <;> rfl)]
    exact refl
  | finAcked hf' he =>
    rw [withTravel_nil, hmid, hsame (by rw [hf']; rfl)]
    exact refl
  | raceAnswer hf' =>
    rw [withTravel_nil, hmid,
      hsame (by obtain ⟨_, _, _, rfl⟩ | ⟨_, _, _, rfl⟩ := hf' <;> rfl)]
    exact refl
  | partly | rejected => cases hok

open Relation.ReflTransGen in
/-- Travel takes a frame that ends the flow. -/
theorem download_frame_failed (hq : (s.links c).toTravel = f :: rest)
    (hcase : FrameCase io s.travel.transfer s.travel.carriers s.travel.active c f handled)
    (hr : s.travel.hasFailed = false) {error : TravelError} (he : handled.result = .error error)
    (t : Travel) (ht : t.transfer = handled.transfer) (hf : t.hasFailed = true) :
    Transfer.Steps s.download
      ({ s.setLink c { s.links c with toTravel := rest } with travel := t }).download := by
  have hpop := download_popTravel (s := s) c rest (s.links c).spawned
  have hfwd : s.download.forward c = (f :: rest).filterMap downloadForward := by rw [← hq]; rfl
  have hmid : ({ s.setLink c { s.links c with toTravel := rest } with travel := t }).download =
      { s.download.popForward c (rest.filterMap downloadForward) with
        received := handled.transfer.receiveOffset
        written := handled.transfer.localWriter.written
        closedAt := handled.transfer.localWriter.shutdownAt
        torn := true
        refused := true } := by
    rw [← hpop]
    simp only [download, setLink, ht, hf]
  rw [hmid]
  cases hcase with
  | partly bytes delivered reason hf' =>
    exact single (.tear c bytes _ delivered (bytes.take delivered).length
      (by rw [hfwd, hf']; rfl) hr le_rfl)
  | rejected error =>
    have hstep := Transfer.Step.refuse (s := s.download) c (rest.filterMap downloadForward) true
      (hfwd ▸ suffix_filterMap downloadForward rfl)
    rw [Bool.or_true] at hstep
    exact single hstep
  | wrote | known | finAgain | finished | acked | finAcked | raceAnswer => cases he

end Frames

section TravelSteps
variable {c : Uuid} {io : Io} {s' : Sys}

theorem upload_travelFrame (h : s.Wired) (hs : s.travelFrame c io = some s') :
    Transfer.Steps s.upload s'.upload := by
  obtain ⟨f, rest, r, -, hq, hr, rfl⟩ := travelFrame_cases hs
  have hcase := handleFrame_cases io s.travel.transfer s.travel.carriers s.travel.active c f
  cases Travel.event_cases hr with
  | decided race winner hp hw =>
    have hpop : Transfer.Steps s.upload (s.setLink c { s.links c with toTravel := rest }).upload := by
      rw [upload_popTravel (s := s) c rest (s.links c).spawned]
      exact .single (.dropBackward c _ (suffix_filterMap _ hq))
    exact hpop.trans (upload_quiet (s := s.setLink c { s.links c with toTravel := rest })
      h.travel.transfer.counts (Travel.endRace_quiet (h.travel.oldActive race hp)))
  | failed error he =>
    rw [Travel.fail, withTravel_nil]
    exact upload_frame hq hcase _ rfl (.inr rfl)
  | closed race d hp he => cases he
  | handled phase closed hp hok =>
    have hcl : closed = false := by
      cases closed with
      | false => rfl
      | true => exact absurd hok hcase.result_ne
    subst hcl
    obtain ⟨fs, hfs, hsilent⟩ := hcase.sent_silent
    have hsent : (handleEvent (.carrierFrame c f) io s.travel.transfer s.travel.carriers
      s.travel.active).sent = sendTo s.travel.carriers c fs := hfs
    rw [hsent, upload_withTravel_silent _ _ _ hsilent]
    exact upload_frame hq hcase _ rfl (.inl rfl)

theorem download_travelFrame (h : s.Wired) (hs : s.travelFrame c io = some s') :
    Transfer.Steps s.download s'.download := by
  obtain ⟨f, rest, r, -, hq, hr, rfl⟩ := travelFrame_cases hs
  have hcase := handleFrame_cases io s.travel.transfer s.travel.carriers s.travel.active c f
  have hrun := Travel.event_running hr
  have hf := hasFailed_of_running hrun
  cases Travel.event_cases hr with
  | decided race winner hp hw =>
    have hnone : downloadForward f = none := Travel.raceWinner_downloadForward hw
    have hpop : s.download = (s.setLink c { s.links c with toTravel := rest }).download := by
      rw [download_popTravel (s := s) c rest (s.links c).spawned, ← List.filterMap_cons_none hnone,
        ← hq]
      exact (Transfer.State.popForward_self _ _).symm
    rw [hpop]
    exact download_quiet (s := s.setLink c { s.links c with toTravel := rest }) hrun
      (Travel.endRace_quiet (h.travel.oldActive race hp))
  | failed error he =>
    rw [Travel.fail, withTravel_nil]
    exact download_frame_failed hq hcase hf he _ rfl rfl
  | closed race d hp he => cases he
  | handled phase closed hp hok =>
    have hcl : closed = false := by
      cases closed with
      | false => rfl
      | true => exact absurd hok hcase.result_ne
    subst hcl
    refine download_frame h hq hcase hf hok _ rfl ?_
    obtain ⟨race, -, rfl, -⟩ | ⟨-, rfl⟩ := hp <;> rfl

theorem download_fail (hr : s.travel.running = true) (error : TravelError) :
    Transfer.Steps s.download (s.withTravel (s.travel.fail error)).download :=
  download_quiet hr (.fail _ _)

/-- An event of Travel that leaves the download alone. -/
theorem download_event {ev : FlowEvent} (h : s.Wired) {r : Travel × Sends}
    (hr : s.travel.event ev io = some r) (hev : ∀ c f, ev ≠ .carrierFrame c f) :
    Transfer.Steps s.download (s.withTravel r).download := by
  have hrun := Travel.event_running hr
  have hf := hasFailed_of_running hrun
  have htransfer : ∀ t : Travel,
      t.transfer = (handleEvent ev io s.travel.transfer s.travel.carriers s.travel.active).transfer →
      Transfer.Steps s.download { s with travel := t }.download := by
    intro t ht
    refine download_travel ?_ ?_ hf <;> rw [ht]
    · exact (handleEvent_writes hev).1
    · exact (handleEvent_writes hev).2
  cases Travel.event_cases hr with
  | decided race winner hp hw =>
    cases ev with
    | carrierFrame c f => exact absurd rfl (hev c f)
    | localData | localEof | localError | carrierClosed => cases hw
  | failed error he =>
    rw [Travel.fail, withTravel_nil]
    exact htransfer _ rfl
  | closed race c hp he =>
    subst he
    have hmid : Transfer.Steps s.download { s with travel := s.travel.without c }.download :=
      download_travel rfl rfl hf
    exact hmid.trans (download_quiet (s := { s with travel := s.travel.without c }) hrun
      (Travel.continueRace_quiet (h.travel.without_old hp c)))
  | handled phase closed hp hok =>
    obtain ⟨oc, fs, hsent, hsilent⟩ := handleEvent_sent io s.travel.transfer s.travel.carriers
      s.travel.active hev
    rw [hsent, download_withTravel_silent _ _ _ hsilent]
    exact htransfer _ rfl

/-- What Travel sends on its active Carrier. -/
theorem upload_sendActive (h : s.travel.Ok) (t : Travel) {sent : Sends} {l : List DataFrame}
    (hnone : s.travel.active = none → sent = [])
    (hsome : ∀ c, s.travel.active = some c → sent = sendTo s.travel.carriers c l) :
    (s.withTravel (t, sent)).upload =
      ({ s with travel := t }.upload).sendForward s.travel.active
        (l.filterMap uploadForward) := by
  cases hact : s.travel.active with
  | none =>
    rw [hnone hact, withTravel_nil, Transfer.State.sendForward_none]
  | some c =>
    rw [hsome c hact]
    exact upload_withTravel t (h.active c hact) l

theorem upload_fail (error : TravelError) :
    Transfer.Steps s.upload (s.withTravel (s.travel.fail error)).upload := by
  rw [Travel.fail, withTravel_nil]
  exact .single .deactivate

theorem upload_localData (h : s.Wired) {bytes : Bytes} (hne : bytes ≠ [])
    (heof : s.travel.transfer.localEof = false) {r : Travel × Sends}
    (hr : s.travel.event (.localData bytes) io = some r) :
    Transfer.Steps s.upload (s.withTravel r).upload := by
  cases Travel.event_cases hr with
  | decided race winner hp hw => cases hw
  | closed race c hp he => cases he
  | failed error he =>
    simp only [handleEvent] at he ⊢
    split_ifs at he ⊢
    exact upload_fail error
  | handled phase closed hp hok =>
    by_cases hlim : s.travel.transfer.send.unackedBytes + bytes.length >
        s.travel.transfer.maxUnackedBytes
    · simp only [handleEvent, if_pos hlim] at hok
      cases hok
    simp only [handleEvent, if_neg hlim] at hok ⊢
    obtain rfl : false = closed := Except.ok.inj hok
    rw [upload_sendActive h.travel (l := [.data s.travel.transfer.flowId
      s.travel.transfer.send.sendOffset bytes]) _ (fun hn => by simp only [hn])
      (fun c hc => by simp only [hc])]
    have hstep := Transfer.Step.read (s := s.upload) bytes hne heof
    have hsent : s.upload.sent = s.travel.transfer.send.sendOffset := h.travel.transfer.counts.symm
    rw [hsent] at hstep
    convert Relation.ReflTransGen.single hstep using 1
    simp only [upload, SendQueue.chunks_push, Transfer.State.sendForward]
    rfl

theorem upload_localEof (h : s.Wired) {r : Travel × Sends}
    (hr : s.travel.event .localEof io = some r) :
    Transfer.Steps s.upload (s.withTravel r).upload := by
  cases Travel.event_cases hr with
  | decided race winner hp hw => cases hw
  | closed race c hp he => cases he
  | failed error he => cases he
  | handled phase closed hp hok =>
    obtain rfl : false = closed := Except.ok.inj hok
    simp only [handleEvent]
    rw [upload_sendActive h.travel (l := [.fin s.travel.transfer.flowId
      s.travel.transfer.send.sendOffset]) _ (fun hn => by simp only [hn])
      (fun c hc => by simp only [hc])]
    have hstep := Transfer.Step.endRead (s := s.upload)
    have hsent : s.upload.sent = s.travel.transfer.send.sendOffset := h.travel.transfer.counts.symm
    rw [hsent] at hstep
    exact .single hstep

theorem upload_localError {reason : String} {r : Travel × Sends}
    (hr : s.travel.event (.localError reason) io = some r) :
    Transfer.Steps s.upload (s.withTravel r).upload := by
  cases Travel.event_cases hr with
  | decided race winner hp hw => cases hw
  | closed race c hp he => cases he
  | failed error he => exact upload_fail error
  | handled phase closed hp hok => cases hok

theorem upload_carrierClosed (h : s.Wired) {r : Travel × Sends}
    (hr : s.travel.event (.carrierClosed c) io = some r) :
    Transfer.Steps s.upload (s.withTravel r).upload := by
  have hwithout : ∀ t : Travel, t.transfer = s.travel.transfer →
      t.active = s.travel.active ∨ t.active = none →
      Transfer.Steps s.upload { s with travel := t }.upload := by
    intro t ht ha
    have hstep : ({ s with travel := t }).upload = { s.upload with active := t.active } := by
      simp only [upload, ht]
    rw [hstep]
    rcases ha with ha | ha
    · rw [ha]
      exact .refl
    · rw [ha]
      exact .single .deactivate
  cases Travel.event_cases hr with
  | decided race winner hp hw => cases hw
  | failed error he => cases he
  | closed race d hp he =>
    obtain rfl := FlowEvent.carrierClosed.inj he
    have hmid := hwithout (s.travel.without c) rfl (by
      unfold Travel.without
      split_ifs <;> simp)
    exact hmid.trans (upload_quiet (s := { s with travel := s.travel.without c })
      h.travel.transfer.counts (Travel.continueRace_quiet (h.travel.without_old hp c)))
  | handled phase closed hp hok =>
    simp only [handleEvent, withTravel_nil]
    exact hwithout _ rfl (by cases closed <;> simp)

theorem upload_travelOpened (hs : s.travelOpened c = some s') :
    Transfer.Steps s.upload s'.upload := by
  obtain ⟨n, m, v, rest, r, hq, hr, rfl⟩ := travelOpened_cases hs
  have hpop := upload_popTravel (s := s) c rest true
  obtain ⟨-, ⟨error, rfl⟩ | ⟨race, send, -, -, hn, ha, rfl⟩⟩ := Travel.opened_cases hr
  · have hdrop : Transfer.Steps s.upload
        (s.setLink c { s.links c with toTravel := rest, spawned := true }).upload := by
      rw [hpop]
      exact .single (.dropBackward c _ (suffix_filterMap _ hq))
    exact hdrop.trans (upload_fail (s := s.setLink c
      { s.links c with toTravel := rest, spawned := true }) error)
  · have hstep := Transfer.Step.takeAck (s := s.upload) c n (rest.filterMap uploadBackward)
      (by
        have : s.upload.backward c = (s.links c).toTravel.filterMap uploadBackward := rfl
        rw [this, hq]
        rfl) hn
    rw [← hpop] at hstep
    have hsend := SendQueue.acknowledge_eq_some ha
    have hsent : [(c, DataFrame.race s.travel.transfer.flowId race.raceId send.sendAcked)] =
        sendTo (c :: s.travel.carriers) c
          [.race s.travel.transfer.flowId race.raceId send.sendAcked] := by simp [sendTo]
    rw [hsent, upload_withTravel _ List.mem_cons_self]
    refine .head hstep (.single ?_)
    convert Transfer.Step.probe c using 1
    simp only [upload, Transfer.State.settle, setLink, SendQueue.chunks_acknowledge ha, hsend.2.1]
    rfl

theorem download_travelOpened (hs : s.travelOpened c = some s') :
    Transfer.Steps s.download s'.download := by
  obtain ⟨n, m, v, rest, r, hq, hr, rfl⟩ := travelOpened_cases hs
  have hpop : (s.setLink c { s.links c with toTravel := rest, spawned := true }).download =
      s.download := by
    rw [download_popTravel (s := s) c rest true]
    have hfwd : s.download.forward c = rest.filterMap downloadForward := by
      have : s.download.forward c = (s.links c).toTravel.filterMap downloadForward := rfl
      rw [this, hq]
      rfl
    rw [← hfwd, Transfer.State.popForward_self]
  obtain ⟨hrun, ⟨error, rfl⟩ | ⟨race, send, -, -, -, ha, rfl⟩⟩ := Travel.opened_cases hr
  · rw [← hpop]
    exact download_fail (s := s.setLink c
      { s.links c with toTravel := rest, spawned := true }) hrun error
  · have hsent : [(c, DataFrame.race s.travel.transfer.flowId race.raceId send.sendAcked)] =
        sendTo (c :: s.travel.carriers) c
          [.race s.travel.transfer.flowId race.raceId send.sendAcked] := by simp [sendTo]
    rw [hsent, download_withTravel_silent _ _ _ rfl]
    rw [← hpop]
    exact download_travel (s := s.setLink c
      { s.links c with toTravel := rest, spawned := true }) rfl rfl (hasFailed_of_running hrun)

end TravelSteps

section HomeSteps
variable {c : Uuid} {io : Io} {f : DataFrame} {rest : List DataFrame} {s' : Sys}

theorem home_hasFailed_of_running (h : s.home.phase = .running) : s.home.hasFailed = false := by
  simp [Home.hasFailed, h]

open Relation.ReflTransGen in
/-- A change of Home that writes nothing can only end the upload. -/
theorem upload_home {h : Home} (ho : h.receiveOffset = s.home.receiveOffset)
    (hw : h.targetWriter = s.home.targetWriter) (hr : s.home.hasFailed = false) :
    Transfer.Steps s.upload { s with home := h }.upload := by
  have hstep : ({ s with home := h }).upload =
      { s.upload with
        torn := h.hasFailed, refused := h.hasFailed || s.homeSent.any isClose } := by
    simp only [upload, ho, hw]
  rw [hstep]
  cases hf : h.hasFailed with
  | false =>
    have : s.upload = { s.upload with
        torn := false, refused := false || s.homeSent.any isClose } := by
      simp only [upload, hr]
    rw [← this]
  | true =>
    have := Transfer.Step.refuse (s := s.upload) 0 (s.upload.forward 0) true (List.suffix_refl _)
    simpa using single this

/-- A change of Home that neither reads nor takes acknowledgements can only turn it away from
its active Carrier. -/
theorem download_home {h : Home} (hr : h.targetReads = s.home.targetReads)
    (he : h.targetEof = s.home.targetEof) (hq : h.send = s.home.send)
    (hf : h.targetFinAcked = s.home.targetFinAcked)
    (ha : h.activeCarrier = s.home.activeCarrier ∨ h.activeCarrier = none) :
    Transfer.Steps s.download { s with home := h }.download := by
  have hstep : ({ s with home := h }).download =
      { s.download with active := h.activeCarrier } := by
    simp only [download, hr, he, hq, hf]
  rw [hstep]
  rcases ha with ha | ha
  · rw [ha]
    exact .refl
  · rw [ha]
    exact .single .deactivate

theorem upload_homeFail (hr : s.home.phase = .running) (error : HomeError) :
    Transfer.Steps s.upload { s with home := (s.home.fail error).1 }.upload :=
  upload_home rfl rfl (home_hasFailed_of_running hr)

theorem download_homeFail (error : HomeError) :
    Transfer.Steps s.download { s with home := (s.home.fail error).1 }.download :=
  download_home rfl rfl rfl rfl (.inr rfl)

theorem withHome_nil (oc : Option Uuid) (h : Home) :
    s.withHome oc (h, []) = { s with home := h } := by
  simp [withHome]

open Relation.ReflTransGen in
/-- Home takes a frame: what the upload learns of it. -/
theorem upload_homeFrame (h : s.Wired) (hs : s.homeFrame c io = some s') :
    Transfer.Steps s.upload s'.upload := by
  obtain ⟨f, rest, r, hq, hc, hr, rfl⟩ := homeFrame_cases hs
  obtain ⟨hrun, -, hcase⟩ := Home.frame_cases hr
  have hf := home_hasFailed_of_running hrun
  have hpop := upload_popHome (s := s) c rest
  have hfwd : s.upload.forward c = (f :: rest).filterMap uploadForward := by rw [← hq]; rfl
  have htorn : s.upload.torn = false := hf
  have hmid : ∀ h' : Home, h'.hasFailed = false →
      ({ s.setLink c { s.links c with toHome := rest } with home := h' }).upload =
        { s.upload.popForward c (rest.filterMap uploadForward) with
          received := h'.receiveOffset
          written := h'.targetWriter.written
          closedAt := h'.targetWriter.shutdownAt } := by
    intro h' hh
    rw [← hpop]
    simp only [upload, setLink, hh, hf]
  have hsame (hd : uploadForward f = none) :
      s.upload.popForward c (rest.filterMap uploadForward) = s.upload := by
    rw [← List.filterMap_cons_none hd, ← hfwd, Transfer.State.popForward_self]
  have hfail : ∀ error, ({ s.setLink c { s.links c with toHome := rest } with
      home := (s.home.fail error).1 }).upload =
        { s.upload.popForward c (rest.filterMap uploadForward) with
          torn := true, refused := true } := by
    intro error
    rw [← hpop]
    rfl
  have hack : ∀ h' : Home, h'.hasFailed = false → Transfer.Step
      ({ s.setLink c { s.links c with toHome := rest } with home := h' }).upload
      (({ s.setLink c { s.links c with toHome := rest } with home := h' }).upload.sendBackward c
        [.ack h'.receiveOffset]) := fun h' hh => Transfer.Step.sendAck _ hh
  cases hcase with
  | raceKnown raceId n winner hf' hw =>
    rw [upload_withHome _ _ rfl rfl, hmid _ hf]
    exact single (.skipProbe c n _ (by rw [hfwd, hf']; rfl))
  | raceDecided raceId n hf' hw =>
    rw [upload_withHome _ _ (by simp [SendQueue.retransmit_any_isClose, isClose])
      (by rw [List.filterMap_cons_none rfl, SendQueue.retransmit_uploadBackward]),
      hmid { s.home.remember raceId c with activeCarrier := some c } hf]
    exact single (.skipProbe c n _ (by rw [hfwd, hf']; rfl))
  | wrote bytes hf' hc =>
    have hstep := Transfer.Step.accept (s := s.upload) c bytes (rest.filterMap uploadForward)
      (by rw [hfwd, hf']; rfl) htorn
    rw [upload_withHome_reply _ _ rfl]
    refine head ?_ (single (hack _ hf))
    rw [hmid { s.home with
      targetWriter := s.home.targetWriter.write bytes
      receiveOffset := s.home.receiveOffset + bytes.length } hf]
    exact hstep
  | partly bytes delivered reason hf' hc =>
    rw [Home.fail, withHome_nil]
    have hstep := Transfer.Step.tear (s := s.upload) c bytes (rest.filterMap uploadForward)
      delivered 0 (by rw [hfwd, hf']; rfl) htorn (Nat.zero_le _)
    rw [← hpop] at hstep
    exact single hstep
  | known offset bytes hf' hle =>
    have hstep := Transfer.Step.skipData (s := s.upload) c offset bytes
      (rest.filterMap uploadForward) (by rw [hfwd, hf']; rfl) hle
    rw [upload_withHome_reply _ _ rfl]
    refine head ?_ (single (hack _ hf))
    rw [hmid _ hf]
    exact hstep
  | acked n send hf' hn ha =>
    rw [withHome_nil, hmid { s.home with send := send } hf,
      hsame (by obtain rfl | ⟨w, rfl⟩ := hf' <;> rfl)]
    exact refl
  | finAgain hf' he =>
    have hclosed : s.upload.closedAt.isSome := h.home.travelEof ▸ he
    have hstep := Transfer.Step.finish (s := s.upload) c (rest.filterMap uploadForward)
      (by rw [hfwd, hf']; rfl) htorn
    have hor : s.upload.closedAt.or (some s.upload.written.length) = s.upload.closedAt := by
      obtain ⟨n, hn⟩ := Option.isSome_iff_exists.mp hclosed
      rw [hn, Option.some_or]
    rw [hor] at hstep
    rw [upload_withHome_reply _ _ rfl]
    refine head ?_ (single (Transfer.Step.sendFinAck c hclosed))
    rw [hmid _ hf]
    exact hstep
  | finished hf' =>
    have hstep := Transfer.Step.finish (s := s.upload) c (rest.filterMap uploadForward)
      (by rw [hfwd, hf']; rfl) htorn
    rw [upload_withHome_reply _ _ rfl]
    refine head ?_ (single (Transfer.Step.sendFinAck c (WriteHalf.shutdown_isSome _)))
    rw [hmid { s.home with
      targetWriter := s.home.targetWriter.shutdown, travelEof := true } hf]
    exact hstep
  | finAcked hf' he =>
    rw [withHome_nil, hmid { s.home with targetFinAcked := true } hf,
      hsame (by rw [hf']; rfl)]
    exact refl
  | rejected reason =>
    have hstep := Transfer.Step.refuse (s := s.upload) c (rest.filterMap uploadForward) false
      (hfwd ▸ suffix_filterMap uploadForward rfl)
    rw [upload_withHome_close, hmid _ hf]
    rw [Bool.or_false] at hstep
    exact single hstep
  | failed error =>
    have hstep := Transfer.Step.refuse (s := s.upload) c (rest.filterMap uploadForward) true
      (hfwd ▸ suffix_filterMap uploadForward rfl)
    rw [Bool.or_true] at hstep
    rw [Home.fail, withHome_nil]
    exact single (hfail error ▸ hstep)

open Relation.ReflTransGen in
/-- Home takes a frame: what the download learns of it. -/
theorem download_homeFrame (h : s.Wired) (hs : s.homeFrame c io = some s') :
    Transfer.Steps s.download s'.download := by
  obtain ⟨f, rest, r, hq, -, hr, rfl⟩ := homeFrame_cases hs
  obtain ⟨-, -, hcase⟩ := Home.frame_cases hr
  have hpop := download_popHome (s := s) c rest
  have hback : s.download.backward c = (f :: rest).filterMap downloadBackward := by
    rw [← hq]; rfl
  have hdrop : Transfer.Step s.download
      (s.setLink c { s.links c with toHome := rest }).download := by
    rw [hpop]
    exact .dropBackward c _ (hback ▸ suffix_filterMap downloadBackward rfl)
  cases hcase with
  | raceKnown | wrote | known | finAgain | finished | rejected =>
    rw [download_withHome_silent _ _ rfl]
    exact single hdrop
  | raceDecided raceId n hf' hw =>
    rw [download_withHome, List.filterMap_cons_none rfl, SendQueue.retransmit_download,
      h.home.counts]
    exact head hdrop (single (.activate c))
  | partly | failed =>
    rw [Home.fail, withHome_nil]
    exact head hdrop (single .deactivate)
  | acked n send hf' hn ha =>
    have hstep := Transfer.Step.takeAck (s := s.download) c n (rest.filterMap downloadBackward)
      (by rw [hback, List.filterMap_cons_some hf'.downloadBackward]) hn
    rw [← hpop] at hstep
    rw [withHome_nil]
    convert single hstep using 1
    have hsend := SendQueue.acknowledge_eq_some ha
    simp only [download, Transfer.State.settle, setLink, SendQueue.chunks_acknowledge ha, hsend.2.1]
  | finAcked hf' he =>
    have hstep := Transfer.Step.takeFinAck (s := s.download) c _ (rest.filterMap downloadBackward)
      (by rw [hback, hf']; rfl)
    rw [← hpop] at hstep
    rw [withHome_nil]
    exact single hstep

theorem upload_setOffered (b : Bool) :
    (s.setLink c { s.links c with offered := b }).upload = s.upload := by
  simp only [upload, setLink, Transfer.State.mk.injEq, true_and, and_true]
  refine ⟨?_, ?_, ?_⟩ <;> funext d <;> by_cases hd : d = c <;> simp [hd]

theorem download_setOffered (b : Bool) :
    (s.setLink c { s.links c with offered := b }).download = s.download := by
  simp only [download, setLink, Transfer.State.mk.injEq, true_and, and_true]
  refine ⟨?_, ?_, ?_⟩ <;> funext d <;> by_cases hd : d = c <;> simp [hd]

theorem upload_homeAttach {written : Bool} (hs : s.homeAttach c written = some s') :
    Transfer.Steps s.upload s'.upload := by
  obtain ⟨r, -, hr, rfl⟩ := homeAttach_cases hs
  rw [← upload_setOffered (s := s) (c := c) false]
  simp only [Home.attach] at hr
  split_ifs at hr with hg hc hw <;> obtain rfl := Option.some.inj hr
  · rw [withHome_nil]
    exact .refl
  · have hf : s.home.hasFailed = false := home_hasFailed_of_running hg.1
    rw [upload_withHome_reply _ _ rfl]
    exact .single (.sendAck c hf)
  · rw [Home.fail, withHome_nil]
    exact upload_homeFail (s := s.setLink c { s.links c with offered := false }) hg.1 _

theorem download_homeAttach {written : Bool} (hs : s.homeAttach c written = some s') :
    Transfer.Steps s.download s'.download := by
  obtain ⟨r, -, hr, rfl⟩ := homeAttach_cases hs
  rw [← download_setOffered (s := s) (c := c) false]
  simp only [Home.attach] at hr
  split_ifs at hr with hg hc hw <;> obtain rfl := Option.some.inj hr
  · rw [withHome_nil]
    exact .refl
  · rw [download_withHome_silent _ _ rfl]
    exact .refl
  · rw [Home.fail, withHome_nil]
    exact download_homeFail (s := s.setLink c { s.links c with offered := false }) _

theorem upload_targetData {bytes : Bytes} {r : Home × List DataFrame}
    (hr : s.home.targetData bytes = some r) :
    Transfer.Steps s.upload (s.withHome s.home.activeCarrier r).upload := by
  simp only [Home.targetData] at hr
  split_ifs at hr with hg <;> obtain rfl := Option.some.inj hr
  · rw [Home.fail, withHome_nil]
    exact upload_homeFail hg.1 _
  · rw [upload_withHome _ _ rfl rfl]
    exact upload_home rfl rfl (home_hasFailed_of_running hg.1)

theorem download_targetData (h : s.Wired) {bytes : Bytes} (hne : bytes ≠ [])
    (heof : s.home.targetEof = false) {r : Home × List DataFrame}
    (hr : s.home.targetData bytes = some r) :
    Transfer.Steps s.download (s.withHome s.home.activeCarrier r).download := by
  simp only [Home.targetData] at hr
  split_ifs at hr <;> obtain rfl := Option.some.inj hr
  · rw [Home.fail, withHome_nil]
    exact download_homeFail _
  · have hstep := Transfer.Step.read (s := s.download) bytes hne heof
    have hsent : s.download.sent = s.home.send.sendOffset := h.home.counts.symm
    rw [hsent] at hstep
    rw [download_withHome]
    convert Relation.ReflTransGen.single hstep using 1
    simp only [download, SendQueue.chunks_push, Transfer.State.sendForward]
    rfl

theorem upload_targetEnd {r : Home × List DataFrame} (hr : s.home.targetEnd = some r) :
    Transfer.Steps s.upload (s.withHome s.home.activeCarrier r).upload := by
  simp only [Home.targetEnd] at hr
  split_ifs at hr with hg
  obtain rfl := Option.some.inj hr
  rw [upload_withHome _ _ rfl rfl]
  exact upload_home rfl rfl (home_hasFailed_of_running hg.1)

theorem download_targetEnd (h : s.Wired) {r : Home × List DataFrame}
    (hr : s.home.targetEnd = some r) :
    Transfer.Steps s.download (s.withHome s.home.activeCarrier r).download := by
  simp only [Home.targetEnd] at hr
  split_ifs at hr with hg
  obtain rfl := Option.some.inj hr
  have hstep := Transfer.Step.endRead (s := s.download)
  have hsent : s.download.sent = s.home.send.sendOffset := h.home.counts.symm
  rw [hsent] at hstep
  rw [download_withHome]
  exact .single hstep

theorem upload_homeCarrierClosed (hs : s.homeCarrierClosed c = some s') :
    Transfer.Steps s.upload s'.upload := by
  obtain ⟨h, -, -, -, hr, rfl⟩ := homeCarrierClosed_cases hs
  simp only [Home.carrierClosed] at hr
  split_ifs at hr with hg <;> obtain rfl := Option.some.inj hr <;>
    exact upload_home rfl rfl (home_hasFailed_of_running hg.1)

theorem download_homeCarrierClosed (hs : s.homeCarrierClosed c = some s') :
    Transfer.Steps s.download s'.download := by
  obtain ⟨h, -, -, -, hr, rfl⟩ := homeCarrierClosed_cases hs
  simp only [Home.carrierClosed] at hr
  split_ifs at hr <;> obtain rfl := Option.some.inj hr
  · exact download_home rfl rfl rfl rfl (.inr rfl)
  · exact download_home rfl rfl rfl rfl (.inl rfl)

theorem upload_homeFinish {drained : Bool} {h : Home} (hr : s.home.finish drained = some h) :
    Transfer.Steps s.upload { s with home := h }.upload := by
  simp only [Home.finish] at hr
  split_ifs at hr with hg <;> obtain rfl := Option.some.inj hr
  · exact upload_home rfl rfl (home_hasFailed_of_running hg.1)
  · exact upload_homeFail hg.1 _

theorem download_homeFinish {drained : Bool} {h : Home} (hr : s.home.finish drained = some h) :
    Transfer.Steps s.download { s with home := h }.download := by
  simp only [Home.finish] at hr
  split_ifs at hr <;> obtain rfl := Option.some.inj hr
  · exact download_home rfl rfl rfl rfl (.inr rfl)
  · exact download_homeFail _

theorem upload_homeStop {reason : String} {h : Home} (hr : s.home.stop reason = some h) :
    Transfer.Steps s.upload { s with home := h }.upload := by
  simp only [Home.stop] at hr
  split_ifs at hr with hg
  obtain rfl := Option.some.inj hr
  exact upload_homeFail hg _

theorem download_homeStop {reason : String} {h : Home} (hr : s.home.stop reason = some h) :
    Transfer.Steps s.download { s with home := h }.download := by
  simp only [Home.stop] at hr
  split_ifs at hr
  obtain rfl := Option.some.inj hr
  exact download_homeFail _

end HomeSteps

section Links
variable {c : Uuid} {s' : Sys}

theorem upload_close {n m : ℕ} (hs : s.close c n m = some s') :
    Transfer.Steps s.upload s'.upload := by
  obtain ⟨-, rfl⟩ := close_cases hs
  have hstep := Transfer.Step.lose (s := s.upload) c
    (((s.links c).toHome.take n).filterMap uploadForward)
    (((s.links c).toTravel.take m).filterMap uploadBackward)
    ((List.take_prefix _ _).filterMap _) ((List.take_prefix _ _).filterMap _)
  convert Relation.ReflTransGen.single hstep using 1
  simp only [upload, setLink, Transfer.State.mk.injEq, true_and, and_true]
  refine ⟨?_, ?_, ?_⟩ <;> funext d <;> by_cases hd : d = c <;> simp [hd]

theorem download_close {n m : ℕ} (hs : s.close c n m = some s') :
    Transfer.Steps s.download s'.download := by
  obtain ⟨-, rfl⟩ := close_cases hs
  have hstep := Transfer.Step.lose (s := s.download) c
    (((s.links c).toTravel.take m).filterMap downloadForward)
    (((s.links c).toHome.take n).filterMap downloadBackward)
    ((List.take_prefix _ _).filterMap _) ((List.take_prefix _ _).filterMap _)
  convert Relation.ReflTransGen.single hstep using 1
  simp only [download, setLink, Transfer.State.mk.injEq, true_and, and_true]
  refine ⟨?_, ?_, ?_⟩ <;> funext d <;> by_cases hd : d = c <;> simp [hd]

/-- What a race offers are fresh Carriers, open and empty. -/
theorem offer_links (h : s.Wired) (count : ℕ) {c : Uuid} (hc : c ∈ opening (s.fresh + 1) count) :
    s.links c = {} ∧ s.travel.active ≠ some c ∧ s.home.activeCarrier ≠ some c := by
  obtain ⟨hl, ht, hh⟩ := h.fresh c ((Nat.le_succ _).trans (mem_opening.mp hc).1)
  exact ⟨hl, fun ha => ht (h.travel.active c ha), fun ha => hh (h.home.active c ha)⟩

theorem upload_offer (h : s.Wired) (count : ℕ) :
    Transfer.Step s.upload (s.offer (opening (s.fresh + 1) count)).upload := by
  have hstep := Transfer.Step.open (s := s.upload)
    (fun c => if c ∈ opening (s.fresh + 1) count then true else (s.links c).up)
    (by
      intro c hne
      split_ifs at hne with hc
      · obtain ⟨hl, ha, -⟩ := offer_links h count hc
        exact ⟨by simp [upload, hl], by simp [upload, hl], ha⟩
      · exact absurd rfl hne)
  convert hstep using 1
  simp only [upload, offer, Transfer.State.mk.injEq, true_and, and_true]
  refine ⟨?_, ?_, ?_⟩ <;> funext c <;> by_cases hc : c ∈ opening (s.fresh + 1) count
  all_goals simp [hc]
  all_goals simp [(offer_links h count hc).1]

theorem download_offer (h : s.Wired) (count : ℕ) :
    Transfer.Step s.download (s.offer (opening (s.fresh + 1) count)).download := by
  have hstep := Transfer.Step.open (s := s.download)
    (fun c => if c ∈ opening (s.fresh + 1) count then true else (s.links c).up)
    (by
      intro c hne
      split_ifs at hne with hc
      · obtain ⟨hl, -, ha⟩ := offer_links h count hc
        exact ⟨by simp [download, hl], by simp [download, hl], ha⟩
      · exact absurd rfl hne)
  convert hstep using 1
  simp only [download, offer, Transfer.State.mk.injEq, true_and, and_true]
  refine ⟨?_, ?_, ?_⟩ <;> funext c <;> by_cases hc : c ∈ opening (s.fresh + 1) count
  all_goals simp [hc]
  all_goals simp [(offer_links h count hc).1]

theorem upload_travelRace (h : s.Wired) {count : ℕ} {r : Travel × Sends}
    (hr : s.travel.beginRace s.fresh (opening (s.fresh + 1) count) = some r) :
    Transfer.Steps s.upload ((s.offer (opening (s.fresh + 1) count)).withTravel r).upload := by
  obtain ⟨-, sent, rfl, hnone, hsome⟩ := beginRace_eq hr
  refine .head (upload_offer h count) ?_
  have hsend := upload_sendActive (s := s.offer (opening (s.fresh + 1) count)) h.travel
    { s.travel with
      phase := .racing ⟨s.fresh, s.travel.active, [], opening (s.fresh + 1) count⟩ } hnone hsome
  rw [hsend]
  have hactive : (s.offer (opening (s.fresh + 1) count)).travel.active = s.travel.active := rfl
  rw [hactive]
  cases s.travel.active with
  | none =>
    rw [Transfer.State.sendForward_none]
    exact .refl
  | some c => exact .single (.probe c)

theorem download_travelRace (h : s.Wired) {count : ℕ} {r : Travel × Sends}
    (hr : s.travel.beginRace s.fresh (opening (s.fresh + 1) count) = some r) :
    Transfer.Steps s.download ((s.offer (opening (s.fresh + 1) count)).withTravel r).download := by
  obtain ⟨hp, sent, rfl, hnone, hsome⟩ := beginRace_eq hr
  refine .head (download_offer h count) ?_
  have hf : s.travel.hasFailed = false := by simp [Travel.hasFailed, hp]
  have htravel := download_travel (s := s.offer (opening (s.fresh + 1) count)) (t := { s.travel with
    phase := .racing ⟨s.fresh, s.travel.active, [], opening (s.fresh + 1) count⟩ }) rfl rfl hf
  cases hact : s.travel.active with
  | none =>
    rw [hnone hact, withTravel_nil]
    exact hact ▸ htravel
  | some c =>
    rw [hsome c hact, download_withTravel_silent _ _ _ rfl]
    exact hact ▸ htravel

end Links

open Relation.ReflTransGen in
/-- A step of a flow that keeps its Home instance is a number of moves of the upload. -/
theorem upload_step (h : s.Wired) {a : Action} {s' : Sys} (hs : s.step a = some s')
    (ha : ∀ c, a ≠ .homeRespawn c) : Transfer.Steps s.upload s'.upload := by
  have hcounts := h.travel.transfer.counts
  cases a with
  | travelFinish =>
    obtain ⟨r, hr, rfl⟩ := Option.map_eq_some_iff.mp hs
    exact upload_quiet hcounts (Travel.finish_quiet hr).2
  | travelRace =>
    obtain ⟨r, hr, rfl⟩ := Option.map_eq_some_iff.mp hs
    exact upload_travelRace h hr
  | travelSelect =>
    obtain ⟨r, hr, rfl⟩ := Option.map_eq_some_iff.mp hs
    exact upload_quiet hcounts (Travel.select_quiet hr).2
  | travelReevaluate =>
    obtain ⟨r, hr, rfl⟩ := Option.map_eq_some_iff.mp hs
    exact upload_quiet hcounts (Travel.reevaluate_quiet hr).2
  | travelRecoveryExpired =>
    obtain ⟨r, hr, rfl⟩ := Option.map_eq_some_iff.mp hs
    exact upload_quiet hcounts (Travel.recoveryExpired_quiet hr).2
  | travelStop =>
    obtain ⟨r, hr, rfl⟩ := Option.map_eq_some_iff.mp hs
    exact upload_quiet hcounts (Travel.stop_quiet hr).2
  | travelOpened => exact upload_travelOpened hs
  | travelOpenFailed =>
    obtain ⟨r, hr, rfl⟩ := Option.map_eq_some_iff.mp hs
    exact upload_quiet hcounts (h.travel.openFailed_quiet hr).2
  | travelDeadline =>
    obtain ⟨r, hr, rfl⟩ := Option.map_eq_some_iff.mp hs
    exact upload_quiet hcounts (h.travel.deadline_quiet hr).2
  | travelLocalData =>
    simp only [step] at hs
    split_ifs at hs with hg
    obtain ⟨r, hr, rfl⟩ := Option.map_eq_some_iff.mp hs
    exact upload_localData h hg.1.1 (by simpa using hg.2) hr
  | travelLocalEof =>
    simp only [step] at hs
    split_ifs at hs
    obtain ⟨r, hr, rfl⟩ := Option.map_eq_some_iff.mp hs
    exact upload_localEof h hr
  | travelLocalError =>
    simp only [step] at hs
    split_ifs at hs
    obtain ⟨r, hr, rfl⟩ := Option.map_eq_some_iff.mp hs
    exact upload_localError hr
  | travelFrame => exact upload_travelFrame h hs
  | travelCarrierClosed c =>
    obtain ⟨r, hsp, -, -, hr, rfl⟩ := travelCarrierClosed_cases hs
    rw [← upload_setSpawned c false]
    exact upload_carrierClosed (h.setLink (fun hl => by simp [hl] at hsp) _) hr
  | homeRespawn c => exact absurd rfl (ha c)
  | homeAttach => exact upload_homeAttach hs
  | homeTargetData =>
    simp only [step] at hs
    split_ifs at hs
    obtain ⟨r, hr, rfl⟩ := Option.map_eq_some_iff.mp hs
    exact upload_targetData hr
  | homeTargetEof =>
    simp only [step] at hs
    split_ifs at hs
    obtain ⟨r, hr, rfl⟩ := Option.map_eq_some_iff.mp hs
    exact upload_targetEnd hr
  | homeFrame => exact upload_homeFrame h hs
  | homeCarrierClosed => exact upload_homeCarrierClosed hs
  | homeFinish =>
    obtain ⟨h', hr, rfl⟩ := Option.map_eq_some_iff.mp hs
    exact upload_homeFinish hr
  | homeStop =>
    obtain ⟨h', hr, rfl⟩ := Option.map_eq_some_iff.mp hs
    exact upload_homeStop hr
  | close => exact upload_close hs

/-- A step of a flow that keeps its Home instance is a number of moves of the download. -/
theorem download_step (h : s.Wired) {a : Action} {s' : Sys} (hs : s.step a = some s')
    (ha : ∀ c, a ≠ .homeRespawn c) : Transfer.Steps s.download s'.download := by
  cases a with
  | travelFinish =>
    obtain ⟨r, hr, rfl⟩ := Option.map_eq_some_iff.mp hs
    exact download_quiet (Travel.finish_quiet hr).1 (Travel.finish_quiet hr).2
  | travelRace =>
    obtain ⟨r, hr, rfl⟩ := Option.map_eq_some_iff.mp hs
    exact download_travelRace h hr
  | travelSelect =>
    obtain ⟨r, hr, rfl⟩ := Option.map_eq_some_iff.mp hs
    exact download_quiet (Travel.select_quiet hr).1 (Travel.select_quiet hr).2
  | travelReevaluate =>
    obtain ⟨r, hr, rfl⟩ := Option.map_eq_some_iff.mp hs
    exact download_quiet (Travel.reevaluate_quiet hr).1 (Travel.reevaluate_quiet hr).2
  | travelRecoveryExpired =>
    obtain ⟨r, hr, rfl⟩ := Option.map_eq_some_iff.mp hs
    exact download_quiet (Travel.recoveryExpired_quiet hr).1 (Travel.recoveryExpired_quiet hr).2
  | travelStop =>
    obtain ⟨r, hr, rfl⟩ := Option.map_eq_some_iff.mp hs
    exact download_quiet (Travel.stop_quiet hr).1 (Travel.stop_quiet hr).2
  | travelOpened => exact download_travelOpened hs
  | travelOpenFailed =>
    obtain ⟨r, hr, rfl⟩ := Option.map_eq_some_iff.mp hs
    exact download_quiet (h.travel.openFailed_quiet hr).1 (h.travel.openFailed_quiet hr).2
  | travelDeadline =>
    obtain ⟨r, hr, rfl⟩ := Option.map_eq_some_iff.mp hs
    exact download_quiet (h.travel.deadline_quiet hr).1 (h.travel.deadline_quiet hr).2
  | travelLocalData =>
    simp only [step] at hs
    split_ifs at hs
    obtain ⟨r, hr, rfl⟩ := Option.map_eq_some_iff.mp hs
    exact download_event h hr (by simp)
  | travelLocalEof =>
    simp only [step] at hs
    split_ifs at hs
    obtain ⟨r, hr, rfl⟩ := Option.map_eq_some_iff.mp hs
    exact download_event h hr (by simp)
  | travelLocalError =>
    simp only [step] at hs
    split_ifs at hs
    obtain ⟨r, hr, rfl⟩ := Option.map_eq_some_iff.mp hs
    exact download_event h hr (by simp)
  | travelFrame => exact download_travelFrame h hs
  | travelCarrierClosed c =>
    obtain ⟨r, hsp, -, -, hr, rfl⟩ := travelCarrierClosed_cases hs
    rw [← download_setSpawned c false]
    exact download_event (h.setLink (fun hl => by simp [hl] at hsp) _) hr (by simp)
  | homeRespawn c => exact absurd rfl (ha c)
  | homeAttach => exact download_homeAttach hs
  | homeTargetData =>
    simp only [step] at hs
    split_ifs at hs with hg
    obtain ⟨r, hr, rfl⟩ := Option.map_eq_some_iff.mp hs
    exact download_targetData h hg.1.1 (by simpa using hg.2) hr
  | homeTargetEof =>
    simp only [step] at hs
    split_ifs at hs
    obtain ⟨r, hr, rfl⟩ := Option.map_eq_some_iff.mp hs
    exact download_targetEnd h hr
  | homeFrame => exact download_homeFrame h hs
  | homeCarrierClosed => exact download_homeCarrierClosed hs
  | homeFinish =>
    obtain ⟨h', hr, rfl⟩ := Option.map_eq_some_iff.mp hs
    exact download_homeFinish hr
  | homeStop =>
    obtain ⟨h', hr, rfl⟩ := Option.map_eq_some_iff.mp hs
    exact download_homeStop hr
  | close => exact download_close hs

end Sys

end FlowSplice.Flow
