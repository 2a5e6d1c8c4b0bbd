import FlowSplice.Udp.Association

/-! When an association goes on. Each loop writes a whole frame before it reads again, so two ends
that are both in a write that their streams have no room for wait for each other, and only a timer
ends that. A run in which no end begins such a write while the other is in one never stalls. -/
namespace FlowSplice.Udp
open FlowSplice.Frame Framing

variable {config : Config} {offers : Side → List Bytes} {s s' : Sys} {side : Side} {a : Action}
  {e e' : End} {bytes rest chunk : Bytes}

@[simp] theorem Side.other_other (side : Side) : side.other.other = side := by
  cases side <;> rfl

@[simp] theorem Side.other_ne (side : Side) : side.other ≠ side := by
  cases side <;> decide

@[simp] theorem Side.ne_other (side : Side) : side ≠ side.other := by
  cases side <;> decide

theorem Side.eq_or_eq_other (side x : Side) : x = side ∨ x = side.other := by
  cases side <;> cases x <;> decide

/-- `serde_json` carries the datagrams of the protocol within the limit of a frame. -/
def CarriesDatagrams (serde : SerdeJson) : Prop :=
  ∀ flowId sequence bytes, flowId < 2 ^ 128 → sequence < 2 ^ 64 → bytes.length ≤ maxDatagram →
    ∃ json, serde.toVec (.datagram flowId sequence bytes) = .ok json ∧ json ≠ [] ∧
      json.length ≤ dataFrameLimit ∧ serde.fromSlice json = .ok (.datagram flowId sequence bytes)

/-- The streams hold something, the flow has an id, and the codec carries datagrams: the binary one
does, JSON needs `serde_json` for it. -/
structure Config.Valid (config : Config) : Prop where
  capacity_pos : ∀ side, 0 < config.capacity side
  flowId_lt : config.flowId < 2 ^ 128
  json : config.codec = .json → CarriesDatagrams config.serde

namespace End

/-- What is left of the frame in a write. -/
def unwritten (e : End) : Bytes :=
  match e.handler with
  | .writing rest => rest
  | _ => []

/-- The number of the next datagram whose frame is not begun. -/
def next (e : End) : ℕ :=
  match e.handler with
  | .writing _ => nextSequence e.sendSequence
  | _ => e.sendSequence

/-- The number of the next datagram whose frame has not arrived. -/
def expected (e : End) : ℕ :=
  match e.handler with
  | .delivering _ => nextSequence e.receiveSequence
  | _ => e.receiveSequence

end End

namespace Sys

@[simp] theorem setEnd_stream (s : Sys) (side : Side) (e : End) :
    (s.setEnd side e).stream = s.stream := rfl

/-- The end is in a write that its stream has no room for. -/
def Blocked (config : Config) (s : Sys) (side : Side) : Prop :=
  s.room config side < (s.ends side).unwritten.length

/-- Neither end comes back to its `select!` before the other does. -/
def Crossed (config : Config) (s : Sys) : Prop :=
  s.Blocked config .travel ∧ s.Blocked config .home

/-- A datagram or a frame is on its way. -/
def Busy (s : Sys) : Prop :=
  ∃ side, (s.ends side).outgoing ≠ [] ∨ (s.ends side).incoming ≠ [] ∨
    (s.ends side).handler ≠ .selecting ∨ (s.ends side).taken ≠ [] ∨ s.stream side ≠ []

/-- Something is on its way, and no step but that of a timer is enabled. -/
def Stalled (config : Config) (s : Sys) : Prop :=
  s.Busy ∧ ∀ a, s.step config a = none

/-- A datagram is taken from the queue only if its frame fits into what the stream has room for, or
if the other end is not in a write that has to wait for this one to read. -/
def Yields (config : Config) (s : Sys) : Action → Prop
  | .receive side =>
    match (s.ends side).outgoing with
    | [] => True
    | bytes :: rest =>
      (End.receive config { s.ends side with outgoing := rest } bytes).unwritten.length ≤
        s.room config side ∨ ¬ s.Blocked config side.other
  | _ => True

instance (config : Config) (s : Sys) (side : Side) : Decidable (s.Blocked config side) :=
  inferInstanceAs (Decidable (_ < _))

instance (config : Config) (s : Sys) : ∀ a, Decidable (s.Yields config a)
  | .offer _ => inferInstanceAs (Decidable True)
  | .receive side =>
    match h : (s.ends side).outgoing with
    | [] => .isTrue (by simp [Yields, h])
    | bytes :: rest =>
      decidable_of_iff ((End.receive config { s.ends side with outgoing := rest }
        bytes).unwritten.length ≤ s.room config side ∨ ¬ s.Blocked config side.other)
        (by simp [Yields, h])
  | .write _ _ => inferInstanceAs (Decidable True)
  | .read _ _ => inferInstanceAs (Decidable True)
  | .deliver _ => inferInstanceAs (Decidable True)
  | .consume _ => inferInstanceAs (Decidable True)

end Sys

/-- The payloads carry the datagrams of the flow with the numbers from `first` up to `last`. -/
def Numbered (config : Config) : ℕ → List Bytes → ℕ → Prop
  | first, [], last => first = last
  | first, payload :: payloads, last =>
    (∃ bytes : Bytes, bytes.length ≤ maxDatagram ∧
      decodeDataFrame config.serde payload config.codec =
        .ok (.datagram config.flowId first bytes)) ∧
      Numbered config (nextSequence first) payloads last

/-- What `writer` has put on the stream or has still to put there are the frames that `reader`
expects, the first of them perhaps begun. -/
def Flow (config : Config) (writer reader : End) (stream : Bytes) : Prop :=
  ∃ payloads, Pending (scanFrame dataFrameLimit) reader.taken (stream ++ writer.unwritten)
    payloads ∧ Numbered config reader.expected payloads writer.next

/-- The end goes on, and what it has to send are datagrams. -/
structure End.Sound (e : End) : Prop where
  alive : ∀ error, e.handler ≠ .ended error
  writing_ne_nil : ∀ rest, e.handler = .writing rest → rest ≠ []
  sendSequence_lt : e.sendSequence < 2 ^ 64
  outgoing_le : ∀ bytes ∈ e.outgoing, bytes.length ≤ maxDatagram

structure Inv (config : Config) (s : Sys) : Prop where
  sound : ∀ side, (s.ends side).Sound
  offers_le : ∀ side, ∀ bytes ∈ s.offers side, bytes.length ≤ maxDatagram
  stream_le : ∀ side, (s.stream side).length ≤ config.capacity side
  flow : ∀ side, Flow config (s.ends side) (s.ends side.other) (s.stream side)

theorem nextSequence_lt (sequence : ℕ) : nextSequence sequence < 2 ^ 64 := by
  unfold nextSequence
  omega

theorem Numbered.append {first last : ℕ} {payloads : List Bytes} {payload : Bytes}
    (h : Numbered config first payloads last) (hlen : bytes.length ≤ maxDatagram)
    (hdecode : decodeDataFrame config.serde payload config.codec =
      .ok (.datagram config.flowId last bytes)) :
    Numbered config first (payloads ++ [payload]) (nextSequence last) := by
  induction payloads generalizing first with
  | nil =>
    have hfirst : first = last := h
    rw [hfirst]
    exact ⟨⟨bytes, hlen, hdecode⟩, rfl⟩
  | cons payload' payloads ih => exact ⟨h.1, ih h.2⟩

/-- The frame of a datagram is accepted, and it is read back. -/
theorem encode_datagram {sequence : ℕ} (hvalid : config.Valid) (hseq : sequence < 2 ^ 64)
    (hlen : bytes.length ≤ maxDatagram) :
    ∃ payload, encodeDataFrame config.serde config.codec
        (.datagram config.flowId sequence bytes) = .ok payload ∧ payload ≠ [] ∧
      payload.length ≤ dataFrameLimit ∧
      decodeDataFrame config.serde payload config.codec =
        .ok (.datagram config.flowId sequence bytes) := by
  have hid := hvalid.flowId_lt
  cases hcodec : config.codec with
  | json =>
    have hjson := hvalid.json hcodec config.flowId sequence bytes hid hseq hlen
    obtain ⟨json, hvec, hne, hle, hslice⟩ := hjson
    refine ⟨json, ?_, hne, hle, decodeJson_ok hslice⟩
    unfold encodeDataFrame
    simp only [hvec]
  | binaryV1 =>
    have hshort : ¬ maxDataPayload < bytes.length := by
      unfold maxDatagram at hlen
      unfold maxDataPayload
      omega
    have henc : encodeBinaryPayload 2 config.flowId sequence bytes = .ok (2 ::
        BigEndian.toBytes 16 config.flowId ++ BigEndian.toBytes 8 sequence ++ bytes) :=
      if_neg hshort
    refine ⟨_, henc, by simp, ?_, ?_⟩
    · unfold maxDatagram at hlen
      unfold dataFrameLimit
      simp only [List.cons_append, List.length_cons, List.length_append, BigEndian.length_toBytes]
      omega
    · obtain ⟨body, hbody, hdecode⟩ := decodeBinaryBody_encode .datagram hid hseq henc
      rw [hbody]
      exact hdecode

namespace End

@[simp] theorem unwritten_writing (e : End) (rest : Bytes) : (e.writing rest).unwritten = rest := by
  unfold writing unwritten
  by_cases hrest : rest = []
  · simp [hrest]
  · simp [hrest]

@[simp] theorem next_writing (e : End) (rest : Bytes) :
    (e.writing rest).next = nextSequence e.sendSequence := by
  unfold writing next
  by_cases hrest : rest = []
  · simp [hrest]
  · simp [hrest]

theorem writing_keeps (e : End) (rest : Bytes) :
    (e.writing rest).taken = e.taken ∧ (e.writing rest).receiveSequence = e.receiveSequence ∧
      (e.writing rest).outgoing = e.outgoing := by
  unfold writing
  by_cases hrest : rest = []
  · simp [hrest]
  · simp [hrest]

theorem expected_writing (e : End) (rest : Bytes) :
    (e.writing rest).expected = e.receiveSequence := by
  unfold writing expected
  by_cases hrest : rest = []
  · simp [hrest]
  · simp [hrest]

theorem Sound.writing (h : e.Sound) (rest : Bytes) : (e.writing rest).Sound := by
  unfold End.writing
  by_cases hrest : rest = []
  · simp only [hrest, if_true]
    exact ⟨by simp, by simp, nextSequence_lt _, h.outgoing_le⟩
  · simp only [hrest, if_false]
    refine ⟨by simp, ?_, h.sendSequence_lt, h.outgoing_le⟩
    intro rest' hrest'
    injection hrest' with hrest'
    rw [← hrest']
    exact hrest

/-- An end that takes a datagram begins to write its frame. -/
theorem receive_eq (hvalid : config.Valid) (h : e.Sound) (hlen : bytes.length ≤ maxDatagram) :
    ∃ frame payload, e.receive config bytes = e.writing frame ∧
      Word (scanFrame dataFrameLimit) frame payload ∧
      decodeDataFrame config.serde payload config.codec =
        .ok (.datagram config.flowId e.sendSequence bytes) := by
  obtain ⟨payload, henc, hne, hle, hdecode⟩ := encode_datagram hvalid h.sendSequence_lt hlen
  have hbound : ¬ (payload.isEmpty ∨ dataFrameLimit < payload.length) := by
    simp only [List.isEmpty_iff, not_or]
    exact ⟨hne, by omega⟩
  have hsmall : ¬ 2 ^ 32 ≤ payload.length := by
    unfold dataFrameLimit at hle
    omega
  have hwrite : writePayload payload dataFrameLimit =
      .ok (BigEndian.toBytes 4 payload.length ++ payload) := by
    unfold writePayload
    rw [if_neg hbound, if_neg hsmall]
  have hframe : writeDataFrame config.serde dataFrameLimit config.codec
      (.datagram config.flowId e.sendSequence bytes) =
        .ok (BigEndian.toBytes 4 payload.length ++ payload) := by
    unfold writeDataFrame
    rw [henc]
    exact hwrite
  refine ⟨_, payload, ?_, writePayload_word hwrite, hdecode⟩
  unfold receive
  rw [hframe]

end End

theorem Flow.congr {writer reader writer' reader' : End} {stream : Bytes}
    (h : Flow config writer reader stream) (hunwritten : writer'.unwritten = writer.unwritten)
    (hnext : writer'.next = writer.next) (htaken : reader'.taken = reader.taken)
    (hexpected : reader'.expected = reader.expected) : Flow config writer' reader' stream := by
  unfold Flow at h ⊢
  rw [hunwritten, hnext, htaken, hexpected]
  exact h

/-- A datagram that is taken is the last of those under way. -/
theorem Flow.receive {writer reader : End} {stream : Bytes} (hvalid : config.Valid)
    (h : Flow config writer reader stream) (hsound : writer.Sound)
    (hselecting : writer.handler = .selecting) (hlen : bytes.length ≤ maxDatagram) :
    Flow config (writer.receive config bytes) reader stream := by
  obtain ⟨payloads, hpending, hnumbered⟩ := h
  obtain ⟨frame, payload, hreceive, hword, hdecode⟩ := End.receive_eq hvalid hsound hlen
  have hnext : writer.next = writer.sendSequence := by simp [End.next, hselecting]
  have hunwritten : writer.unwritten = [] := by simp [End.unwritten, hselecting]
  rw [hnext] at hnumbered
  rw [hunwritten, List.append_nil] at hpending
  rw [hreceive]
  refine ⟨payloads ++ [payload], ?_, ?_⟩
  · rw [End.unwritten_writing]
    exact hpending.append hword
  · rw [End.next_writing]
    exact hnumbered.append hlen hdecode

/-- Bytes that go to the stream stay under way. -/
theorem Flow.write {writer reader : End} {stream : Bytes} {count : ℕ}
    (h : Flow config writer reader stream) (hwriting : writer.handler = .writing rest) :
    Flow config (writer.writing (rest.drop count)) reader (stream ++ rest.take count) := by
  obtain ⟨payloads, hpending, hnumbered⟩ := h
  have hnext : writer.next = nextSequence writer.sendSequence := by simp [End.next, hwriting]
  have hunwritten : writer.unwritten = rest := by simp [End.unwritten, hwriting]
  refine ⟨payloads, ?_, ?_⟩
  · rw [End.unwritten_writing, List.append_assoc, List.take_append_drop, ← hunwritten]
    exact hpending
  · rw [End.next_writing, ← hnext]
    exact hnumbered

/-- Bytes that arrive leave the reader inside a frame or complete the datagram it expects. -/
theorem Flow.read {writer reader : End} {stream : Bytes} {want count : ℕ}
    (h : Flow config writer reader stream) (hselecting : reader.handler = .selecting)
    (hwant : scanFrame dataFrameLimit reader.taken = .more want) (hpos : 0 < count)
    (hle : count ≤ want) (hin : count ≤ stream.length) :
    Flow config writer (reader.arrive config (stream.take count)) (stream.drop count) ∧
      (reader.arrive config (stream.take count) =
          { reader with taken := reader.taken ++ stream.take count } ∨
        ∃ bytes, reader.arrive config (stream.take count) =
          { reader with taken := [], handler := .delivering bytes }) := by
  obtain ⟨payloads, hpending, hnumbered⟩ := h
  have hexpected : reader.expected = reader.receiveSequence := by simp [End.expected, hselecting]
  have htake : (stream ++ writer.unwritten).take count = stream.take count :=
    List.take_append_of_le_length hin
  have hdrop : (stream ++ writer.unwritten).drop count = stream.drop count ++ writer.unwritten :=
    List.drop_append_of_le_length hin
  have hin' : count ≤ (stream ++ writer.unwritten).length := by
    rw [List.length_append]
    omega
  obtain ⟨payload, payloads', rfl, hfed⟩ := hpending.feed hwant hle hin' hpos
  rw [htake, hdrop] at hfed
  unfold End.arrive
  rcases hfed with ⟨hdone, hrest⟩ | ⟨⟨want', hmore⟩, hrest⟩
  · obtain ⟨⟨bytes, hlen, hdecode⟩, hnumbered'⟩ := hnumbered
    rw [hdone]
    simp only [hdecode]
    have hhandle : End.handleFrame config { reader with taken := [] }
        (.ok (.datagram config.flowId reader.expected bytes)) =
          { reader with taken := [], handler := .delivering bytes } := by
      simp [End.handleFrame, hexpected, hlen]
    rw [hhandle]
    refine ⟨⟨payloads', hrest, ?_⟩, .inr ⟨bytes, rfl⟩⟩
    show Numbered config (nextSequence reader.receiveSequence) payloads' writer.next
    rw [← hexpected]
    exact hnumbered'
  · rw [hmore]
    refine ⟨⟨payload :: payloads', hrest, ?_⟩, .inl rfl⟩
    show Numbered config (End.expected { reader with taken := reader.taken ++ _ }) _ _
    simp only [End.expected, hselecting]
    rw [← hexpected]
    exact hnumbered

/-- A reader that was in its `select!` stays there or delivers. -/
theorem End.Sound.arrived (h : e.Sound) (hselecting : e.handler = .selecting)
    (harrive : e' = { e with taken := e.taken ++ chunk } ∨
      ∃ bytes, e' = { e with taken := [], handler := .delivering bytes }) :
    e'.Sound ∧ e'.unwritten = e.unwritten ∧ e'.next = e.next := by
  rcases harrive with rfl | ⟨bytes, rfl⟩
  · exact ⟨⟨h.alive, h.writing_ne_nil, h.sendSequence_lt, h.outgoing_le⟩, rfl, rfl⟩
  · refine ⟨⟨by simp, by simp, h.sendSequence_lt, h.outgoing_le⟩, ?_, ?_⟩
    · simp [End.unwritten, hselecting]
    · simp [End.next, hselecting]

/-- Only one end moves, and with it at most the streams. -/
theorem Inv.update {streams : Side → Bytes} {offers' : Side → List Bytes} (h : Inv config s)
    (side : Side) (hsound : e.Sound)
    (hoffers : ∀ x, ∀ bytes ∈ offers' x, bytes.length ≤ maxDatagram)
    (hstream : ∀ x, (streams x).length ≤ config.capacity x)
    (hout : Flow config e (s.ends side.other) (streams side))
    (hin : Flow config (s.ends side.other) e (streams side.other)) :
    Inv config { ends := Function.update s.ends side e, stream := streams, offers := offers' } where
  sound x := by
    rcases Side.eq_or_eq_other side x with rfl | rfl
    · simpa using hsound
    · simpa using h.sound side.other
  offers_le := hoffers
  stream_le := hstream
  flow x := by
    rcases Side.eq_or_eq_other side x with rfl | rfl
    · simpa using hout
    · simpa using hin

/-- A step that changes neither what is under way nor the streams. -/
theorem Inv.keep {offers' : Side → List Bytes} (h : Inv config s) (side : Side) (hsound : e.Sound)
    (hoffers : ∀ x, ∀ bytes ∈ offers' x, bytes.length ≤ maxDatagram)
    (hunwritten : e.unwritten = (s.ends side).unwritten) (hnext : e.next = (s.ends side).next)
    (htaken : e.taken = (s.ends side).taken) (hexpected : e.expected = (s.ends side).expected) :
    Inv config { s.setEnd side e with offers := offers' } := by
  have hflow := h.flow side.other
  rw [Side.other_other] at hflow
  exact h.update side hsound hoffers h.stream_le
    ((h.flow side).congr hunwritten hnext rfl rfl) (hflow.congr rfl rfl htaken hexpected)

theorem length_update_stream {x : Side} {streams : Side → Bytes}
    (h : ∀ x, (streams x).length ≤ config.capacity x) (hnew : chunk.length ≤ config.capacity side) :
    (Function.update streams side chunk x).length ≤ config.capacity x := by
  by_cases hx : x = side
  · rw [hx, Function.update_self]
    exact hnew
  · rw [Function.update_of_ne hx]
    exact h x

theorem Inv.offer (h : Inv config s) (hstep : s.step config (.offer side) = some s') :
    Inv config s' := by
  have hs := h.sound side
  simp only [Sys.step] at hstep
  split at hstep
  · cases hstep
  · rename_i bytes rest hoffers
    split_ifs at hstep with hroom
    injection hstep with hstep
    rw [← hstep]
    have hbytes := h.offers_le side
    rw [hoffers] at hbytes
    refine h.keep side ⟨hs.alive, hs.writing_ne_nil, hs.sendSequence_lt, ?_⟩ ?_ rfl rfl rfl rfl
    · intro b hb
      rcases List.mem_append.mp hb with hb | hb
      · exact hs.outgoing_le b hb
      · rw [List.mem_singleton.mp hb]
        exact hbytes bytes List.mem_cons_self
    · intro x
      rcases Side.eq_or_eq_other side x with rfl | rfl
      · rw [Function.update_self]
        exact fun b hb => hbytes b (List.mem_cons_of_mem _ hb)
      · rw [Function.update_of_ne (Side.other_ne side)]
        exact h.offers_le side.other

theorem Inv.receive (hvalid : config.Valid) (h : Inv config s)
    (hstep : s.step config (.receive side) = some s') : Inv config s' := by
  have hs := h.sound side
  simp only [Sys.step] at hstep
  split at hstep
  · rename_i bytes rest hselecting houtgoing
    injection hstep with hstep
    rw [← hstep]
    have hout := hs.outgoing_le
    rw [houtgoing] at hout
    have hsound : End.Sound { s.ends side with outgoing := rest } :=
      ⟨hs.alive, hs.writing_ne_nil, hs.sendSequence_lt,
        fun b hb => hout b (List.mem_cons_of_mem _ hb)⟩
    have hlen := hout bytes List.mem_cons_self
    obtain ⟨frame, payload, hreceive, -⟩ := End.receive_eq hvalid hsound hlen
    have hflow : Flow config { s.ends side with outgoing := rest } (s.ends side.other)
        (s.stream side) := (h.flow side).congr rfl rfl rfl rfl
    have hback := h.flow side.other
    rw [Side.other_other] at hback
    have hexpected : (s.ends side).expected = (s.ends side).receiveSequence := by
      simp [End.expected, hselecting]
    refine h.update side ?_ h.offers_le h.stream_le
      (hflow.receive hvalid hsound hselecting hlen) (hback.congr rfl rfl ?_ ?_)
    · rw [hreceive]
      exact hsound.writing frame
    · rw [hreceive]
      exact (End.writing_keeps _ _).1
    · rw [hreceive, End.expected_writing, hexpected]
  · cases hstep

theorem Inv.write {count : ℕ} (h : Inv config s)
    (hstep : s.step config (.write side count) = some s') : Inv config s' := by
  have hs := h.sound side
  simp only [Sys.step] at hstep
  split at hstep
  · rename_i rest hwriting
    split_ifs at hstep with hguard
    obtain ⟨hpos, hle, hroom⟩ := hguard
    injection hstep with hstep
    rw [← hstep]
    have hback := h.flow side.other
    rw [Side.other_other] at hback
    have hexpected : (s.ends side).expected = (s.ends side).receiveSequence := by
      simp [End.expected, hwriting]
    have hflow : Flow config ((s.ends side).writing (rest.drop count)) (s.ends side.other)
        (s.stream side ++ rest.take count) := (h.flow side).write hwriting
    have hback' := hback.congr rfl rfl (End.writing_keeps (s.ends side) (rest.drop count)).1
      ((End.expected_writing _ _).trans hexpected.symm)
    refine h.update side (hs.writing _) h.offers_le ?_ ?_ ?_
    · intro x
      apply length_update_stream h.stream_le
      have hold := h.stream_le side
      unfold Sys.room at hroom
      simp only [List.length_append, List.length_take]
      omega
    · simpa using hflow
    · simpa using hback'
  · cases hstep

theorem Inv.read {count : ℕ} (h : Inv config s)
    (hstep : s.step config (.read side count) = some s') : Inv config s' := by
  have hs := h.sound side
  simp only [Sys.step] at hstep
  split at hstep
  · rename_i want hselecting hwant
    split_ifs at hstep with hguard
    obtain ⟨hpos, hle, hin⟩ := hguard
    injection hstep with hstep
    rw [← hstep]
    have hback := h.flow side.other
    rw [Side.other_other] at hback
    obtain ⟨hflow, harrive⟩ := hback.read hselecting hwant hpos hle hin
    obtain ⟨hsound, hunwritten, hnext⟩ := hs.arrived hselecting harrive
    have hout := (h.flow side).congr hunwritten hnext rfl rfl
    refine h.update side hsound h.offers_le ?_ ?_ ?_
    · intro x
      apply length_update_stream h.stream_le
      have hold := h.stream_le side.other
      rw [List.length_drop]
      omega
    · simpa using hout
    · simpa using hflow
  · cases hstep

theorem Inv.deliver (h : Inv config s) (hstep : s.step config (.deliver side) = some s') :
    Inv config s' := by
  have hs := h.sound side
  simp only [Sys.step] at hstep
  split at hstep
  · rename_i bytes hdelivering
    split_ifs at hstep with hroom
    injection hstep with hstep
    rw [← hstep]
    have hsound : End.Sound ((s.ends side).delivered bytes) :=
      ⟨by simp [End.delivered], by simp [End.delivered], hs.sendSequence_lt, hs.outgoing_le⟩
    refine h.keep side hsound h.offers_le ?_ ?_ rfl ?_
    · simp [End.delivered, End.unwritten, hdelivering]
    · simp [End.delivered, End.next, hdelivering]
    · simp [End.delivered, End.expected, hdelivering]
  · cases hstep

theorem Inv.consume (h : Inv config s) (hstep : s.step config (.consume side) = some s') :
    Inv config s' := by
  have hs := h.sound side
  simp only [Sys.step] at hstep
  split at hstep
  · cases hstep
  · injection hstep with hstep
    rw [← hstep]
    exact h.keep side ⟨hs.alive, hs.writing_ne_nil, hs.sendSequence_lt, hs.outgoing_le⟩
      h.offers_le rfl rfl rfl rfl

theorem Inv.step (hvalid : config.Valid) (h : Inv config s) (hstep : s.step config a = some s') :
    Inv config s' := by
  cases a with
  | offer side => exact h.offer hstep
  | receive side => exact h.receive hvalid hstep
  | write side count => exact h.write hstep
  | read side count => exact h.read hstep
  | deliver side => exact h.deliver hstep
  | consume side => exact h.consume hstep

theorem inv_start (hoffers : ∀ side, ∀ bytes ∈ offers side, bytes.length ≤ maxDatagram) :
    Inv config (machine config offers).start where
  sound _ := ⟨by simp [machine], by simp [machine], by simp [machine], by simp [machine]⟩
  offers_le := hoffers
  stream_le _ := Nat.zero_le _
  flow _ := ⟨[], ⟨rfl, rfl⟩, rfl⟩

theorem inv_of_reachable (hvalid : config.Valid)
    (hoffers : ∀ side, ∀ bytes ∈ offers side, bytes.length ≤ maxDatagram)
    (h : (machine config offers).Reachable s) : Inv config s := by
  apply h.invariant (inv_start hoffers)
  intro t a t' ht hstep
  exact ht.step hvalid hstep

namespace Sys

theorem blocked_congr {x : Side} (hstream : s'.stream x = s.stream x)
    (hunwritten : (s'.ends x).unwritten = (s.ends x).unwritten) :
    s'.Blocked config x ↔ s.Blocked config x := by
  unfold Blocked room
  rw [hstream, hunwritten]

theorem blocked_setEnd {x : Side} {offers' : Side → List Bytes}
    (h : e.unwritten = (s.ends side).unwritten) :
    Blocked config { s.setEnd side e with offers := offers' } x ↔ s.Blocked config x := by
  apply blocked_congr
  · rfl
  · rcases Side.eq_or_eq_other side x with rfl | rfl
    · simpa [setEnd] using h
    · simp [setEnd]

/-- An end that is not in a write has nothing to wait for. -/
theorem not_blocked (h : (s.ends side).unwritten = []) : ¬ s.Blocked config side := by
  unfold Blocked
  rw [h]
  simp

theorem unwritten_arrive (h : e.handler = .selecting) :
    (e.arrive config chunk).unwritten = [] := by
  unfold End.arrive
  split
  · simp [End.unwritten, h]
  · simp [End.unwritten]
  · unfold End.handleFrame
    split
    · simp [End.unwritten]
    · split_ifs
      · simp [End.unwritten]
      · simp [End.unwritten, h]
      · simp [End.unwritten]
    · simp [End.unwritten]
    · simp [End.unwritten]

/-- Only an end that comes out of its `select!` gets into a write or out of the way of one. -/
theorem blocked_of_step (hstep : s.step config a = some s') :
    (∀ x, s'.Blocked config x ↔ s.Blocked config x) ∨
      ∃ side, ¬ s.Blocked config side ∧ (¬ s'.Blocked config side ∨ a = .receive side) := by
  cases a with
  | offer side =>
    left
    intro x
    simp only [step] at hstep
    split at hstep
    · cases hstep
    · split_ifs at hstep
      injection hstep with hstep
      rw [← hstep]
      exact blocked_setEnd rfl
  | receive side =>
    right
    refine ⟨side, ?_, .inr rfl⟩
    simp only [step] at hstep
    split at hstep
    · rename_i hselecting _
      exact not_blocked (by simp [End.unwritten, hselecting])
    · cases hstep
  | write side count =>
    left
    intro x
    simp only [step] at hstep
    split at hstep
    · rename_i rest hwriting
      split_ifs at hstep with hguard
      injection hstep with hstep
      rw [← hstep]
      rcases Side.eq_or_eq_other side x with rfl | rfl
      · unfold room at hguard
        have hrest : (s.ends x).unwritten = rest := by simp [End.unwritten, hwriting]
        simp only [Blocked, room, setStream, setEnd, Function.update_self, End.unwritten_writing,
          hrest, List.length_append, List.length_take, List.length_drop]
        omega
      · apply blocked_congr
        · simp [setStream]
        · simp [setStream, setEnd]
    · cases hstep
  | read side count =>
    right
    refine ⟨side, ?_, .inl ?_⟩
    all_goals
      simp only [step] at hstep
      split at hstep
    · rename_i hselecting _
      exact not_blocked (by simp [End.unwritten, hselecting])
    · cases hstep
    · rename_i hselecting _
      split_ifs at hstep
      injection hstep with hstep
      rw [← hstep]
      apply not_blocked
      simpa [setStream, setEnd] using unwritten_arrive hselecting
    · cases hstep
  | deliver side =>
    left
    intro x
    simp only [step] at hstep
    split at hstep
    · rename_i bytes hdelivering
      split_ifs at hstep
      injection hstep with hstep
      rw [← hstep]
      exact blocked_setEnd (by simp [End.unwritten, End.delivered, hdelivering])
    · cases hstep
  | consume side =>
    left
    intro x
    simp only [step] at hstep
    split at hstep
    · cases hstep
    · injection hstep with hstep
      rw [← hstep]
      exact blocked_setEnd rfl

theorem crossed_iff (side : Side) :
    s.Crossed config ↔ s.Blocked config side ∧ s.Blocked config side.other := by
  cases side with
  | travel => rfl
  | home => exact And.comm

/-- Two ends that wait for each other do so for good. -/
theorem Crossed.step (h : s.Crossed config) (hstep : s.step config a = some s') :
    s'.Crossed config := by
  rcases blocked_of_step hstep with hsame | ⟨side, hfree, -⟩
  · exact ⟨(hsame _).mpr h.1, (hsame _).mpr h.2⟩
  · exact absurd ((crossed_iff side).mp h).1 hfree

/-- The condition is exact: the step that breaks it makes the ends wait for each other. -/
theorem yields_iff (h : ¬ s.Crossed config) (hstep : s.step config a = some s') :
    s.Yields config a ↔ ¬ s'.Crossed config := by
  by_cases hreceive : ∃ side, a = .receive side
  · obtain ⟨side, rfl⟩ := hreceive
    simp only [Sys.step] at hstep
    split at hstep
    · rename_i bytes rest _ houtgoing
      injection hstep with hstep
      have hother : s'.Blocked config side.other ↔ s.Blocked config side.other := by
        rw [← hstep]
        apply blocked_congr
        · rfl
        · simp [setEnd]
      have hside : s'.Blocked config side ↔ s.room config side <
          (End.receive config { s.ends side with outgoing := rest } bytes).unwritten.length := by
        rw [← hstep]
        simp [Blocked, room, setEnd]
      rw [crossed_iff side, hside, hother]
      simp only [Yields, houtgoing]
      by_cases hblocked : s.Blocked config side.other
      · simp [hblocked]
      · simp [hblocked]
    · cases hstep
  · have hyields : s.Yields config a := by
      cases a with
      | receive side => exact absurd ⟨side, rfl⟩ hreceive
      | _ => trivial
    have hfree : ¬ s'.Crossed config := by
      rcases blocked_of_step hstep with hsame | ⟨side, -, hside | hside⟩
      · exact fun hcrossed => h ⟨(hsame _).mp hcrossed.1, (hsame _).mp hcrossed.2⟩
      · exact fun hcrossed => hside ((crossed_iff side).mp hcrossed).1
      · exact absurd ⟨side, hside⟩ hreceive
    exact ⟨fun _ => hfree, fun _ => hyields⟩

/-- A step that no application has to make is enabled. -/
def Moves (config : Config) (s : Sys) : Prop :=
  ∃ a : Action, a.isOffer = false ∧ (s.step config a).isSome

theorem moves_of_incoming (h : (s.ends side).incoming ≠ []) : s.Moves config := by
  refine ⟨.consume side, rfl, ?_⟩
  cases hin : (s.ends side).incoming with
  | nil => exact absurd hin h
  | cons bytes rest => simp [step, hin]

theorem moves_of_outgoing (h : (s.ends side).outgoing ≠ [])
    (hselecting : (s.ends side).handler = .selecting) : s.Moves config := by
  refine ⟨.receive side, rfl, ?_⟩
  cases hout : (s.ends side).outgoing with
  | nil => exact absurd hout h
  | cons bytes rest => simp [step, hout, hselecting]

theorem moves_of_delivering (h : (s.ends side).handler = .delivering bytes) :
    s.Moves config := by
  by_cases hroom : (s.ends side).incoming.length < queueCapacity
  · exact ⟨.deliver side, rfl, by simp [step, h, hroom]⟩
  · have hne : (s.ends side).incoming ≠ [] := by
      intro hnil
      rw [hnil] at hroom
      exact hroom (by decide)
    exact moves_of_incoming hne

theorem moves_of_room (h : (s.ends side).handler = .writing rest) (hne : rest ≠ [])
    (hroom : 0 < s.room config side) : s.Moves config := by
  have hlen : 1 ≤ rest.length := List.length_pos_of_ne_nil hne
  have hcount : 0 < 1 ∧ 1 ≤ rest.length ∧ 1 ≤ s.room config side := ⟨by decide, hlen, hroom⟩
  exact ⟨.write side 1, rfl, by simp [step, h, hcount]⟩

end Sys

/-- The scan of an incomplete frame asks for something. -/
theorem scanFrame_more_pos {limit want : ℕ} (h : scanFrame limit bytes = .more want) :
    0 < want := by
  unfold scanFrame at h
  split_ifs at h
  · injection h with h
    omega
  · injection h with h
    omega

theorem Inv.moves_of_stream (h : Inv config s) (hselecting : (s.ends side).handler = .selecting)
    (hne : s.stream side.other ≠ []) : s.Moves config := by
  obtain ⟨payloads, hpending, -⟩ := h.flow side.other
  rw [Side.other_other] at hpending
  obtain ⟨want, hwant⟩ := Session.pending_scan hpending
  have hpos := scanFrame_more_pos hwant
  have hlen : 1 ≤ (s.stream side.other).length := List.length_pos_of_ne_nil hne
  have hcount : 0 < 1 ∧ 1 ≤ want ∧ 1 ≤ (s.stream side.other).length := ⟨by decide, hpos, hlen⟩
  exact ⟨.read side 1, rfl, by simp [Sys.step, hselecting, hwant, hcount]⟩

/-- A write goes on, or the other end comes to read what fills the stream. -/
theorem Inv.moves_of_writing (hvalid : config.Valid) (h : Inv config s)
    (hfree : ¬ s.Crossed config) (hwriting : (s.ends side).handler = .writing rest) :
    s.Moves config := by
  have hne := (h.sound side).writing_ne_nil rest hwriting
  have hlen : 0 < rest.length := List.length_pos_of_ne_nil hne
  have hunwritten : (s.ends side).unwritten = rest := by simp [End.unwritten, hwriting]
  by_cases hroom : 0 < s.room config side
  · exact Sys.moves_of_room hwriting hne hroom
  · have hblocked : s.Blocked config side := by
      unfold Sys.Blocked
      rw [hunwritten]
      omega
    have hother : ¬ s.Blocked config side.other := by
      intro hboth
      exact hfree ((Sys.crossed_iff side).mpr ⟨hblocked, hboth⟩)
    have hfull : s.stream side ≠ [] := by
      intro hnil
      have hcapacity := hvalid.capacity_pos side
      unfold Sys.room at hroom
      rw [hnil, List.length_nil] at hroom
      omega
    cases hhandler : (s.ends side.other).handler with
    | selecting =>
      apply h.moves_of_stream hhandler
      rw [Side.other_other]
      exact hfull
    | writing rest' =>
      have hne' := (h.sound side.other).writing_ne_nil rest' hhandler
      have hlen' : 0 < rest'.length := List.length_pos_of_ne_nil hne'
      apply Sys.moves_of_room hhandler hne'
      simp only [Sys.Blocked, End.unwritten, hhandler] at hother
      omega
    | delivering bytes => exact Sys.moves_of_delivering hhandler
    | ended error => exact absurd hhandler ((h.sound side.other).alive error)

theorem Inv.moves (hvalid : config.Valid) (h : Inv config s) (hfree : ¬ s.Crossed config)
    (hbusy : s.Busy) : s.Moves config := by
  by_cases hidle : ∀ side, (s.ends side).handler = .selecting
  · obtain ⟨side, hout | hin | hhandler | htaken | hstream⟩ := hbusy
    · exact Sys.moves_of_outgoing hout (hidle side)
    · exact Sys.moves_of_incoming hin
    · exact absurd (hidle side) hhandler
    · apply h.moves_of_stream (hidle side)
      intro hnil
      obtain ⟨payloads, hpending, -⟩ := h.flow side.other
      have hunwritten : (s.ends side.other).unwritten = [] := by
        simp [End.unwritten, hidle side.other]
      rw [Side.other_other, hnil, hunwritten] at hpending
      cases payloads with
      | nil => exact htaken hpending.1
      | cons payload payloads => exact hpending.input_ne_nil rfl
    · apply h.moves_of_stream (hidle side.other)
      rw [Side.other_other]
      exact hstream
  · obtain ⟨side, hside⟩ := not_forall.mp hidle
    cases hhandler : (s.ends side).handler with
    | selecting => exact absurd hhandler hside
    | writing rest => exact h.moves_of_writing hvalid hfree hhandler
    | delivering bytes => exact Sys.moves_of_delivering hhandler
    | ended error => exact absurd hhandler ((h.sound side).alive error)

theorem not_crossed_of_yields
    (h : (machine config offers).ReachableWhere (Sys.Yields config) s) :
    ¬ s.Crossed config := by
  apply h.invariant
  · intro hcrossed
    exact Sys.not_blocked rfl hcrossed.1
  · intro t a t' _ ht hyields hstep
    exact (Sys.yields_iff ht hstep).mp hyields

/-- As long as the loops yield to each other, whatever is on its way moves on without a timer, and
no end gives up. -/
theorem moves_of_yields (hvalid : config.Valid)
    (hoffers : ∀ side, ∀ bytes ∈ offers side, bytes.length ≤ maxDatagram)
    (h : (machine config offers).ReachableWhere (Sys.Yields config) s) :
    (s.Busy → s.Moves config) ∧ ∀ side error, (s.ends side).handler ≠ .ended error := by
  have hinv := inv_of_reachable hvalid hoffers h.reachable
  have hfree := not_crossed_of_yields h
  exact ⟨hinv.moves hvalid hfree, fun side error => (hinv.sound side).alive error⟩

/-- Two ends in writes, with full streams and nothing else to do. -/
theorem stalled_of_full (hwriting : ∀ side, (s.ends side).unwritten ≠ [])
    (hroom : ∀ side, s.room config side = 0) (hin : ∀ side, (s.ends side).incoming = [])
    (hoffers : ∀ side, s.offers side = []) : s.Stalled config := by
  have hhandler : ∀ side, ∃ rest, (s.ends side).handler = .writing rest := by
    intro side
    have hne := hwriting side
    unfold End.unwritten at hne
    split at hne
    · exact ⟨_, ‹_›⟩
    · exact absurd rfl hne
  refine ⟨⟨.travel, ?_⟩, ?_⟩
  · obtain ⟨rest, hrest⟩ := hhandler .travel
    simp [hrest]
  · intro a
    cases a with
    | offer side => simp [Sys.step, hoffers side]
    | receive side =>
      obtain ⟨rest, hrest⟩ := hhandler side
      simp [Sys.step, hrest]
    | write side count =>
      obtain ⟨rest, hrest⟩ := hhandler side
      simp only [Sys.step, hrest, hroom side]
      exact if_neg (by omega)
    | read side count =>
      obtain ⟨rest, hrest⟩ := hhandler side
      simp [Sys.step, hrest]
    | deliver side =>
      obtain ⟨rest, hrest⟩ := hhandler side
      simp [Sys.step, hrest]
    | consume side => simp [Sys.step, hin side]

/-- Streams of eight bytes. -/
def narrow : Config where
  serde := ⟨fun _ => .error "unused", fun _ => .error "unused"⟩
  codec := .binaryV1
  flowId := 7
  capacity _ := 8

theorem narrow_valid : narrow.Valid where
  capacity_pos side := by
    show 0 < 8
    decide
  flowId_lt := by decide
  json h := by cases h

/-- Each application has one datagram to send. -/
def oneEach (_ : Side) : List Bytes := [[1, 2, 3]]

theorem oneEach_le (side : Side) : ∀ bytes ∈ oneEach side, bytes.length ≤ maxDatagram := by
  intro bytes hbytes
  rw [List.mem_singleton.mp hbytes]
  decide

theorem execWhere_narrow : ((machine narrow oneEach).execWhere (Sys.Yields narrow)
    [.offer .travel, .offer .home, .receive .travel, .write .travel 8]).isSome := by decide

/-- The home end keeps its datagram back until it has read that of the travel end. -/
theorem moves_of_yields_narrow :
    ∃ s, (machine narrow oneEach).execWhere (Sys.Yields narrow)
        [.offer .travel, .offer .home, .receive .travel, .write .travel 8] = some s ∧
      s.Busy ∧ (s.Busy → s.Moves narrow) ∧ ∀ side error, (s.ends side).handler ≠ .ended error := by
  have hrun := (Option.some_get execWhere_narrow).symm
  refine ⟨_, hrun, ⟨.home, .inl (by decide)⟩, ?_⟩
  exact moves_of_yields narrow_valid oneEach_le (Machine.reachableWhere_of_execWhere hrun)

theorem exec_narrow : ((machine narrow oneEach).exec [.offer .travel, .offer .home,
    .receive .travel, .receive .home, .write .travel 8, .write .home 8]).isSome := by decide

/-- One datagram in each direction, both begun before the other is read, is enough for a stall. -/
theorem not_moves_of_reachable :
    ¬ ∀ (config : Config) (offers : Side → List Bytes) (s : Sys), config.Valid →
      (∀ side, ∀ bytes ∈ offers side, bytes.length ≤ maxDatagram) →
      (machine config offers).Reachable s → s.Busy → ∃ a, (s.step config a).isSome := by
  intro h
  have hrun := (Option.some_get exec_narrow).symm
  have hstalled : (Option.get _ exec_narrow).Stalled narrow := by
    apply stalled_of_full
    · intro side
      cases side <;> decide
    · intro side
      cases side <;> decide
    · intro side
      cases side <;> decide
    · intro side
      cases side <;> decide
  obtain ⟨a, ha⟩ := h narrow oneEach _ narrow_valid oneEach_le
    (Machine.reachable_of_exec hrun) hstalled.1
  rw [hstalled.2 a] at ha
  cases ha

end FlowSplice.Udp
