import FlowSplice.Frame.Reader

/-! The reader refines the scan of what arrived since the last frame, so the frames of a written
stream come back in order, whatever the chunks and the cancellations. -/
namespace FlowSplice.Frame
open Framing
variable {limit : ℕ} {chunk payload bytes : Bytes} {place : Await}
  {r : LengthPrefixedReader} {serde : SerdeJson} {codec : DataFrameCodec} {s s' : Session}

/-- A frame in the stream: four bytes of length and the payload. -/
def scanFrame (limit : ℕ) (taken : Bytes) : Scan Bytes IoError :=
  if taken.length < 4 then .more (4 - taken.length)
  else if BigEndian.ofBytes (taken.take 4) = 0 ∨ limit < BigEndian.ofBytes (taken.take 4) then
    .failed ⟨.invalidData,
      s!"frame length {BigEndian.ofBytes (taken.take 4)} is outside 1..={limit}"⟩
  else if taken.length < 4 + BigEndian.ofBytes (taken.take 4) then
    .more (4 + BigEndian.ofBytes (taken.take 4) - taken.length)
  else .done (taken.drop 4)

/-- What `write_payload` puts on the stream is one frame of the scan. -/
theorem writePayload_word (h : writePayload payload limit = .ok bytes) :
    Word (scanFrame limit) bytes payload := by
  unfold writePayload at h
  split_ifs at h with hbound hbig
  injection h with h
  subst h
  have hne : 0 < payload.length := by
    apply List.length_pos_of_ne_nil
    rintro rfl
    exact hbound (.inl rfl)
  have hle : ¬ limit < payload.length := fun hlt => hbound (.inr hlt)
  have hlen : (BigEndian.toBytes 4 payload.length ++ payload).length = 4 + payload.length := by
    rw [List.length_append, BigEndian.length_toBytes]
  have hof : BigEndian.ofBytes (BigEndian.toBytes 4 payload.length) = payload.length :=
    BigEndian.ofBytes_toBytes (by omega)
  have htake : (BigEndian.toBytes 4 payload.length ++ payload).take 4 =
      BigEndian.toBytes 4 payload.length := by
    simp
  have hguard : ¬ (payload.length = 0 ∨ limit < payload.length) := by omega
  refine ⟨by omega, ?_, ?_⟩
  · unfold scanFrame
    rw [hlen, htake, hof, if_neg (by omega), if_neg hguard, if_neg (by omega)]
    simp
  · intro p hp hlt
    unfold scanFrame
    by_cases hshort : p.length < 4
    · exact ⟨4 - p.length, if_pos hshort, by omega⟩
    · have hptake : p.take 4 = BigEndian.toBytes 4 payload.length := by
        obtain ⟨rest, hrest⟩ := hp
        rw [← htake, ← hrest, List.take_append_of_le_length (by omega)]
      rw [hptake, hof, if_neg hshort, if_neg hguard, if_pos (by omega)]
      exact ⟨_, rfl, by omega⟩

theorem length_fill {buffer : Bytes} {cursor : ℕ} (h : cursor + chunk.length ≤ buffer.length) :
    (fill buffer cursor chunk).length = buffer.length := by
  unfold fill
  simp only [List.length_append, List.length_take, List.length_drop]
  omega

theorem take_fill {buffer : Bytes} {cursor : ℕ} (h : cursor + chunk.length ≤ buffer.length) :
    (fill buffer cursor chunk).take (cursor + chunk.length) = buffer.take cursor ++ chunk := by
  have hlen : (buffer.take cursor ++ chunk).length = cursor + chunk.length := by
    rw [List.length_append, List.length_take]
    omega
  unfold fill
  exact List.take_left' hlen

namespace LengthPrefixedReader

/-- What arrived since the last frame. -/
def taken (r : LengthPrefixedReader) : Bytes :=
  r.lengthPrefix.take r.prefixRead ++ r.payload.take r.payloadRead

/-- The cursors are inside their buffers, and a payload is there for a length that was read. -/
structure Wf (r : LengthPrefixedReader) : Prop where
  four : r.lengthPrefix.length = 4
  prefix_le : r.prefixRead ≤ 4
  payload_le : r.payloadRead ≤ r.payload.length
  bounded : r.payload.length ≤ r.limit
  sized : r.payload ≠ [] → r.prefixRead = 4 ∧ BigEndian.ofBytes r.lengthPrefix = r.payload.length

/-- The reader is where a future that awaits at this place left it. -/
def At (r : LengthPrefixedReader) : Await → Prop
  | .lengthPrefix => r.prefixRead < 4
  | .payload => r.payloadRead < r.payload.length

theorem wf_new (limit : ℕ) : (new limit).Wf where
  four := rfl
  prefix_le := by simp [new]
  payload_le := le_refl _
  bounded := Nat.zero_le _
  sized hne := absurd rfl hne

theorem wf_finishFrame (r : LengthPrefixedReader) : r.finishFrame.Wf where
  four := rfl
  prefix_le := by simp [LengthPrefixedReader.finishFrame]
  payload_le := le_refl _
  bounded := Nat.zero_le r.limit
  sized hne := absurd rfl hne

@[simp] theorem taken_finishFrame (r : LengthPrefixedReader) : r.finishFrame.taken = [] := rfl

/-- Before the length is complete nothing of a payload is there. -/
theorem Wf.payload_nil (h : r.Wf) (hlt : r.prefixRead < 4) : r.payload = [] := by
  by_contra hne
  have := (h.sized hne).1
  omega

theorem Wf.length_taken (h : r.Wf) : r.taken.length = r.prefixRead + r.payloadRead := by
  have h4 := h.four
  have hp := h.prefix_le
  have hb := h.payload_le
  simp only [taken, List.length_append, List.length_take]
  omega

theorem Wf.take_taken (h : r.Wf) (h4 : r.prefixRead = 4) :
    r.taken.take 4 = r.lengthPrefix ∧ r.taken.drop 4 = r.payload.take r.payloadRead := by
  have hlen := h.four
  have hall : r.lengthPrefix.take r.prefixRead = r.lengthPrefix :=
    List.take_of_length_le (by omega)
  unfold taken
  rw [hall]
  exact ⟨List.take_left' hlen, List.drop_left' hlen⟩

/-- The code stopped where the scan of `taken` says. -/
def Agrees (limit : ℕ) (taken : Bytes) : ReadPayload → Prop
  | .pending r place => r.Wf ∧ r.limit = limit ∧ r.taken = taken ∧ r.At place ∧
      scanFrame limit taken = .more (r.want place)
  | .ready r payload => r.Wf ∧ r.limit = limit ∧ scanFrame limit taken = .done payload
  | .failed r e => r.Wf ∧ r.limit = limit ∧ r.taken = taken ∧ scanFrame limit taken = .failed e

theorem readBody_agrees (h : r.Wf) (hne : r.payload ≠ []) :
    Agrees r.limit r.taken r.readBody := by
  obtain ⟨h4, hof⟩ := h.sized hne
  obtain ⟨htake, hdrop⟩ := h.take_taken h4
  have hlen := h.length_taken
  have hbound := h.bounded
  have hle := h.payload_le
  have hpos : 0 < r.payload.length := List.length_pos_of_ne_nil hne
  have hguard : ¬ (r.payload.length = 0 ∨ r.limit < r.payload.length) := by omega
  unfold readBody
  split_ifs with hlt
  · refine ⟨h, rfl, rfl, hlt, ?_⟩
    unfold scanFrame
    rw [htake, hof, if_neg (by omega), if_neg hguard, if_pos (by omega)]
    have hwant : 4 + r.payload.length - r.taken.length = r.payload.length - r.payloadRead := by
      omega
    rw [hwant]
    rfl
  · refine ⟨h, rfl, ?_⟩
    unfold scanFrame
    rw [htake, hof, if_neg (by omega), if_neg hguard, if_neg (by omega), hdrop,
      List.take_of_length_le (by omega)]

theorem readPayload_agrees (h : r.Wf) : Agrees r.limit r.taken r.readPayload := by
  have hlen := h.length_taken
  have hle := h.prefix_le
  have hpl := h.payload_le
  unfold readPayload
  rw [h.four]
  split_ifs with hlt hempty hguard
  · have hnil := h.payload_nil hlt
    have hread : r.payloadRead = 0 := by simpa [hnil] using hpl
    refine ⟨h, rfl, rfl, hlt, ?_⟩
    unfold scanFrame
    rw [if_pos (by omega)]
    have hwant : 4 - r.taken.length = r.want .lengthPrefix := by
      show 4 - r.taken.length = r.lengthPrefix.length - r.prefixRead
      rw [h.four]
      omega
    rw [hwant]
  · have h4 : r.prefixRead = 4 := by omega
    obtain ⟨htake, -⟩ := h.take_taken h4
    refine ⟨h, rfl, rfl, ?_⟩
    unfold scanFrame
    rw [htake, if_neg (by omega), if_pos hguard]
  · have h4 : r.prefixRead = 4 := by omega
    have hnil : r.payload = [] := List.isEmpty_iff.mp hempty
    have hread : r.payloadRead = 0 := by simpa [hnil] using hpl
    have hwf : Wf { r with payload := List.replicate (BigEndian.ofBytes r.lengthPrefix) 0 } := by
      refine ⟨h.four, hle, ?_, ?_, ?_⟩
      · simp [hread]
      · simp only [List.length_replicate]
        omega
      · intro _
        exact ⟨h4, by simp⟩
    have hbody := readBody_agrees hwf (by
      intro hrep
      have hlen := congrArg List.length hrep
      simp only [List.length_replicate, List.length_nil] at hlen
      exact hguard (.inl hlen))
    have htaken : taken { r with payload := List.replicate (BigEndian.ofBytes r.lengthPrefix) 0 } =
        r.taken := by
      simp [taken, hread]
    rw [htaken] at hbody
    exact hbody
  · apply readBody_agrees h
    rintro hnil
    exact hempty (by simp [hnil])

/-- Inside a frame the code stops at an await. -/
theorem readPayload_pending {k : ℕ} (h : r.Wf) (hscan : scanFrame r.limit r.taken = .more k) :
    ∃ r' place, r.readPayload = .pending r' place ∧ r'.limit = r.limit ∧ r'.taken = r.taken := by
  have hagrees := readPayload_agrees h
  cases hcode : r.readPayload with
  | pending r' place =>
    rw [hcode] at hagrees
    obtain ⟨-, hlimit, htaken, -⟩ := hagrees
    exact ⟨r', place, rfl, hlimit, htaken⟩
  | ready r' payload =>
    rw [hcode] at hagrees
    obtain ⟨-, -, hdone⟩ := hagrees
    rw [hscan] at hdone
    cases hdone
  | failed r' e =>
    rw [hcode] at hagrees
    obtain ⟨-, -, -, hfailed⟩ := hagrees
    rw [hscan] at hfailed
    cases hfailed

/-- A future that awaits asks the transport for what the scan wants. -/
theorem Wf.scan_at (h : r.Wf) (hat : r.At place) :
    scanFrame r.limit r.taken = .more (r.want place) := by
  cases place with
  | lengthPrefix =>
    have hlt : r.prefixRead < 4 := hat
    have hagrees := readPayload_agrees h
    unfold readPayload at hagrees
    rw [h.four, if_pos hlt] at hagrees
    exact hagrees.2.2.2.2
  | payload =>
    have hlt : r.payloadRead < r.payload.length := hat
    have hne : r.payload ≠ [] := List.ne_nil_of_length_pos (by omega)
    have hagrees := readBody_agrees h hne
    unfold readBody at hagrees
    rw [if_pos hlt] at hagrees
    exact hagrees.2.2.2.2

/-- Bytes that arrive where the future awaits are kept, and the code goes on as the scan says. -/
theorem resume_agrees (h : r.Wf) (hat : r.At place) (hlen : chunk.length ≤ r.want place) :
    Agrees r.limit (r.taken ++ chunk) (r.resume place chunk) := by
  have h4 := h.four
  have hpl := h.payload_le
  cases place with
  | lengthPrefix =>
    have hlt : r.prefixRead < 4 := hat
    have hfit : chunk.length ≤ r.lengthPrefix.length - r.prefixRead := hlen
    have hnil := h.payload_nil hlt
    have hwf : (r.store chunk .lengthPrefix).Wf := by
      refine ⟨?_, ?_, hpl, h.bounded, ?_⟩
      · show (fill r.lengthPrefix r.prefixRead chunk).length = 4
        rw [length_fill (by omega), h4]
      · show r.prefixRead + chunk.length ≤ 4
        omega
      · intro hne
        exact absurd hnil hne
    have htaken : (r.store chunk .lengthPrefix).taken = r.taken ++ chunk := by
      unfold taken
      dsimp only [store]
      rw [take_fill (by omega), hnil]
      simp
    have hagrees := readPayload_agrees hwf
    rw [htaken] at hagrees
    exact hagrees
  | payload =>
    have hlt : r.payloadRead < r.payload.length := hat
    have hfit : chunk.length ≤ r.payload.length - r.payloadRead := hlen
    have hne : r.payload ≠ [] := List.ne_nil_of_length_pos (by omega)
    have hlen' : (fill r.payload r.payloadRead chunk).length = r.payload.length :=
      length_fill (by omega)
    have hwf : (r.store chunk .payload).Wf := by
      refine ⟨h4, h.prefix_le, ?_, ?_, ?_⟩
      · show r.payloadRead + chunk.length ≤ (fill r.payload r.payloadRead chunk).length
        omega
      · show (fill r.payload r.payloadRead chunk).length ≤ r.limit
        rw [hlen']
        exact h.bounded
      · intro _
        obtain ⟨hread, hof⟩ := h.sized hne
        exact ⟨hread, hof.trans hlen'.symm⟩
    have htaken : (r.store chunk .payload).taken = r.taken ++ chunk := by
      unfold taken
      dsimp only [store]
      rw [take_fill (by omega), List.append_assoc]
    have hne' : (r.store chunk .payload).payload ≠ [] := by
      apply List.ne_nil_of_length_pos
      show 0 < (fill r.payload r.payloadRead chunk).length
      omega
    have hagrees := readBody_agrees hwf hne'
    rw [htaken] at hagrees
    exact hagrees

end LengthPrefixedReader

namespace Session
open LengthPrefixedReader

/-- The cursors are in range and a future awaits where the reader is. -/
structure Inv (limit : ℕ) (codec : DataFrameCodec) (s : Session) : Prop where
  wf : s.reader.inner.Wf
  limit_eq : s.reader.inner.limit = limit
  codec_eq : s.reader.codec = codec
  reading_at : ∀ place, s.reading = some place → s.reader.inner.At place

/-- Where the code stopped, the invariant holds again. -/
theorem Inv.advance {code : ReadPayload} (h : s.Inv limit codec) {taken : Bytes}
    (hcode : Agrees limit taken code) : (s.advance serde code).Inv limit codec := by
  cases code with
  | pending r place =>
    obtain ⟨hwf, hlimit, -, hat, -⟩ := hcode
    refine ⟨hwf, hlimit, h.codec_eq, ?_⟩
    intro place' hplace
    have hp : place = place' := Option.some.inj hplace
    exact hp ▸ hat
  | ready r payload =>
    obtain ⟨-, hlimit, -⟩ := hcode
    exact ⟨wf_finishFrame r, hlimit, h.codec_eq, fun _ hplace => by cases hplace⟩
  | failed r e =>
    obtain ⟨hwf, hlimit, -⟩ := hcode
    exact ⟨hwf, hlimit, h.codec_eq, fun _ hplace => by cases hplace⟩

theorem chunk_ok {count : ℕ} (hstep : step serde s (.chunk count) = some s') :
    ∃ place, s.reading = some place ∧ 0 < count ∧ count ≤ s.reader.inner.want place ∧
      count ≤ s.input.length ∧
      s' = { s with input := s.input.drop count }.advance serde
        (s.reader.inner.resume place (s.input.take count)) := by
  simp only [step] at hstep
  split at hstep
  · cases hstep
  · split_ifs at hstep with hguard
    obtain ⟨hpos, hwant, hin⟩ := hguard
    injection hstep with hstep
    exact ⟨_, ‹_›, hpos, hwant, hin, hstep.symm⟩

theorem length_take_input {count : ℕ} (h : count ≤ s.input.length) :
    (s.input.take count).length = count := by
  rw [List.length_take]
  omega

theorem Inv.step {action : Action} (h : s.Inv limit codec)
    (hstep : step serde s action = some s') : s'.Inv limit codec := by
  cases action with
  | read =>
    simp only [Session.step] at hstep
    split at hstep
    · injection hstep with hstep
      have hagrees := readPayload_agrees h.wf
      rw [h.limit_eq] at hagrees
      rw [← hstep]
      exact h.advance hagrees
    · cases hstep
  | chunk count =>
    obtain ⟨place, hplace, -, hwant, hin, rfl⟩ := chunk_ok hstep
    have hlen := length_take_input hin
    have hagrees := resume_agrees h.wf (h.reading_at place hplace) (by rw [hlen]; exact hwant)
    rw [h.limit_eq] at hagrees
    have hrest : Inv limit codec { s with input := s.input.drop count } :=
      ⟨h.wf, h.limit_eq, h.codec_eq, h.reading_at⟩
    exact hrest.advance hagrees
  | cancel =>
    injection hstep with hstep
    rw [← hstep]
    exact ⟨h.wf, h.limit_eq, h.codec_eq, fun _ hplace => by cases hplace⟩
  | close =>
    simp only [Session.step] at hstep
    split at hstep
    · cases hstep
    · split_ifs at hstep
      injection hstep with hstep
      rw [← hstep]
      exact ⟨h.wf, h.limit_eq, h.codec_eq, fun _ hplace => by cases hplace⟩
  | fail e =>
    simp only [Session.step] at hstep
    split at hstep
    · cases hstep
    · injection hstep with hstep
      rw [← hstep]
      exact ⟨h.wf, h.limit_eq, h.codec_eq, fun _ hplace => by cases hplace⟩

theorem inv_start (limit : ℕ) (codec : DataFrameCodec) (stream : Bytes) :
    (machine serde limit codec stream).start.Inv limit codec :=
  ⟨wf_new limit, rfl, rfl, fun _ hplace => by cases hplace⟩

theorem inv_of_reachable {stream : Bytes} (h : (machine serde limit codec stream).Reachable s) :
    s.Inv limit codec := by
  apply h.invariant (inv_start limit codec stream)
  intro t a t' ht hstep
  exact ht.step hstep

/-- The reader is inside the first of the frames that are still to come, and those that came
were decoded and returned in order. -/
def Following (serde : SerdeJson) (frames : List WireFrame) (s : Session) : Prop :=
  ∃ payloads, Pending (scanFrame s.reader.inner.limit) s.reader.inner.taken s.input payloads ∧
    s.returned ++ payloads.map (fun p => decodeDataFrame serde p s.reader.codec) =
      frames.map fun f => .ok f.val

theorem pending_scan {taken input : Bytes} {payloads : List Bytes}
    (h : Pending (scanFrame limit) taken input payloads) :
    ∃ k, scanFrame limit taken = .more k := by
  cases payloads with
  | nil =>
    obtain ⟨rfl, -⟩ := h
    exact ⟨4, rfl⟩
  | cons payload payloads => exact h.more

theorem Following.step {frames : List WireFrame} {action : Action} (h : s.Inv limit codec)
    (hf : s.Following serde frames) (harrives : Arrives s action)
    (hstep : step serde s action = some s') : s'.Following serde frames := by
  obtain ⟨payloads, hpend, hret⟩ := hf
  cases action with
  | read =>
    simp only [Session.step] at hstep
    split at hstep
    · injection hstep with hstep
      subst hstep
      obtain ⟨k, hk⟩ := pending_scan hpend
      obtain ⟨r, place, hcode, hlimit, htaken⟩ := readPayload_pending h.wf hk
      refine ⟨payloads, ?_, ?_⟩
      · rw [hcode]
        show Pending (scanFrame r.limit) r.taken s.input payloads
        rw [hlimit, htaken]
        exact hpend
      · rw [hcode]
        exact hret
    · cases hstep
  | chunk count =>
    obtain ⟨place, hplace, hpos, hwant, hin, rfl⟩ := chunk_ok hstep
    have hat := h.reading_at place hplace
    have hlen := length_take_input hin
    have hfit : (s.input.take count).length ≤ s.reader.inner.want place := by
      rw [hlen]
      exact hwant
    have hagrees := resume_agrees h.wf hat hfit
    obtain ⟨payload, payloads', rfl, hfed⟩ :=
      hpend.feed (h.wf.scan_at hat) hwant hin hpos
    cases hcode : s.reader.inner.resume place (s.input.take count) with
    | pending r place' =>
      rw [hcode] at hagrees
      obtain ⟨-, hlimit, htaken, -, hscan⟩ := hagrees
      rcases hfed with ⟨hdone, -⟩ | ⟨-, hpend'⟩
      · rw [hdone] at hscan
        cases hscan
      · refine ⟨payload :: payloads', ?_, hret⟩
        show Pending (scanFrame r.limit) r.taken (s.input.drop count) _
        rw [hlimit, htaken]
        exact hpend'
    | ready r payload' =>
      rw [hcode] at hagrees
      obtain ⟨-, hlimit, hscan⟩ := hagrees
      rcases hfed with ⟨hdone, hpend'⟩ | ⟨⟨k, hk⟩, -⟩
      · rw [hdone] at hscan
        injection hscan with hpayload
        subst hpayload
        refine ⟨payloads', ?_, ?_⟩
        · show Pending (scanFrame r.limit) [] (s.input.drop count) payloads'
          rw [hlimit]
          exact hpend'
        · show s.returned ++ [decodeDataFrame serde payload s.reader.codec] ++ _ = _
          rw [List.append_assoc]
          exact hret
      · rw [hk] at hscan
        cases hscan
    | failed r e =>
      rw [hcode] at hagrees
      obtain ⟨-, -, -, hscan⟩ := hagrees
      rcases hfed with ⟨hdone, -⟩ | ⟨⟨k, hk⟩, -⟩
      · rw [hdone] at hscan
        cases hscan
      · rw [hk] at hscan
        cases hscan
  | cancel =>
    injection hstep with hstep
    subst hstep
    exact ⟨payloads, hpend, hret⟩
  | close => exact harrives.elim
  | fail e => exact harrives.elim

/-- A written stream is the frames' payloads, each of which decodes to its frame. -/
theorem writeAll_spells (hjson : serde.RoundTrips) {frames : List WireFrame} {stream : Bytes}
    (h : writeAll serde limit codec frames = .ok stream) :
    ∃ payloads, Spells (scanFrame limit) stream payloads ∧
      payloads.map (fun p => decodeDataFrame serde p codec) = frames.map fun f => .ok f.val := by
  induction frames generalizing stream with
  | nil =>
    injection h with h
    exact ⟨[], h.symm, rfl⟩
  | cons frame frames ih =>
    unfold writeAll at h
    split at h
    · cases h
    · rename_i bytes hbytes
      split at h
      · cases h
      · rename_i rest hrest
        injection h with h
        obtain ⟨payloads, hspells, hdecode⟩ := ih hrest
        unfold writeDataFrame at hbytes
        split at hbytes
        · cases hbytes
        · rename_i payload hpayload
          refine ⟨payload :: payloads, ⟨bytes, rest, h.symm, writePayload_word hbytes, hspells⟩, ?_⟩
          rw [List.map_cons, hdecode, decodeDataFrame_encode hjson frame.property hpayload]
          rfl

theorem following_of_reachable (hjson : serde.RoundTrips) {frames : List WireFrame}
    {stream : Bytes} (hw : writeAll serde limit codec frames = .ok stream)
    (h : (machine serde limit codec stream).ReachableWhere Arrives s) :
    s.Following serde frames := by
  apply h.invariant
  · obtain ⟨payloads, hspells, hdecode⟩ := writeAll_spells hjson hw
    exact ⟨payloads, hspells.pending, hdecode⟩
  · intro t a t' ht hf ha hstep
    exact hf.step (inv_of_reachable ht.reachable) ha hstep

theorem Following.prefix_returned {frames : List WireFrame} (h : s.Following serde frames) :
    s.returned <+: frames.map fun f => .ok f.val := by
  obtain ⟨payloads, -, hret⟩ := h
  exact ⟨_, hret⟩

/-- Once the stream is read, every frame of it has been returned. -/
theorem Following.all_returned {frames : List WireFrame} (h : s.Following serde frames)
    (hin : s.input = []) : s.returned = frames.map fun f => .ok f.val := by
  obtain ⟨payloads, hpend, hret⟩ := h
  cases payloads with
  | nil => simpa using hret
  | cons payload payloads => exact absurd hin hpend.input_ne_nil

/-- While bytes are left, a read in progress can be given the next one. -/
theorem chunk_one (serde : SerdeJson) {place : Await} (h : s.Inv limit codec) (hplace : s.reading = some place)
    (hin : s.input ≠ []) :
    ∃ t, step serde s (.chunk 1) = some t ∧ t.input = s.input.drop 1 := by
  have hat := h.reading_at place hplace
  have hpos : 0 < s.input.length := List.length_pos_of_ne_nil hin
  have h4 := h.wf.four
  have hwant : 1 ≤ s.reader.inner.want place := by
    cases place with
    | lengthPrefix =>
      have hlt : s.reader.inner.prefixRead < 4 := hat
      show 1 ≤ s.reader.inner.lengthPrefix.length - s.reader.inner.prefixRead
      omega
    | payload =>
      have hlt : s.reader.inner.payloadRead < s.reader.inner.payload.length := hat
      show 1 ≤ s.reader.inner.payload.length - s.reader.inner.payloadRead
      omega
  simp only [step, hplace]
  rw [if_pos ⟨Nat.one_pos, hwant, hpos⟩]
  refine ⟨_, rfl, ?_⟩
  cases s.reader.inner.resume place (s.input.take 1) <;> rfl

/-- A read that is called inside a frame awaits, and the stream stays as it is. -/
theorem Following.read_awaits {frames : List WireFrame} (h : s.Inv limit codec)
    (hf : s.Following serde frames) (hreading : s.reading = none) :
    ∃ t place, Session.step serde s .read = some t ∧ t.reading = some place ∧
      t.input = s.input := by
  obtain ⟨payloads, hpend, -⟩ := hf
  obtain ⟨k, hk⟩ := pending_scan hpend
  obtain ⟨r, place, hcode, -⟩ := readPayload_pending h.wf hk
  refine ⟨s.advance serde s.reader.inner.readPayload, place, ?_, ?_, ?_⟩
  · simp only [Session.step, hreading]
  · rw [hcode]
    rfl
  · rw [hcode]
    rfl

/-- Reads that go on reach the end of the stream. -/
theorem reads_on {frames : List WireFrame} (h : s.Inv limit codec)
    (hf : s.Following serde frames) (stream : Bytes) : ∃ t,
    Relation.ReflTransGen ((machine serde limit codec stream).StepWhere Arrives) s t ∧
      t.input = [] ∧ t.Following serde frames := by
  induction hn : s.input.length using Nat.strong_induction_on generalizing s with
  | _ n ih =>
    by_cases hin : s.input = []
    · exact ⟨s, .refl, hin, hf⟩
    · have hpos : 0 < s.input.length := List.length_pos_of_ne_nil hin
      have hread : ∀ u : Session, u.Inv limit codec → u.Following serde frames →
          u.input = s.input → u.reading ≠ none → ∃ t,
          Relation.ReflTransGen ((machine serde limit codec stream).StepWhere Arrives) u t ∧
            t.input = [] ∧ t.Following serde frames := by
        intro u hu huf huin hreading
        obtain ⟨place, hplace⟩ := Option.ne_none_iff_exists'.mp hreading
        obtain ⟨v, hstep, hvin⟩ := chunk_one serde hu hplace (by rw [huin]; exact hin)
        have hlt : v.input.length < n := by
          rw [hvin, huin, List.length_drop]
          omega
        have harrives : Arrives u (.chunk 1) := trivial
        obtain ⟨t, hrun, ht⟩ := ih _ hlt (hu.step hstep) (huf.step hu harrives hstep) rfl
        exact ⟨t, .head ⟨.chunk 1, harrives, hstep⟩ hrun, ht⟩
      cases hreading : s.reading with
      | some place =>
        have hne : s.reading ≠ none := by
          rw [hreading]
          exact Option.some_ne_none place
        exact hread s h hf rfl hne
      | none =>
        obtain ⟨u, place, hstep, hplace, huin⟩ := hf.read_awaits h hreading
        have hne : u.reading ≠ none := by
          rw [hplace]
          exact Option.some_ne_none place
        have harrives : Arrives s .read := trivial
        obtain ⟨t, hrun, ht⟩ := hread u (h.step hstep) (hf.step h harrives hstep) huin hne
        exact ⟨t, .head ⟨.read, harrives, hstep⟩ hrun, ht⟩

/-- A read in progress comes to an end: it takes less than the prefix and the limit allow, any
byte that is left it can be given, a chunk either ends it with a result or is kept, and at the
end of the stream it returns an error. -/
structure Answers (serde : SerdeJson) (limit : ℕ) (s : Session) : Prop where
  short : s.reader.inner.taken.length < 4 + limit
  bytes : s.input ≠ [] → ∃ t, Session.step serde s (.chunk 1) = some t
  chunk : ∀ count t, Session.step serde s (.chunk count) = some t →
    (∃ result, t.reading = none ∧ t.returned = s.returned ++ [result]) ∨
      t.reading ≠ none ∧ t.returned = s.returned ∧
        t.reader.inner.taken.length = s.reader.inner.taken.length + count
  close : s.input = [] → ∃ t e, Session.step serde s .close = some t ∧ t.reading = none ∧
    t.returned = s.returned ++ [.error e]

theorem Inv.answers {place : Await} (h : s.Inv limit codec) (hplace : s.reading = some place) :
    s.Answers serde limit := by
  have hat := h.reading_at place hplace
  refine ⟨?_, ?_, ?_, ?_⟩
  · have hlen := h.wf.length_taken
    have hbound := h.wf.bounded
    have hpl := h.wf.payload_le
    have hinitial := h.wf.prefix_le
    have hlimit := h.limit_eq
    cases place with
    | lengthPrefix =>
      have hlt : s.reader.inner.prefixRead < 4 := hat
      have hnil := h.wf.payload_nil hlt
      have hzero : s.reader.inner.payloadRead = 0 := by simpa [hnil] using hpl
      omega
    | payload =>
      have hlt : s.reader.inner.payloadRead < s.reader.inner.payload.length := hat
      omega
  · intro hin
    obtain ⟨t, hstep, -⟩ := chunk_one serde h hplace hin
    exact ⟨t, hstep⟩
  · intro count t hstep
    obtain ⟨place', hplace', -, hwant, hin, rfl⟩ := chunk_ok hstep
    have hlen := length_take_input hin
    have hfit : (s.input.take count).length ≤ s.reader.inner.want place' := by
      rw [hlen]
      exact hwant
    have hagrees := resume_agrees h.wf (h.reading_at place' hplace') hfit
    cases hcode : s.reader.inner.resume place' (s.input.take count) with
    | pending r place'' =>
      right
      rw [hcode] at hagrees
      obtain ⟨-, -, htaken, -⟩ := hagrees
      refine ⟨Option.some_ne_none place'', rfl, ?_⟩
      show r.taken.length = _
      rw [htaken, List.length_append, hlen]
    | ready r payload => exact .inl ⟨_, rfl, rfl⟩
    | failed r e => exact .inl ⟨_, rfl, rfl⟩
  · intro hin
    simp only [Session.step, hplace]
    rw [if_pos hin]
    exact ⟨_, _, rfl, rfl, rfl⟩

/-- The frames that `write_data_frame` accepts come back in order through every split of their
stream and every placement of cancellations, and all of them come back. On any stream the reader
holds no payload longer than its limit, and a read returns a frame or an error. -/
theorem reads_written_frames (serde : SerdeJson) (hjson : serde.RoundTrips) (limit : ℕ)
    (codec : DataFrameCodec) :
    (∀ frames stream, writeAll serde limit codec frames = .ok stream →
      ∀ s, (machine serde limit codec stream).ReachableWhere Arrives s →
        s.returned <+: frames.map (fun f => .ok f.val) ∧
        (s.input = [] → s.returned = frames.map fun f => .ok f.val) ∧
        ∃ t, Relation.ReflTransGen ((machine serde limit codec stream).StepWhere Arrives) s t ∧
          t.returned = frames.map fun f => .ok f.val) ∧
    ∀ stream s, (machine serde limit codec stream).Reachable s →
      s.reader.inner.payload.length ≤ limit ∧ (s.reading ≠ none → s.Answers serde limit) := by
  constructor
  · intro frames stream hw s hs
    have hf := following_of_reachable hjson hw hs
    refine ⟨hf.prefix_returned, hf.all_returned, ?_⟩
    obtain ⟨t, hrun, hin, ht⟩ := reads_on (inv_of_reachable hs.reachable) hf stream
    exact ⟨t, hrun, ht.all_returned hin⟩
  · intro stream s hs
    have h := inv_of_reachable hs
    refine ⟨?_, ?_⟩
    · have hbound := h.wf.bounded
      rw [h.limit_eq] at hbound
      exact hbound
    · intro hreading
      obtain ⟨place, hplace⟩ := Option.ne_none_iff_exists'.mp hreading
      exact h.answers hplace

/-- The derived encoding of one frame; it knows no other. -/
def pingText : Bytes := "\x7b\"type\":\"ping\",\"nonce\":9\x7d".toUTF8.data.toList

def pingJson : SerdeJson where
  toVec frame := if frame = .ping 9 then .ok pingText else .error "unknown frame"
  fromSlice bytes := if bytes = pingText then .ok (.ping 9) else .error "unknown variant"

theorem pingJson_roundTrips : pingJson.RoundTrips := by
  intro frame bytes h
  simp only [pingJson] at h ⊢
  split_ifs at h with hframe
  injection h with h
  rw [← h, if_pos rfl, hframe]

def dataThenPing : List WireFrame :=
  [⟨.data 5 42 [1, 2, 3], by simp [DataFrame.Fits]⟩, ⟨.ping 9, by simp [DataFrame.Fits]⟩]

/-- Chunks that end inside the prefix and inside the payload, with a cancellation after each. -/
def cancelledReads : List Action :=
  [.read, .chunk 2, .cancel, .read, .chunk 2, .cancel, .read, .chunk 20, .cancel, .read, .chunk 8,
    .read, .cancel, .read, .chunk 4, .cancel, .read, .chunk 26]

theorem reads_written_frames_cancelled : ∃ stream s,
    writeAll pingJson 1024 .binaryV1 dataThenPing = .ok stream ∧
      (machine pingJson 1024 .binaryV1 stream).execWhere Arrives cancelledReads = some s ∧
      s.returned = [.ok (.data 5 42 [1, 2, 3]), .ok (.ping 9)] := by
  have hw : writeAll pingJson 1024 .binaryV1 dataThenPing =
      .ok ([0, 0, 0, 28] ++ 1 :: (BigEndian.toBytes 16 5 ++ BigEndian.toBytes 8 42 ++ [1, 2, 3]) ++
        ([0, 0, 0, 26] ++ 0 :: pingText)) := by decide
  have hrun : ((machine pingJson 1024 .binaryV1 ([0, 0, 0, 28] ++
      1 :: (BigEndian.toBytes 16 5 ++ BigEndian.toBytes 8 42 ++ [1, 2, 3]) ++
        ([0, 0, 0, 26] ++ 0 :: pingText))).execWhere Arrives cancelledReads).map
      (fun s => s.input) = some [] := by decide
  obtain ⟨s, hs, hin⟩ := Option.map_eq_some_iff.mp hrun
  have hreads := (reads_written_frames pingJson pingJson_roundTrips 1024 .binaryV1).1 _ _ hw s
    (Machine.reachableWhere_of_execWhere hs)
  exact ⟨_, s, hw, hs, hreads.2.1 hin⟩

end Session
end FlowSplice.Frame
