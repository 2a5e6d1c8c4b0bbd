import FlowSplice.Protocol
import FlowSplice.Lib.BigEndian

/-! The encodings of a business frame. JSON carries every frame; the first binary version packs
`data` and `datagram` behind a one byte marker and keeps JSON behind the marker 0. -/
namespace FlowSplice.Frame

inductive ErrorKind where
  | invalidData
  | unexpectedEof
  | timedOut
  | other
deriving DecidableEq, Repr

structure IoError where
  kind : ErrorKind
  message : String
deriving DecidableEq, Repr

inductive DataFrameCodec where
  | json
  | binaryV1
deriving DecidableEq, Repr

def DataFrameCodec.negotiate (peerVersion : ℕ) : DataFrameCodec :=
  if dataProtocolBinaryV1 ≤ peerVersion then .binaryV1 else .json

def DataFrameCodec.version : DataFrameCodec → ℕ
  | .json => 0
  | .binaryV1 => dataProtocolBinaryV1

/-- `serde_json::to_vec` and `serde_json::from_slice` at `DataFrame`; an error is its text. -/
structure SerdeJson where
  toVec : DataFrame → Except String Bytes
  fromSlice : Bytes → Except String DataFrame

/-- The derived encoding is read back by the derived decoding. -/
def SerdeJson.RoundTrips (serde : SerdeJson) : Prop :=
  ∀ frame bytes, serde.toVec frame = .ok bytes → serde.fromSlice bytes = .ok frame

/-- The numbers of a frame are within their types: `Uuid` is 128 bits, an offset, a sequence
number or a nonce is `u64`, and a protocol version is `u16`. -/
def DataFrame.Fits : DataFrame → Prop
  | .open flowId carrierId _ _ version =>
      flowId < 2 ^ 128 ∧ carrierId < 2 ^ 128 ∧ version < 2 ^ 16
  | .openOk flowId carrierId receiveOffset sendOffset version =>
      flowId < 2 ^ 128 ∧ carrierId < 2 ^ 128 ∧ receiveOffset < 2 ^ 64 ∧ sendOffset < 2 ^ 64 ∧
        version < 2 ^ 16
  | .openError flowId carrierId _ => flowId < 2 ^ 128 ∧ carrierId < 2 ^ 128
  | .race flowId raceId nextOffset => flowId < 2 ^ 128 ∧ raceId < 2 ^ 128 ∧ nextOffset < 2 ^ 64
  | .raceAck flowId raceId winnerCarrierId =>
      flowId < 2 ^ 128 ∧ raceId < 2 ^ 128 ∧ winnerCarrierId < 2 ^ 128
  | .raceDuplicate flowId raceId winnerCarrierId =>
      flowId < 2 ^ 128 ∧ raceId < 2 ^ 128 ∧ winnerCarrierId < 2 ^ 128
  | .data flowId offset _ => flowId < 2 ^ 128 ∧ offset < 2 ^ 64
  | .ack flowId nextOffset => flowId < 2 ^ 128 ∧ nextOffset < 2 ^ 64
  | .duplicate flowId nextOffset winnerCarrierId =>
      flowId < 2 ^ 128 ∧ nextOffset < 2 ^ 64 ∧ winnerCarrierId < 2 ^ 128
  | .datagram flowId sequence _ => flowId < 2 ^ 128 ∧ sequence < 2 ^ 64
  | .fin flowId finalOffset => flowId < 2 ^ 128 ∧ finalOffset < 2 ^ 64
  | .finAck flowId finalOffset => flowId < 2 ^ 128 ∧ finalOffset < 2 ^ 64
  | .close flowId _ => flowId < 2 ^ 128
  | .ping nonce => nonce < 2 ^ 64
  | .pong nonce => nonce < 2 ^ 64

/-- A frame as the program can hold it. -/
abbrev WireFrame := { frame : DataFrame // DataFrame.Fits frame }

variable {serde : SerdeJson} {codec : DataFrameCodec} {limit : ℕ} {payload bytes : Bytes}
  {frame : DataFrame}

/-- A marker, 16 bytes of flow id and 8 of position stand before the bytes. -/
def encodeBinaryPayload (marker : UInt8) (flowId : Uuid) (position : ℕ) (bytes : Bytes) :
    Except IoError Bytes :=
  if maxDataPayload < bytes.length then
    .error ⟨.invalidData, "binary data payload exceeds the configured limit"⟩
  else
    .ok (marker :: BigEndian.toBytes 16 flowId ++ BigEndian.toBytes 8 position ++ bytes)

/-- The payload that `write_data_frame_inner` hands to `write_payload`. -/
def encodeDataFrame (serde : SerdeJson) (codec : DataFrameCodec) (value : DataFrame) :
    Except IoError Bytes :=
  match codec, value with
  | .binaryV1, .data flowId offset bytes => encodeBinaryPayload 1 flowId offset bytes
  | .binaryV1, .datagram flowId sequence bytes => encodeBinaryPayload 2 flowId sequence bytes
  | .binaryV1, value =>
      match serde.toVec value with
      | .error text => .error ⟨.invalidData, text⟩
      | .ok json => .ok (0 :: json)
  | .json, value =>
      match serde.toVec value with
      | .error text => .error ⟨.invalidData, text⟩
      | .ok json => .ok json

/-- The bytes that a successful `write_payload` puts on the stream. -/
def writePayload (payload : Bytes) (limit : ℕ) : Except IoError Bytes :=
  if payload.isEmpty ∨ limit < payload.length then
    .error ⟨.invalidData,
      s!"encoded frame length {payload.length} is outside 1..={limit}"⟩
  else if 2 ^ 32 ≤ payload.length then
    .error ⟨.invalidData, "frame length overflow"⟩
  else
    .ok (BigEndian.toBytes 4 payload.length ++ payload)

/-- The bytes that a successful `write_data_frame` puts on the stream. -/
def writeDataFrame (serde : SerdeJson) (limit : ℕ) (codec : DataFrameCodec) (value : DataFrame) :
    Except IoError Bytes :=
  match encodeDataFrame serde codec value with
  | .error e => .error e
  | .ok payload => writePayload payload limit

/-- The stream after writing the frames one by one, if every one of them was accepted. -/
def writeAll (serde : SerdeJson) (limit : ℕ) (codec : DataFrameCodec) :
    List WireFrame → Except IoError Bytes
  | [] => .ok []
  | frame :: frames =>
      match writeDataFrame serde limit codec frame.val with
      | .error e => .error e
      | .ok bytes =>
        match writeAll serde limit codec frames with
        | .error e => .error e
        | .ok rest => .ok (bytes ++ rest)

def decodeJson (serde : SerdeJson) (bytes : Bytes) : Except IoError DataFrame :=
  match serde.fromSlice bytes with
  | .error text => .error ⟨.invalidData, text⟩
  | .ok frame => .ok frame

/-- The body behind the marker 1 or 2. -/
def decodeBinaryBody (make : Uuid → ℕ → Bytes → DataFrame) (body : Bytes) :
    Except IoError DataFrame :=
  if body.length < 24 then
    .error ⟨.invalidData, "binary data frame header is truncated"⟩
  else if maxDataPayload < (body.drop 24).length then
    .error ⟨.invalidData, "binary data payload exceeds the configured limit"⟩
  else
    .ok (make (BigEndian.ofBytes (body.take 16)) (BigEndian.ofBytes ((body.drop 16).take 8))
      (body.drop 24))

def decodeDataFrame (serde : SerdeJson) (payload : Bytes) (codec : DataFrameCodec) :
    Except IoError DataFrame :=
  match codec, payload with
  | .json, payload => decodeJson serde payload
  | .binaryV1, [] => .error ⟨.invalidData, "empty data frame"⟩
  | .binaryV1, marker :: body =>
      if marker = 0 then decodeJson serde body
      else if marker = 1 then decodeBinaryBody .data body
      else if marker = 2 then decodeBinaryBody .datagram body
      else .error ⟨.invalidData, "unknown binary data frame marker"⟩

theorem decodeJson_ok (h : serde.fromSlice bytes = .ok frame) :
    decodeJson serde bytes = .ok frame := by
  unfold decodeJson
  rw [h]

/-- A binary body is read back, whichever of the two frames it belongs to. -/
theorem decodeBinaryBody_encode {marker : UInt8} {flowId : Uuid} {position : ℕ}
    (make : Uuid → ℕ → Bytes → DataFrame) (hid : flowId < 2 ^ 128) (hpos : position < 2 ^ 64)
    (h : encodeBinaryPayload marker flowId position bytes = .ok payload) :
    ∃ body, payload = marker :: body ∧
      decodeBinaryBody make body = .ok (make flowId position bytes) := by
  unfold encodeBinaryPayload at h
  split_ifs at h with hlong
  injection h with h
  refine ⟨BigEndian.toBytes 16 flowId ++ BigEndian.toBytes 8 position ++ bytes, h.symm, ?_⟩
  have hid' : BigEndian.ofBytes (BigEndian.toBytes 16 flowId) = flowId :=
    BigEndian.ofBytes_toBytes (by omega)
  have hpos' : BigEndian.ofBytes (BigEndian.toBytes 8 position) = position :=
    BigEndian.ofBytes_toBytes (by omega)
  have htake : (BigEndian.toBytes 16 flowId ++ BigEndian.toBytes 8 position ++ bytes).take 16 =
      BigEndian.toBytes 16 flowId := by
    simp [List.append_assoc]
  have hmid : ((BigEndian.toBytes 16 flowId ++ BigEndian.toBytes 8 position ++ bytes).drop
      16).take 8 = BigEndian.toBytes 8 position := by
    simp [List.append_assoc]
  have hdrop : (BigEndian.toBytes 16 flowId ++ BigEndian.toBytes 8 position ++ bytes).drop 24 =
      bytes := by
    simp [List.drop_append]
  have hlen : ¬ (BigEndian.toBytes 16 flowId ++ BigEndian.toBytes 8 position ++
      bytes).length < 24 := by
    simp only [List.length_append, BigEndian.length_toBytes]
    omega
  unfold decodeBinaryBody
  rw [htake, hmid, hdrop, hid', hpos', if_neg hlen, if_neg hlong]

/-- What the encoder accepts the decoder of the same codec reads back. -/
theorem decodeDataFrame_encode (hjson : serde.RoundTrips) (hfits : DataFrame.Fits frame)
    (h : encodeDataFrame serde codec frame = .ok payload) :
    decodeDataFrame serde payload codec = .ok frame := by
  cases codec with
  | json =>
    simp only [encodeDataFrame] at h
    cases hvec : serde.toVec frame with
    | error text => simp [hvec] at h
    | ok json =>
      have hp : json = payload := by simpa [hvec] using h
      subst hp
      exact decodeJson_ok (hjson frame json hvec)
  | binaryV1 =>
    cases frame with
    | data flowId offset bytes =>
      obtain ⟨body, rfl, hbody⟩ := decodeBinaryBody_encode .data hfits.1 hfits.2 h
      exact hbody
    | datagram flowId sequence bytes =>
      obtain ⟨body, rfl, hbody⟩ := decodeBinaryBody_encode .datagram hfits.1 hfits.2 h
      exact hbody
    | _ =>
      simp only [encodeDataFrame] at h
      split at h
      · cases h
      · injection h with h
        subst h
        exact decodeJson_ok (hjson _ _ ‹_›)

/-- A frame decoded from a binary body has its numbers within their types. -/
theorem decodeBinaryBody_fits (make : Uuid → ℕ → Bytes → DataFrame)
    (hmake : ∀ flowId position bytes, flowId < 2 ^ 128 → position < 2 ^ 64 →
      DataFrame.Fits (make flowId position bytes))
    (h : decodeBinaryBody make bytes = .ok frame) : DataFrame.Fits frame := by
  unfold decodeBinaryBody at h
  split_ifs at h with hshort hlong
  injection h with h
  have hid := BigEndian.ofBytes_lt (bytes.take 16)
  have hpos := BigEndian.ofBytes_lt ((bytes.drop 16).take 8)
  have hlen : (bytes.take 16).length = 16 := by
    rw [List.length_take]
    omega
  have hlen' : ((bytes.drop 16).take 8).length = 8 := by
    rw [List.length_take, List.length_drop]
    omega
  rw [hlen] at hid
  rw [hlen'] at hpos
  rw [← h]
  exact hmake _ _ _ (by omega) (by omega)

/-- What the decoder accepts the program can hold, given that it can hold what JSON yields. -/
theorem decodeDataFrame_fits
    (hjson : ∀ text value, serde.fromSlice text = .ok value → DataFrame.Fits value)
    (h : decodeDataFrame serde payload codec = .ok frame) : DataFrame.Fits frame := by
  have hdecode : ∀ text, decodeJson serde text = .ok frame → DataFrame.Fits frame := by
    intro text ht
    unfold decodeJson at ht
    split at ht
    · cases ht
    · injection ht with ht
      rw [← ht]
      exact hjson _ _ ‹_›
  unfold decodeDataFrame at h
  split at h
  · exact hdecode _ h
  · cases h
  · split_ifs at h
    · exact hdecode _ h
    · exact decodeBinaryBody_fits .data (fun _ _ _ hid hpos => ⟨hid, hpos⟩) h
    · exact decodeBinaryBody_fits .datagram (fun _ _ _ hid hpos => ⟨hid, hpos⟩) h

end FlowSplice.Frame
