import FlowSplice.Frame.Codec
import FlowSplice.Lib.Framing
import FlowSplice.Lib.Machine

/-! The length prefixed reader and its cursors. A read future that is dropped loses its place in
the code and nothing else: what arrived is in the reader, and the next read finds it there. -/
namespace FlowSplice.Frame

structure LengthPrefixedReader where
  limit : ℕ
  /-- The source's `prefix`. -/
  lengthPrefix : Bytes
  prefixRead : ℕ
  payload : Bytes
  payloadRead : ℕ
deriving DecidableEq, Repr

/-- The two places where `read_payload` awaits the transport. -/
inductive Await where
  | lengthPrefix
  | payload
deriving DecidableEq, Repr

/-- The code of `read_payload` up to its next await or its return. -/
inductive ReadPayload where
  | pending (reader : LengthPrefixedReader) (place : Await)
  | ready (reader : LengthPrefixedReader) (payload : Bytes)
  | failed (reader : LengthPrefixedReader) (error : IoError)
deriving DecidableEq, Repr

/-- The buffer after `chunk` arrived at `cursor`. -/
def fill (buffer : Bytes) (cursor : ℕ) (chunk : Bytes) : Bytes :=
  buffer.take cursor ++ chunk ++ buffer.drop (cursor + chunk.length)

namespace LengthPrefixedReader
variable {r : LengthPrefixedReader} {place : Await} {chunk : Bytes}

def new (limit : ℕ) : LengthPrefixedReader where
  limit := limit
  lengthPrefix := List.replicate 4 0
  prefixRead := 0
  payload := []
  payloadRead := 0

/-- `read_payload` from its second loop on. -/
def readBody (r : LengthPrefixedReader) : ReadPayload :=
  if r.payloadRead < r.payload.length then .pending r .payload
  else .ready r r.payload

/-- `read_payload` from its beginning; each loop repeats its test here. -/
def readPayload (r : LengthPrefixedReader) : ReadPayload :=
  if r.prefixRead < r.lengthPrefix.length then .pending r .lengthPrefix
  else if r.payload.isEmpty then
    if BigEndian.ofBytes r.lengthPrefix = 0 ∨ r.limit < BigEndian.ofBytes r.lengthPrefix then
      .failed r ⟨.invalidData,
        s!"frame length {BigEndian.ofBytes r.lengthPrefix} is outside 1..={r.limit}"⟩
    else
      readBody { r with payload := List.replicate (BigEndian.ofBytes r.lengthPrefix) 0 }
  else readBody r

/-- The length of the slice that the awaited `read` may fill. -/
def want (r : LengthPrefixedReader) : Await → ℕ
  | .lengthPrefix => r.lengthPrefix.length - r.prefixRead
  | .payload => r.payload.length - r.payloadRead

/-- The awaited `read` returned these bytes. -/
def store (r : LengthPrefixedReader) (chunk : Bytes) : Await → LengthPrefixedReader
  | .lengthPrefix => { r with
      lengthPrefix := fill r.lengthPrefix r.prefixRead chunk
      prefixRead := r.prefixRead + chunk.length }
  | .payload => { r with
      payload := fill r.payload r.payloadRead chunk
      payloadRead := r.payloadRead + chunk.length }

/-- The code behind the await, once its `read` returned bytes. -/
def resume (r : LengthPrefixedReader) (place : Await) (chunk : Bytes) : ReadPayload :=
  match place with
  | .lengthPrefix => (r.store chunk .lengthPrefix).readPayload
  | .payload => (r.store chunk .payload).readBody

/-- The error of an awaited `read` that returned nothing. -/
def eofError : Await → IoError
  | .lengthPrefix => ⟨.unexpectedEof, "connection closed during frame length"⟩
  | .payload => ⟨.unexpectedEof, "connection closed during frame payload"⟩

def finishFrame (r : LengthPrefixedReader) : LengthPrefixedReader := { r with
  lengthPrefix := List.replicate 4 0
  prefixRead := 0
  payload := []
  payloadRead := 0 }

end LengthPrefixedReader

structure DataFrameReader where
  inner : LengthPrefixedReader
  codec : DataFrameCodec
deriving DecidableEq, Repr

/-- A reader, the bytes its transport has still to deliver, and what the calls of `read`
returned so far. -/
structure Session where
  reader : DataFrameReader
  /-- Where the read future awaits, if there is one. -/
  reading : Option Await
  input : Bytes
  returned : List (Except IoError DataFrame)

namespace Session
variable (serde : SerdeJson) (s : Session)

/-- The code of `DataFrameReader::read` around what `read_payload` did. -/
def advance : ReadPayload → Session
  | .pending inner place => { s with
      reader := { s.reader with inner := inner }
      reading := some place }
  | .ready inner payload => { s with
      reader := { s.reader with inner := inner.finishFrame }
      reading := none
      returned := s.returned ++ [decodeDataFrame serde payload s.reader.codec] }
  | .failed inner e => { s with
      reader := { s.reader with inner := inner }
      reading := none
      returned := s.returned ++ [.error e] }

inductive Action where
  /-- `read` is called and polled for the first time. -/
  | read
  /-- The awaited `read` of the transport returns the next `count` bytes. -/
  | chunk (count : ℕ)
  /-- The read future is dropped. -/
  | cancel
  /-- The awaited `read` finds the stream at its end. -/
  | close
  /-- The awaited `read` fails. -/
  | fail (error : IoError)

def step : Session → Action → Option Session
  | s, .read =>
      match s.reading with
      | none => some (s.advance serde s.reader.inner.readPayload)
      | some _ => none
  | s, .chunk count =>
      match s.reading with
      | none => none
      | some place =>
        if 0 < count ∧ count ≤ s.reader.inner.want place ∧ count ≤ s.input.length then
          some ({ s with input := s.input.drop count }.advance serde
            (s.reader.inner.resume place (s.input.take count)))
        else none
  | s, .cancel => some { s with reading := none }
  | s, .close =>
      match s.reading with
      | none => none
      | some place =>
        if s.input = [] then
          some (s.advance serde
            (.failed s.reader.inner (LengthPrefixedReader.eofError place)))
        else none
  | s, .fail e =>
      match s.reading with
      | none => none
      | some _ => some (s.advance serde (.failed s.reader.inner e))

/-- Any reads of a stream of bytes through a new reader. -/
def machine (limit : ℕ) (codec : DataFrameCodec) (stream : Bytes) : Machine Session Action where
  start := { reader := ⟨.new limit, codec⟩, reading := none, input := stream, returned := [] }
  step := step serde

/-- The transport stays open: it delivers bytes and neither ends nor fails. -/
def Arrives : Session → Action → Prop
  | _, .close => False
  | _, .fail _ => False
  | _, _ => True

instance : ∀ (s : Session) (action : Action), Decidable (Arrives s action)
  | _, .read => inferInstanceAs (Decidable True)
  | _, .chunk _ => inferInstanceAs (Decidable True)
  | _, .cancel => inferInstanceAs (Decidable True)
  | _, .close => inferInstanceAs (Decidable False)
  | _, .fail _ => inferInstanceAs (Decidable False)

end Session
end FlowSplice.Frame
