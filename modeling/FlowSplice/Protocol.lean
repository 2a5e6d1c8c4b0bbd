import Mathlib.Algebra.Group.Nat.Defs
import Mathlib.Data.Nat.Notation

/-! The business frames that Travel and Home exchange, and the limits they share. -/
namespace FlowSplice

abbrev Uuid := ℕ

abbrev Bytes := List UInt8

/-- `MAX_DATA_PAYLOAD`. Socket readers use a buffer of this size. -/
def maxDataPayload : ℕ := 64 * 1024

/-- `DATA_PROTOCOL_BINARY_V1`. -/
def dataProtocolBinaryV1 : ℕ := 1

inductive ServiceProtocol where
  | tcp
  | udp
deriving DecidableEq, Repr

/-- Offsets are `u64` in the source; no stream reaches 2^64 bytes, so they are naturals here
and `saturating_add` is addition. -/
inductive DataFrame where
  | open (flowId carrierId : Uuid) (serviceId : String) (protocol : ServiceProtocol)
      (dataProtocolVersion : ℕ)
  | openOk (flowId carrierId : Uuid) (receiveOffset sendOffset dataProtocolVersion : ℕ)
  | openError (flowId carrierId : Uuid) (reason : String)
  | race (flowId raceId : Uuid) (nextOffset : ℕ)
  | raceAck (flowId raceId winnerCarrierId : Uuid)
  | raceDuplicate (flowId raceId winnerCarrierId : Uuid)
  | data (flowId : Uuid) (offset : ℕ) (bytes : Bytes)
  | ack (flowId : Uuid) (nextOffset : ℕ)
  | duplicate (flowId : Uuid) (nextOffset : ℕ) (winnerCarrierId : Uuid)
  | datagram (flowId : Uuid) (sequence : ℕ) (bytes : Bytes)
  | fin (flowId : Uuid) (finalOffset : ℕ)
  | finAck (flowId : Uuid) (finalOffset : ℕ)
  | close (flowId : Uuid) (reason : String)
  | ping (nonce : ℕ)
  | pong (nonce : ℕ)
deriving DecidableEq, Repr

end FlowSplice
