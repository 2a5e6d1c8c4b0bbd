import FlowSplice.Lib.Chunks
import FlowSplice.Protocol

/-! What both ends of a TCP flow keep about the direction they send and the socket they write.
`acknowledge` and `retransmit` are the same functions in `tcp_flow.rs` of both crates. -/
namespace FlowSplice.Flow

structure Segment where
  offset : ℕ
  bytes : Bytes
deriving DecidableEq, Repr

def Segment.end (segment : Segment) : ℕ := segment.offset + segment.bytes.length

/-- The write half of a socket: the bytes it took, and how many it had taken when it was
shut down. -/
structure WriteHalf where
  written : Bytes := []
  shutdownAt : Option ℕ := none
deriving DecidableEq, Repr

def WriteHalf.write (w : WriteHalf) (bytes : Bytes) : WriteHalf :=
  { w with written := w.written ++ bytes }

def WriteHalf.shutdown (w : WriteHalf) : WriteHalf :=
  { w with shutdownAt := w.shutdownAt.or (some w.written.length) }

/-- How a socket operation ends. One that fails, or runs into its timeout, may have taken some
of the bytes before. -/
inductive Io where
  | done
  | failed (delivered : ℕ) (reason : String)
deriving DecidableEq, Repr

/-- `send_offset`, `send_acked`, `unacked` and `unacked_bytes`. -/
structure SendQueue where
  sendOffset : ℕ := 0
  sendAcked : ℕ := 0
  unacked : List Segment := []
  unackedBytes : ℕ := 0
deriving DecidableEq, Repr

namespace SendQueue

/-- The segment for bytes just read from the socket. -/
def segment (q : SendQueue) (bytes : Bytes) : Segment :=
  { offset := q.sendOffset, bytes := bytes }

/-- Buffers bytes just read from the socket. -/
def push (q : SendQueue) (bytes : Bytes) : SendQueue :=
  { q with
    sendOffset := q.sendOffset + bytes.length
    unackedBytes := q.unackedBytes + bytes.length
    unacked := q.unacked ++ [q.segment bytes] }

/-- The loop of `acknowledge`: pops segments that end at or before `nextOffset`. -/
def popAcked (nextOffset : ℕ) : List Segment → ℕ → List Segment × ℕ
  | [], unackedBytes => ([], unackedBytes)
  | segment :: rest, unackedBytes =>
    if segment.end > nextOffset then (segment :: rest, unackedBytes)
    else popAcked nextOffset rest (unackedBytes - segment.bytes.length)

/-- `none` is the bail "ACK split a TCP data frame". -/
def acknowledge (q : SendQueue) (nextOffset : ℕ) : Option SendQueue :=
  let (unacked, unackedBytes) := popAcked nextOffset q.unacked q.unackedBytes
  if unacked.head?.any (fun segment => segment.offset < nextOffset) then none
  else some { q with
    unacked := unacked, unackedBytes := unackedBytes, sendAcked := nextOffset }

/-- The frames of `retransmit`, in order. -/
def retransmit (q : SendQueue) (flowId : Uuid) (eof : Bool) : List DataFrame :=
  q.unacked.map (fun segment => .data flowId segment.offset segment.bytes) ++
    if eof then [.fin flowId q.sendOffset] else []

theorem popAcked_fst (n : ℕ) (unacked : List Segment) (bytes : ℕ) :
    (popAcked n unacked bytes).1 = unacked.dropWhile (fun segment => segment.end ≤ n) := by
  induction unacked generalizing bytes with
  | nil => rfl
  | cons segment rest ih =>
    simp only [popAcked]
    split_ifs with h
    · rw [List.dropWhile_cons_of_neg (by simpa using h)]
    · rw [ih, List.dropWhile_cons_of_pos (by simpa using h)]

end SendQueue

end FlowSplice.Flow
