import Mathlib.Algebra.BigOperators.Group.List.Basic
import Mathlib.Algebra.GroupWithZero.Nat
import FlowSplice.Flow.Queue

/-! The credit of what an end of a TCP flow has read and not yet seen acknowledged: its reader task,
the events that it sends, and the segments with their permits. The reader, the arm for what it read
and `acknowledge` are the same code in `tcp_flow.rs` of both crates. -/
namespace FlowSplice.Flow

/-- A `Segment` with its permits. -/
structure HeldSegment where
  segment : Segment
  credit : ℕ
deriving DecidableEq, Repr

/-- What the reader sends to the loop of the flow. -/
inductive ReaderEvent where
  | data (bytes : Bytes) (credit : ℕ)
  | eof
  | error (reason : String)
deriving DecidableEq, Repr

/-- Where the reader task is. Once it has read bytes, it waits for permits, and then for room in the
channel. -/
inductive Reader where
  | reading
  | waiting (bytes : Bytes)
  | sending (event : ReaderEvent)
  | returned
deriving DecidableEq, Repr

inductive ReaderAction where
  | read (bytes : Bytes)
  | readFails (reason : String)
  | acquire
  | send
deriving DecidableEq, Repr

/-- `available` are the permits of `send_credit`, and `events` are those of the reader that are in the
channel. -/
structure SendSide where
  maxUnackedBytes : ℕ
  available : ℕ
  reader : Reader := .reading
  events : List ReaderEvent := []
  sendOffset : ℕ := 0
  sendAcked : ℕ := 0
  unacked : List HeldSegment := []
  unackedBytes : ℕ := 0
deriving DecidableEq, Repr

def ReaderEvent.credit : ReaderEvent → ℕ
  | .data _ credit => credit
  | _ => 0

def Reader.credit : Reader → ℕ
  | .sending event => event.credit
  | _ => 0

namespace SendSide

def start (maxUnackedBytes : ℕ) : SendSide where
  maxUnackedBytes := maxUnackedBytes
  available := maxUnackedBytes

variable (s : SendSide)

/-- `spawn_local_reader`, and the reader task of `run_flow`. -/
def readerStep : ReaderAction → Option SendSide
  | .read bytes =>
    if s.reader = .reading ∧ bytes.length ≤ maxDataPayload then
      some { s with reader := if bytes = [] then .sending .eof else .waiting bytes }
    else none
  | .readFails reason =>
    if s.reader = .reading then some { s with reader := .sending (.error reason) } else none
  | .acquire =>
    match s.reader with
    | .waiting bytes =>
      if bytes.length ≤ s.available then
        some { s with
          available := s.available - bytes.length
          reader := .sending (.data bytes bytes.length) }
      else none
    | _ => none
  | .send =>
    match s.reader with
    | .sending event =>
      some { s with
        events := s.events ++ [event]
        reader := match event with
          | .data _ _ => .reading
          | _ => .returned }
    | _ => none

/-- The arm of the loop for an event of the reader. Over the limit the loop bails, and the permits of
the event are released with it. -/
def buffer : ReaderEvent → SendSide
  | .data bytes credit =>
    if s.unackedBytes + bytes.length > s.maxUnackedBytes then
      { s with available := s.available + credit }
    else
      { s with
        sendOffset := s.sendOffset + bytes.length
        unackedBytes := s.unackedBytes + bytes.length
        unacked := s.unacked ++ [⟨⟨s.sendOffset, bytes⟩, credit⟩] }
  | _ => s

/-- The loop of `acknowledge`. A segment that is popped releases its permits. -/
def popAcked (nextOffset : ℕ) :
    List HeldSegment → ℕ → ℕ → List HeldSegment × ℕ × ℕ
  | [], unackedBytes, available => ([], unackedBytes, available)
  | held :: rest, unackedBytes, available =>
    if held.segment.end > nextOffset then (held :: rest, unackedBytes, available)
    else popAcked nextOffset rest (unackedBytes - held.segment.bytes.length)
      (available + held.credit)

/-- `acknowledge`, and whether it did not bail. Where it bails, segments have been popped, and
`send_acked` is as it was. -/
def acknowledge (nextOffset : ℕ) : SendSide × Bool :=
  let (unacked, unackedBytes, available) :=
    popAcked nextOffset s.unacked s.unackedBytes s.available
  let popped := { s with unacked, unackedBytes, available }
  if unacked.head?.any (fun held => held.segment.offset < nextOffset) then (popped, false)
  else ({ popped with sendAcked := nextOffset }, true)

/-- The queue without the permits. -/
def queue : SendQueue where
  sendOffset := s.sendOffset
  sendAcked := s.sendAcked
  unacked := s.unacked.map (·.segment)
  unackedBytes := s.unackedBytes

/-- Segments follow one another from one offset to another. -/
def Contiguous : ℕ → List HeldSegment → ℕ → Prop
  | first, [], last => first = last
  | first, held :: rest, last =>
    held.segment.offset = first ∧ Contiguous held.segment.end rest last

/-- The permits that segments hold. -/
def heldCredit : ℕ := (s.unacked.map (·.credit)).sum

/-- The permits of reads that have not been processed. -/
def pendingCredit : ℕ := s.reader.credit + (s.events.map (·.credit)).sum

/-- Bytes and permits are accounted for. -/
structure Accounted : Prop where
  bytes : s.unackedBytes = (s.unacked.map (·.segment.bytes.length)).sum
  credit : ∀ held ∈ s.unacked, held.credit = held.segment.bytes.length
  events : ∀ bytes credit, .data bytes credit ∈ s.events → credit = bytes.length
  reader : ∀ bytes credit, s.reader = .sending (.data bytes credit) → credit = bytes.length
  waiting : ∀ bytes, s.reader = .waiting bytes → bytes.length ≤ maxDataPayload
  permits : s.available + s.pendingCredit + s.heldCredit = s.maxUnackedBytes

variable {s} {s' : SendSide} {a : ReaderAction} {event : ReaderEvent} {rest : List ReaderEvent}
  {first last n : ℕ} {held : HeldSegment} {l : List HeldSegment}

theorem accounted_start (maxUnackedBytes : ℕ) : (start maxUnackedBytes).Accounted where
  bytes := rfl
  credit _ h := by cases h
  events _ _ h := by cases h
  reader _ _ h := by cases h
  waiting _ h := by cases h
  permits := rfl

theorem Accounted.heldCredit_eq (h : s.Accounted) : s.heldCredit = s.unackedBytes := by
  have hsame : s.unacked.map (·.credit) = s.unacked.map (·.segment.bytes.length) :=
    List.map_congr_left h.credit
  unfold heldCredit
  rw [hsame, ← h.bytes]

/-- The reader goes on from a read that brought no permits. -/
theorem Accounted.turns {reader : Reader} (h : s.Accounted) (hreading : s.reader = .reading)
    (hcredit : reader.credit = 0)
    (hwaiting : ∀ bytes, reader = .waiting bytes → bytes.length ≤ maxDataPayload)
    (hsending : ∀ bytes credit, reader ≠ .sending (.data bytes credit)) :
    Accounted { s with reader := reader } := by
  have hpermits := h.permits
  unfold pendingCredit at hpermits
  rw [hreading] at hpermits
  refine ⟨h.bytes, h.credit, h.events, ?_, hwaiting, ?_⟩
  · intro bytes credit heq
    exact absurd heq (hsending bytes credit)
  · show s.available + (reader.credit + (s.events.map (·.credit)).sum) +
      s.heldCredit = s.maxUnackedBytes
    rw [hcredit]
    exact hpermits

theorem Accounted.readerStep (h : s.Accounted) (hs : s.readerStep a = some s') :
    s'.Accounted := by
  unfold SendSide.readerStep at hs
  have hpermits := h.permits
  unfold pendingCredit at hpermits
  cases a with
  | read bytes =>
    dsimp only at hs
    split_ifs at hs with hreading hempty
    · rw [← Option.some.inj hs]
      exact h.turns hreading.1 rfl (fun _ hwaiting => by cases hwaiting)
        fun _ _ hsending => by cases hsending
    · rw [← Option.some.inj hs]
      apply h.turns hreading.1 rfl
      · intro bytes' hwaiting
        rw [← Reader.waiting.inj hwaiting]
        exact hreading.2
      · intro _ _ hsending
        cases hsending
  | readFails reason =>
    dsimp only at hs
    split_ifs at hs with hreading
    rw [← Option.some.inj hs]
    exact h.turns hreading rfl (fun _ hwaiting => by cases hwaiting)
      fun _ _ hsending => by cases hsending
  | acquire =>
    dsimp only at hs
    split at hs
    · next bytes hwaiting =>
      split_ifs at hs with henough
      rw [← Option.some.inj hs]
      rw [hwaiting] at hpermits
      refine ⟨h.bytes, h.credit, h.events, ?_, fun _ hwaiting => (by cases hwaiting), ?_⟩
      · intro bytes' credit hsending
        obtain ⟨rfl, rfl⟩ := ReaderEvent.data.inj (Reader.sending.inj hsending)
        rfl
      · show s.available - bytes.length + (bytes.length + (s.events.map (·.credit)).sum) +
          s.heldCredit =
          s.maxUnackedBytes
        have hpermits : s.available + (0 + (s.events.map (·.credit)).sum) + s.heldCredit =
          s.maxUnackedBytes := hpermits
        omega
    · cases hs
  | send =>
    dsimp only at hs
    split at hs
    · next event hsending =>
      rw [← Option.some.inj hs]
      rw [hsending] at hpermits
      refine ⟨h.bytes, h.credit, ?_, ?_, ?_, ?_⟩
      · intro bytes credit hmem
        rcases List.mem_append.mp hmem with hold | hnew
        · exact h.events bytes credit hold
        · rw [List.mem_singleton] at hnew
          rw [← hnew] at hsending
          exact h.reader bytes credit hsending
      · intro bytes credit hreader
        cases event <;> cases hreader
      · intro bytes hreader
        cases event <;> cases hreader
      · have hnone : (match event with
            | .data _ _ => Reader.reading
            | _ => Reader.returned).credit = 0 := by
          cases event <;> rfl
        show s.available + (_ + ((s.events ++ [event]).map (·.credit)).sum) +
      s.heldCredit = s.maxUnackedBytes
        have hpermits : s.available + (event.credit + (s.events.map (·.credit)).sum) +
          s.heldCredit = s.maxUnackedBytes := hpermits
        rw [hnone, List.map_append, List.sum_append, List.map_singleton, List.sum_singleton]
        omega
    · cases hs

/-- An event that the loop has received is in neither place, until it is handled. -/
theorem Accounted.fits (h : s.Accounted) (hevents : s.events = event :: rest) :
    s.unackedBytes + event.credit ≤ s.maxUnackedBytes := by
  have hpermits := h.permits
  unfold pendingCredit at hpermits
  rw [hevents, List.map_cons, List.sum_cons, h.heldCredit_eq] at hpermits
  omega

/-- The limit is never reached, as all permits would be taken before. -/
theorem Accounted.buffer (h : s.Accounted) (hevents : s.events = event :: rest) :
    (({ s with events := rest } : SendSide).buffer event).Accounted := by
  have hfits := h.fits hevents
  have hpermits := h.permits
  unfold pendingCredit at hpermits
  rw [hevents, List.map_cons, List.sum_cons] at hpermits
  have hrest : ∀ bytes credit, .data bytes credit ∈ rest → credit = bytes.length := by
    intro bytes credit hmem
    apply h.events bytes credit
    rw [hevents]
    exact List.mem_cons_of_mem _ hmem
  cases event with
  | data bytes credit =>
    have hcredit : credit = bytes.length := by
      apply h.events bytes credit
      rw [hevents]
      exact List.mem_cons_self
    have hle : ¬ s.unackedBytes + bytes.length > s.maxUnackedBytes := by
      rw [← hcredit]
      exact Nat.not_lt.mpr hfits
    unfold SendSide.buffer
    dsimp only
    rw [if_neg hle]
    refine ⟨?_, ?_, hrest, h.reader, h.waiting, ?_⟩
    · rw [List.map_append, List.sum_append, List.map_singleton, List.sum_singleton, ← h.bytes]
    · intro held hmem
      rcases List.mem_append.mp hmem with hold | hnew
      · exact h.credit held hold
      · rw [List.mem_singleton.mp hnew]
        exact hcredit
    · unfold pendingCredit heldCredit
      rw [List.map_append, List.sum_append, List.map_singleton, List.sum_singleton]
      have hpermits : s.available + (s.reader.credit + (credit + (rest.map (·.credit)).sum)) +
        (s.unacked.map (·.credit)).sum = s.maxUnackedBytes := hpermits
      show s.available + (s.reader.credit + (rest.map (·.credit)).sum) +
        ((s.unacked.map (·.credit)).sum + credit) = s.maxUnackedBytes
      omega
  | eof =>
    refine ⟨h.bytes, h.credit, hrest, h.reader, h.waiting, ?_⟩
    have hpermits : s.available + (s.reader.credit + (0 + (rest.map (·.credit)).sum)) +
      s.heldCredit = s.maxUnackedBytes := hpermits
    show s.available + (s.reader.credit + (rest.map (·.credit)).sum) +
      s.heldCredit = s.maxUnackedBytes
    omega
  | error reason =>
    refine ⟨h.bytes, h.credit, hrest, h.reader, h.waiting, ?_⟩
    have hpermits : s.available + (s.reader.credit + (0 + (rest.map (·.credit)).sum)) +
      s.heldCredit = s.maxUnackedBytes := hpermits
    show s.available + (s.reader.credit + (rest.map (·.credit)).sum) +
      s.heldCredit = s.maxUnackedBytes
    omega

theorem Contiguous.append {bytes : Bytes} {credit : ℕ} (h : Contiguous first l last) :
    Contiguous first (l ++ [⟨⟨last, bytes⟩, credit⟩]) (last + bytes.length) := by
  induction l generalizing first with
  | nil =>
    have h : first = last := h
    rw [h]
    exact ⟨rfl, rfl⟩
  | cons held rest ih => exact ⟨h.1, ih h.2⟩

theorem Contiguous.le (h : Contiguous first l last) : first ≤ last := by
  induction l generalizing first with
  | nil => exact le_of_eq h
  | cons held rest ih =>
    have hle := ih h.2
    have hstart := h.1
    unfold Segment.end at hle
    omega

/-- What is left of contiguous segments starts at or before the acknowledged offset, unless none of
them is left. -/
theorem Contiguous.popAcked (h : Contiguous first l last) (hfirst : first ≤ n)
    (bytes available : ℕ) :
    ∃ next, first ≤ next ∧ next ≤ n ∧
      Contiguous next (SendSide.popAcked n l bytes available).1 last ∧
      ∀ held ∈ (SendSide.popAcked n l bytes available).1.head?, n < held.segment.end := by
  induction l generalizing first bytes available with
  | nil => exact ⟨first, le_rfl, hfirst, h, fun _ hmem => by cases hmem⟩
  | cons held rest ih =>
    unfold SendSide.popAcked
    by_cases hend : held.segment.end > n
    · rw [if_pos hend]
      refine ⟨first, le_rfl, hfirst, h, fun head hmem => ?_⟩
      rw [← Option.some.inj hmem]
      exact hend
    · rw [if_neg hend]
      have hle : held.segment.end ≤ n := Nat.not_lt.mp hend
      obtain ⟨next, hnext, hrest⟩ := ih h.2 hle (bytes - held.segment.bytes.length)
        (available + held.credit)
      refine ⟨next, ?_, hrest⟩
      have hstart := h.1
      unfold Segment.end at hnext
      omega

/-- The bytes of what is popped are taken off, and its permits are given back. -/
theorem popAcked_sums (hcredit : ∀ held ∈ l, held.credit = held.segment.bytes.length)
    (available : ℕ) :
    (popAcked n l (l.map (·.segment.bytes.length)).sum available).2.1 =
        ((popAcked n l (l.map (·.segment.bytes.length)).sum available).1.map
          (·.segment.bytes.length)).sum ∧
      (popAcked n l (l.map (·.segment.bytes.length)).sum available).2.2 +
          ((popAcked n l (l.map (·.segment.bytes.length)).sum available).1.map (·.credit)).sum =
        available + (l.map (·.credit)).sum ∧
      ∀ held ∈ (popAcked n l (l.map (·.segment.bytes.length)).sum available).1, held ∈ l := by
  induction l generalizing available with
  | nil => exact ⟨rfl, rfl, fun _ h => h⟩
  | cons held rest ih =>
    unfold popAcked
    by_cases hend : held.segment.end > n
    · rw [if_pos hend]
      exact ⟨rfl, rfl, fun _ h => h⟩
    · rw [if_neg hend, List.map_cons, List.sum_cons, Nat.add_sub_cancel_left]
      have hrest : ∀ held ∈ rest, held.credit = held.segment.bytes.length := fun held hmem =>
        hcredit held (List.mem_cons_of_mem _ hmem)
      obtain ⟨hbytes, hpermits, hmem⟩ := ih hrest (available + held.credit)
      refine ⟨hbytes, ?_, fun other hother => List.mem_cons_of_mem _ (hmem other hother)⟩
      rw [hpermits, List.map_cons, List.sum_cons]
      omega

/-- An acknowledgement keeps the accounts, also where it bails. -/
theorem Accounted.acknowledge (h : s.Accounted) : (s.acknowledge n).1.Accounted := by
  obtain ⟨hbytes, hpermits, hmem⟩ := popAcked_sums (n := n) h.credit s.available
  rw [← h.bytes] at hbytes hpermits hmem
  have hall := h.permits
  unfold heldCredit at hall
  have hpopped : Accounted { s with
      unacked := (popAcked n s.unacked s.unackedBytes s.available).1
      unackedBytes := (popAcked n s.unacked s.unackedBytes s.available).2.1
      available := (popAcked n s.unacked s.unackedBytes s.available).2.2 } := by
    refine ⟨hbytes, fun held hheld => h.credit held (hmem held hheld), h.events, h.reader,
      h.waiting, ?_⟩
    show _ + s.pendingCredit + _ = s.maxUnackedBytes
    unfold heldCredit
    dsimp only
    omega
  unfold SendSide.acknowledge
  dsimp only
  split_ifs
  · exact hpopped
  · exact ⟨hpopped.bytes, hpopped.credit, hpopped.events, hpopped.reader, hpopped.waiting,
      hpopped.permits⟩

/-- An acknowledgement that does not bail leaves contiguous segments. One that bails leaves
contiguous segments as well, but those before them may be gone. -/
theorem contiguous_acknowledge (h : Contiguous s.sendAcked s.unacked s.sendOffset)
    (hacked : s.sendAcked ≤ n) (hsent : n ≤ s.sendOffset) :
    (s.acknowledge n).1.sendOffset = s.sendOffset ∧
    ((s.acknowledge n).2 = true → Contiguous n (s.acknowledge n).1.unacked s.sendOffset ∧
      (s.acknowledge n).1.sendAcked = n) ∧
    ((s.acknowledge n).2 = false → (s.acknowledge n).1.sendAcked = s.sendAcked ∧
      ∃ next, s.sendAcked ≤ next ∧ Contiguous next (s.acknowledge n).1.unacked s.sendOffset) := by
  obtain ⟨next, hle, hnext, hpopped, hhead⟩ := h.popAcked hacked s.unackedBytes s.available
  unfold SendSide.acknowledge
  dsimp only
  by_cases hsplit : (popAcked n s.unacked s.unackedBytes s.available).1.head?.any
      (fun held => held.segment.offset < n) = true
  · rw [if_pos hsplit]
    exact ⟨rfl, fun h => (by cases h), fun _ => ⟨rfl, next, hle, hpopped⟩⟩
  · rw [if_neg hsplit]
    refine ⟨rfl, fun _ => ⟨?_, rfl⟩, fun h => by cases h⟩
    show Contiguous n (popAcked n s.unacked s.unackedBytes s.available).1 s.sendOffset
    cases hrest : (popAcked n s.unacked s.unackedBytes s.available).1 with
    | nil =>
      rw [hrest] at hpopped
      have hlast : next = s.sendOffset := hpopped
      show n = s.sendOffset
      omega
    | cons held rest =>
      rw [hrest] at hpopped hsplit
      have hstart : ¬ held.segment.offset < n := by simpa using hsplit
      have hoffset : held.segment.offset = next := hpopped.1
      refine ⟨?_, hpopped.2⟩
      omega

/-- Without the permits it is the queue of the flow that is acknowledged. -/
theorem popAcked_queue (l : List HeldSegment) (bytes available : ℕ) :
    SendQueue.popAcked n (l.map (·.segment)) bytes =
      ((popAcked n l bytes available).1.map (·.segment), (popAcked n l bytes available).2.1) := by
  induction l generalizing bytes available with
  | nil => rfl
  | cons held rest ih =>
    rw [List.map_cons]
    unfold SendQueue.popAcked popAcked
    by_cases hend : held.segment.end > n
    · rw [if_pos hend, if_pos hend]
      rfl
    · rw [if_neg hend, if_neg hend]
      exact ih _ _

theorem acknowledge_queue :
    s.queue.acknowledge n =
      match s.acknowledge n with
      | (next, true) => some next.queue
      | (_, false) => none := by
  have hpop := popAcked_queue (n := n) s.unacked s.unackedBytes s.available
  have hhead : ((popAcked n s.unacked s.unackedBytes s.available).1.map (·.segment)).head?.any
      (fun segment => segment.offset < n) =
      (popAcked n s.unacked s.unackedBytes s.available).1.head?.any
        (fun held => held.segment.offset < n) := by
    rw [List.head?_map, Option.any_map]
  unfold SendQueue.acknowledge SendSide.acknowledge
  dsimp only [queue]
  rw [hpop, hhead]
  by_cases hsplit : (popAcked n s.unacked s.unackedBytes s.available).1.head?.any
      (fun held => held.segment.offset < n) = true
  · rw [if_pos hsplit, if_pos hsplit]
  · rw [if_neg hsplit, if_neg hsplit]

/-- And it is that queue which takes what was read. -/
theorem buffer_queue {bytes : Bytes} {credit : ℕ}
    (h : ¬ s.unackedBytes + bytes.length > s.maxUnackedBytes) :
    (s.buffer (.data bytes credit)).queue = s.queue.push bytes := by
  unfold buffer
  dsimp only
  rw [if_neg h]
  unfold queue SendQueue.push SendQueue.segment
  dsimp only
  rw [List.map_append]
  rfl

end SendSide
end FlowSplice.Flow
