import Mathlib.Logic.Function.Basic
import Mathlib.Logic.Relation
import FlowSplice.Lib.Chunks

/-! Reliable transfer of one byte stream over any number of ordered channels that may lose
what they carry. The sender keeps every chunk until a cumulative acknowledgement covers it and
sends all kept chunks again on each channel it turns to; the receiver takes a chunk that starts
where it stands. Nothing is assumed of how channels are delayed against each other. -/
namespace Transfer
open Chunks

/-- What travels with the stream. A probe reports how much the sender knows acknowledged. -/
inductive Forward (α : Type*) where
  | data (offset : ℕ) (bytes : List α)
  | fin (finalOffset : ℕ)
  | probe (acked : ℕ)

/-- What travels against the stream. -/
inductive Backward where
  | ack (nextOffset : ℕ)
  | finAck (finalOffset : ℕ)

/-- `torn` records that a chunk was written only in part, `refused` that something was taken
off a channel without having been delivered. -/
structure State (κ α : Type*) where
  reads : List (List α)
  eof : Bool
  acked : ℕ
  unacked : List (ℕ × List α)
  finAcked : Bool
  active : Option κ
  up : κ → Bool
  forward : κ → List (Forward α)
  backward : κ → List Backward
  received : ℕ
  written : List α
  closedAt : Option ℕ
  torn : Bool
  refused : Bool

namespace State
variable {κ α : Type*} [DecidableEq κ]

/-- The offset after the last chunk read. -/
def sent (s : State κ α) : ℕ := s.reads.flatten.length

/-- An open channel takes the messages last in its queue; a closed one drops them. -/
def sendForward (s : State κ α) (oc : Option κ) (ms : List (Forward α)) : State κ α :=
  { s with forward := fun d => if oc = some d ∧ s.up d then s.forward d ++ ms else s.forward d }

def sendBackward (s : State κ α) (c : κ) (ms : List Backward) : State κ α :=
  { s with backward := fun d => if d = c ∧ s.up d then s.backward d ++ ms else s.backward d }

def popForward (s : State κ α) (c : κ) (rest : List (Forward α)) : State κ α :=
  { s with forward := Function.update s.forward c rest }

def popBackward (s : State κ α) (c : κ) (rest : List Backward) : State κ α :=
  { s with backward := Function.update s.backward c rest }

/-- All kept chunks, and the end of the stream once it is known. -/
def retained (s : State κ α) : List (Forward α) :=
  s.unacked.map (fun p => .data p.1 p.2) ++ if s.eof then [.fin s.sent] else []

/-- A cumulative acknowledgement releases every chunk that ends at or before it. -/
def settle (s : State κ α) (n : ℕ) : State κ α :=
  { s with acked := n, unacked := s.unacked.dropWhile (fun p => p.1 + p.2.length ≤ n) }

@[simp] theorem sendForward_nil (s : State κ α) (oc : Option κ) : s.sendForward oc [] = s := by
  simp [sendForward]

@[simp] theorem sendForward_none (s : State κ α) (ms : List (Forward α)) :
    s.sendForward none ms = s := by
  simp [sendForward]

@[simp] theorem sendBackward_nil (s : State κ α) (c : κ) : s.sendBackward c [] = s := by
  simp [sendBackward]

@[simp] theorem popForward_self (s : State κ α) (c : κ) : s.popForward c (s.forward c) = s := by
  simp [popForward]

@[simp] theorem popBackward_self (s : State κ α) (c : κ) :
    s.popBackward c (s.backward c) = s := by
  simp [popBackward]

end State

variable {κ α : Type*} [DecidableEq κ]

open State in
/-- The moves of the sender, of the receiver and of the channels. -/
inductive Step (s : State κ α) : State κ α → Prop where
  | read (b : List α) (hb : b ≠ []) (heof : s.eof = false) :
      Step s ({ s with
        reads := s.reads ++ [b]
        unacked := s.unacked ++ [(s.sent, b)] }.sendForward s.active [.data s.sent b])
  | endRead : Step s ({ s with eof := true }.sendForward s.active [.fin s.sent])
  | activate (c : κ) : Step s ({ s with active := some c }.sendForward (some c) s.retained)
  | deactivate : Step s { s with active := none }
  | probe (c : κ) : Step s (s.sendForward (some c) [.probe s.acked])
  | takeAck (c : κ) (n : ℕ) (rest : List Backward) (h : s.backward c = .ack n :: rest)
      (hn : s.acked ≤ n) : Step s ((s.popBackward c rest).settle n)
  | takeFinAck (c : κ) (f : ℕ) (rest : List Backward) (h : s.backward c = .finAck f :: rest) :
      Step s { s.popBackward c rest with finAcked := true }
  | dropBackward (c : κ) (rest : List Backward) (h : rest <:+ s.backward c) :
      Step s (s.popBackward c rest)
  | accept (c : κ) (b : List α) (rest : List (Forward α))
      (h : s.forward c = .data s.received b :: rest) (ht : s.torn = false) :
      Step s { s.popForward c rest with
        written := s.written ++ b, received := s.received + b.length }
  | tear (c : κ) (b : List α) (rest : List (Forward α)) (n k : ℕ)
      (h : s.forward c = .data s.received b :: rest) (ht : s.torn = false)
      (hk : k ≤ (b.take n).length) :
      Step s { s.popForward c rest with
        written := s.written ++ b.take n, received := s.received + k, torn := true, refused := true }
  | skipData (c : κ) (o : ℕ) (b : List α) (rest : List (Forward α))
      (h : s.forward c = .data o b :: rest) (hle : o + b.length ≤ s.received) :
      Step s (s.popForward c rest)
  | skipProbe (c : κ) (n : ℕ) (rest : List (Forward α)) (h : s.forward c = .probe n :: rest) :
      Step s (s.popForward c rest)
  | finish (c : κ) (rest : List (Forward α)) (h : s.forward c = .fin s.received :: rest)
      (ht : s.torn = false) :
      Step s { s.popForward c rest with closedAt := s.closedAt.or (some s.written.length) }
  | refuse (c : κ) (rest : List (Forward α)) (t : Bool) (h : rest <:+ s.forward c) :
      Step s { s.popForward c rest with torn := s.torn || t, refused := true }
  | sendAck (c : κ) (ht : s.torn = false) : Step s (s.sendBackward c [.ack s.received])
  | sendFinAck (c : κ) (ht : s.closedAt.isSome) : Step s (s.sendBackward c [.finAck s.received])
  | lose (c : κ) (fs : List (Forward α)) (bs : List Backward) (hf : fs <+: s.forward c)
      (hb : bs <+: s.backward c) :
      Step s { s with
        up := Function.update s.up c false
        forward := Function.update s.forward c fs
        backward := Function.update s.backward c bs }
  | open (up : κ → Bool)
      (h : ∀ c, up c ≠ s.up c → s.forward c = [] ∧ s.backward c = [] ∧ s.active ≠ some c) :
      Step s { s with up := up }

/-- Finitely many moves. -/
abbrev Steps : State κ α → State κ α → Prop := Relation.ReflTransGen Step

/-- A message that travels with the stream tells the truth about it. -/
def ForwardOk (s : State κ α) : Forward α → Prop
  | .data o b => Segment s.reads o b
  | .fin f => s.eof = true ∧ f = s.sent
  | .probe n => n ≤ s.received

/-- A message that travels against the stream promises no more than was received. -/
def BackwardOk (s : State κ α) : Backward → Prop
  | .ack n => n ≤ s.received ∧ Cut s.reads n
  | .finAck f => s.closedAt.isSome ∧ f = s.sent

/-- What holds in every state, however the channels behave. -/
structure Inv (s : State κ α) : Prop where
  reads_ne : ∀ b ∈ s.reads, b ≠ []
  unacked : ∃ done rest, s.reads = done ++ rest ∧ s.acked = done.flatten.length ∧
    s.unacked = segmentsFrom s.acked rest
  forward : ∀ c, ∀ m ∈ s.forward c, ForwardOk s m
  backward : ∀ c, ∀ m ∈ s.backward c, BackwardOk s m
  acked_le : s.acked ≤ s.received
  received_le : s.received ≤ s.sent
  received_written : s.received ≤ s.written.length
  written : s.written <+: s.reads.flatten
  exact : s.torn = false → s.written.length = s.received ∧ Cut s.reads s.received
  torn : s.torn = true → s.refused = true
  closed : ∀ n, s.closedAt = some n → s.eof = true ∧ n = s.sent ∧ s.written = s.reads.flatten ∧
    s.received = s.sent
  finAcked : s.finAcked = true → s.closedAt.isSome

/-- How the parts of a state that messages speak of can change. -/
structure Grows (s s' : State κ α) : Prop where
  reads : s.reads <+: s'.reads
  eof : s.eof = true → s'.eof = true ∧ s'.reads = s.reads
  received : s.received ≤ s'.received
  closed : s.closedAt.isSome → s'.closedAt.isSome

section Growth
variable {κ α : Type*} {s s' : State κ α}

theorem Grows.of_eq (hr : s'.reads = s.reads) (he : s'.eof = s.eof)
    (hv : s'.received = s.received) (hc : s'.closedAt = s.closedAt) : Grows s s' :=
  ⟨by rw [hr], fun h => ⟨he.trans h, hr⟩, hv.ge, fun h => by rwa [hc]⟩

theorem ForwardOk.mono {m : Forward α} (h : ForwardOk s m) (hg : Grows s s') : ForwardOk s' m := by
  cases m with
  | data o b => exact Segment.mono h hg.reads
  | fin f =>
    obtain ⟨he, hr⟩ := hg.eof h.1
    exact ⟨he, by rw [h.2, State.sent, State.sent, hr]⟩
  | probe n => exact Nat.le_trans h hg.received

theorem BackwardOk.mono {m : Backward} (h : BackwardOk s m) (hi : Inv s) (hg : Grows s s') :
    BackwardOk s' m := by
  cases m with
  | ack n => exact ⟨h.1.trans hg.received, h.2.mono hg.reads⟩
  | finAck f =>
    obtain ⟨n, hn⟩ := Option.isSome_iff_exists.mp h.1
    obtain ⟨-, hr⟩ := hg.eof (hi.closed n hn).1
    exact ⟨hg.closed h.1, by rw [h.2, State.sent, State.sent, hr]⟩

/-- Nothing was read and nothing is in flight. -/
theorem Inv.initial (hf : ∀ c, s.forward c = []) (hb : ∀ c, s.backward c = [])
    (hreads : s.reads = []) (hacked : s.acked = 0) (hunacked : s.unacked = [])
    (hreceived : s.received = 0) (hwritten : s.written = []) (hclosed : s.closedAt = none)
    (hfin : s.finAcked = false) (htorn : s.torn = false) : Inv s where
  reads_ne b hb := by simp [hreads] at hb
  unacked := ⟨[], [], hreads, hacked, by rw [hunacked, segmentsFrom]⟩
  forward c m hm := by simp [hf] at hm
  backward c m hm := by simp [hb] at hm
  acked_le := by rw [hacked]; exact Nat.zero_le _
  received_le := by rw [hreceived]; exact Nat.zero_le _
  received_written := by rw [hreceived]; exact Nat.zero_le _
  written := by rw [hwritten]; exact List.nil_prefix
  exact _ := by
    rw [hwritten, hreceived]
    exact ⟨rfl, cut_zero _⟩
  torn ht := by simp [htorn] at ht
  closed n hn := by simp [hclosed] at hn
  finAcked hf := by simp [hfin] at hf

/-- Every message of `t` was in flight before, or tells the truth. -/
theorem Inv.messages {t : State κ α} (hi : Inv s) (hg : Grows s t)
    (hf : ∀ c, ∀ m ∈ t.forward c, m ∈ s.forward c ∨ ForwardOk t m)
    (hb : ∀ c, ∀ m ∈ t.backward c, m ∈ s.backward c ∨ BackwardOk t m) :
    (∀ c, ∀ m ∈ t.forward c, ForwardOk t m) ∧ ∀ c, ∀ m ∈ t.backward c, BackwardOk t m :=
  ⟨fun c m hm => (hf c m hm).elim (fun h => (hi.forward c m h).mono hg) id,
    fun c m hm => (hb c m hm).elim (fun h => (hi.backward c m h).mono hi hg) id⟩

/-- A move that changes nothing but queues, channels and the refusal record. -/
theorem Inv.of_queues (hi : Inv s) (hreads : s'.reads = s.reads) (heof : s'.eof = s.eof)
    (hacked : s'.acked = s.acked) (hunacked : s'.unacked = s.unacked)
    (hfin : s'.finAcked = s.finAcked) (hreceived : s'.received = s.received)
    (hwritten : s'.written = s.written) (hclosed : s'.closedAt = s.closedAt)
    (htorn : s.torn = true → s'.torn = true) (hrefused : s'.torn = true → s'.refused = true)
    (hf : ∀ c, ∀ m ∈ s'.forward c, m ∈ s.forward c ∨ ForwardOk s m)
    (hb : ∀ c, ∀ m ∈ s'.backward c, m ∈ s.backward c ∨ BackwardOk s m) : Inv s' := by
  have hg : Grows s s' := .of_eq hreads heof hreceived hclosed
  obtain ⟨hf', hb'⟩ := hi.messages hg (fun c m hm => (hf c m hm).imp_right (·.mono hg))
    (fun c m hm => (hb c m hm).imp_right (·.mono hi hg))
  constructor
  case forward => exact hf'
  case backward => exact hb'
  case torn => exact hrefused
  case exact =>
    intro ht
    rw [hwritten, hreceived, hreads]
    exact hi.exact (Bool.eq_false_iff.mpr fun h => by simp [htorn h] at ht)
  all_goals
    simp only [State.sent, hreads, heof, hacked, hunacked, hfin, hreceived, hwritten, hclosed]
  · exact hi.reads_ne
  · exact hi.unacked
  · exact hi.acked_le
  · exact hi.received_le
  · exact hi.received_written
  · exact hi.written
  · exact hi.closed
  · exact hi.finAcked

theorem Inv.unacked_segment (hi : Inv s) {p : ℕ × List α} (hp : p ∈ s.unacked) :
    Segment s.reads p.1 p.2 := by
  obtain ⟨done, rest, hr, ha, hu⟩ := hi.unacked
  rw [hu, ha] at hp
  exact segment_of_mem hr hp

theorem Inv.retained_ok (hi : Inv s) {m : Forward α} (hm : m ∈ s.retained) : ForwardOk s m := by
  rcases List.mem_append.mp hm with hm | hm
  · obtain ⟨p, hp, rfl⟩ := List.mem_map.mp hm
    exact hi.unacked_segment hp
  · split_ifs at hm with he
    · obtain rfl := List.mem_singleton.mp hm
      exact ⟨he, rfl⟩
    · cases hm

/-- A chunk at the receiver's offset continues what was written. -/
theorem Inv.written_append (hi : Inv s) (ht : s.torn = false) {b : List α}
    (hb : Segment s.reads s.received b) : s.written ++ b <+: s.reads.flatten := by
  rw [← (hi.exact ht).1] at hb
  exact hb.append_prefix hi.written

/-- A finished stream has no chunk at the receiver's offset. -/
theorem Inv.closedAt_none (hi : Inv s) {b : List α} (hb : Segment s.reads s.received b) :
    s.closedAt = none := by
  by_contra hne
  obtain ⟨n, hn⟩ := Option.ne_none_iff_exists'.mp hne
  have hsent := (hi.closed n hn).2.2.2
  have hle := hb.end_cut.le_length
  have hpos := List.length_pos_of_ne_nil (hi.reads_ne b hb.mem)
  rw [State.sent] at hsent
  omega

/-- Once the receiver stands at the end of a stream, all of it has been written. -/
theorem Inv.written_eq (hi : Inv s) (ht : s.torn = false) (hs : s.received = s.sent) :
    s.written = s.reads.flatten :=
  hi.written.eq_of_length ((hi.exact ht).1.trans hs)

end Growth

section Preservation
variable {s s' : State κ α}

theorem mem_sendForward {oc : Option κ} {ms : List (Forward α)} {d : κ} {m : Forward α}
    (h : m ∈ (s.sendForward oc ms).forward d) : m ∈ s.forward d ∨ m ∈ ms := by
  simp only [State.sendForward] at h
  split_ifs at h
  · exact List.mem_append.mp h
  · exact .inl h

theorem mem_sendBackward {c d : κ} {ms : List Backward} {m : Backward}
    (h : m ∈ (s.sendBackward c ms).backward d) : m ∈ s.backward d ∨ m ∈ ms := by
  simp only [State.sendBackward] at h
  split_ifs at h
  · exact List.mem_append.mp h
  · exact .inl h

theorem mem_of_mem_update {β : Type*} {f : κ → List β} {c d : κ} {m : β} {q : List β}
    (h : q ⊆ f c) (hm : m ∈ Function.update f c q d) : m ∈ f d := by
  by_cases hd : d = c
  · subst hd
    rw [Function.update_self] at hm
    exact h hm
  · rwa [Function.update_of_ne hd] at hm

theorem mem_popForward {c d : κ} {m x : Forward α} {rest : List (Forward α)}
    (h : s.forward c = x :: rest) (hm : m ∈ (s.popForward c rest).forward d) :
    m ∈ s.forward d :=
  mem_of_mem_update (h ▸ List.subset_cons_self _ _) hm

theorem mem_popBackward {c d : κ} {m x : Backward} {rest : List Backward}
    (h : s.backward c = x :: rest) (hm : m ∈ (s.popBackward c rest).backward d) :
    m ∈ s.backward d :=
  mem_of_mem_update (h ▸ List.subset_cons_self _ _) hm

private theorem Inv.read (hi : Inv s) {b : List α} (hb : b ≠ []) (heof : s.eof = false) :
    Inv ({ s with
      reads := s.reads ++ [b]
      unacked := s.unacked ++ [(s.sent, b)] }.sendForward s.active [.data s.sent b]) := by
  have hg : Grows s ({ s with
      reads := s.reads ++ [b]
      unacked := s.unacked ++ [(s.sent, b)] }.sendForward s.active [.data s.sent b]) :=
    ⟨List.prefix_append _ _, fun h => by simp [heof] at h, le_rfl, id⟩
  obtain ⟨hf, hbw⟩ := hi.messages hg
    (fun c m hm => (mem_sendForward hm).imp_right fun h => by
      obtain rfl := List.mem_singleton.mp h
      exact segment_append_last s.reads b)
    (fun c m hm => .inl hm)
  refine ⟨?_, ?_, hf, hbw, hi.acked_le, hi.received_le.trans (flatten_mono hg.reads).length_le,
    hi.received_written, hi.written.trans (flatten_mono hg.reads),
    fun ht => ⟨(hi.exact ht).1, (hi.exact ht).2.mono hg.reads⟩, hi.torn, ?_, hi.finAcked⟩
  · intro c hc
    rcases List.mem_append.mp hc with hc | hc
    · exact hi.reads_ne c hc
    · rwa [List.mem_singleton.mp hc]
  · obtain ⟨done, rest, hr, ha, hu⟩ := hi.unacked
    refine ⟨done, rest ++ [b], by simp [State.sendForward, hr], ha, ?_⟩
    have hsum : s.sent = s.acked + rest.flatten.length := by
      rw [State.sent, hr, ha, List.flatten_append, List.length_append]
    simp only [State.sendForward, segmentsFrom_append, hu, hsum]
  · intro n hn
    exact absurd (hi.closed n hn).1 (by simp [heof])

private theorem Inv.takeAck (hi : Inv s) {c : κ} {n : ℕ} {rest : List Backward}
    (h : s.backward c = .ack n :: rest) (hn : s.acked ≤ n) :
    Inv ((s.popBackward c rest).settle n) := by
  have hok : BackwardOk s (.ack n) := hi.backward c _ (by rw [h]; exact List.mem_cons_self)
  obtain ⟨hf, hb⟩ := hi.messages (t := (s.popBackward c rest).settle n)
    (.of_eq rfl rfl rfl rfl) (fun d m hm => .inl hm) (fun d m hm => .inl (mem_popBackward h hm))
  refine ⟨hi.reads_ne, ?_, hf, hb, hok.1, hi.received_le, hi.received_written, hi.written,
    hi.exact, hi.torn, hi.closed, hi.finAcked⟩
  obtain ⟨done, unsettled, hr, ha, hu⟩ := hi.unacked
  obtain ⟨done', rest', hr', hn', hd⟩ := dropWhile_segmentsFrom hr hok.2 (ha ▸ hn)
  refine ⟨done', rest', hr', hn', ?_⟩
  change s.unacked.dropWhile _ = segmentsFrom n rest'
  rw [hu, ha]
  exact hd

private theorem Inv.accept (hi : Inv s) {c : κ} {b : List α} {rest : List (Forward α)}
    (h : s.forward c = .data s.received b :: rest) (ht : s.torn = false) :
    Inv { s.popForward c rest with
      written := s.written ++ b, received := s.received + b.length } := by
  have hseg : Segment s.reads s.received b :=
    hi.forward c (.data s.received b) (by rw [h]; exact List.mem_cons_self)
  obtain ⟨hf, hb⟩ := hi.messages
    (t := { s.popForward c rest with
      written := s.written ++ b, received := s.received + b.length })
    ⟨List.prefix_refl _, fun he => ⟨he, rfl⟩, Nat.le_add_right _ _, id⟩
    (fun d m hm => .inl (mem_popForward h hm)) (fun d m hm => .inl hm)
  refine ⟨hi.reads_ne, hi.unacked, hf, hb, hi.acked_le.trans (Nat.le_add_right _ _),
    hseg.end_cut.le_length, ?_, hi.written_append ht hseg, fun _ => ⟨?_, hseg.end_cut⟩, hi.torn,
    fun n hn => ?_, hi.finAcked⟩
  · rw [List.length_append, (hi.exact ht).1]
  · rw [List.length_append, (hi.exact ht).1]
  · have hc : s.closedAt = some n := hn
    rw [hi.closedAt_none hseg] at hc
    cases hc

private theorem Inv.tear (hi : Inv s) {c : κ} {b : List α} {rest : List (Forward α)} {n k : ℕ}
    (h : s.forward c = .data s.received b :: rest) (ht : s.torn = false)
    (hk : k ≤ (b.take n).length) :
    Inv { s.popForward c rest with
      written := s.written ++ b.take n, received := s.received + k, torn := true
      refused := true } := by
  have hseg : Segment s.reads s.received b :=
    hi.forward c (.data s.received b) (by rw [h]; exact List.mem_cons_self)
  obtain ⟨hf, hb⟩ := hi.messages
    (t := { s.popForward c rest with
      written := s.written ++ b.take n, received := s.received + k, torn := true
      refused := true })
    ⟨List.prefix_refl _, fun he => ⟨he, rfl⟩, Nat.le_add_right _ _, id⟩
    (fun d m hm => .inl (mem_popForward h hm)) (fun d m hm => .inl hm)
  have hend := hseg.end_cut.le_length
  refine ⟨hi.reads_ne, hi.unacked, hf, hb, hi.acked_le.trans (Nat.le_add_right _ _), ?_, ?_,
    ?_, fun ht => ?_, fun _ => rfl, fun n hn => ?_, hi.finAcked⟩
  · exact (Nat.add_le_add_left (hk.trans (List.length_take_le' _ _)) _).trans hend
  · rw [List.length_append]
    exact Nat.add_le_add hi.received_written hk
  · refine List.IsPrefix.trans ?_ (hi.written_append ht hseg)
    exact (List.prefix_append_right_inj _).mpr (List.take_prefix _ _)
  · cases ht
  · have hc : s.closedAt = some n := hn
    rw [hi.closedAt_none hseg] at hc
    cases hc

private theorem Inv.finish (hi : Inv s) {c : κ} {rest : List (Forward α)}
    (h : s.forward c = .fin s.received :: rest) (ht : s.torn = false) :
    Inv { s.popForward c rest with closedAt := s.closedAt.or (some s.written.length) } := by
  have hok : ForwardOk s (.fin s.received) :=
    hi.forward c _ (by rw [h]; exact List.mem_cons_self)
  obtain ⟨hf, hb⟩ := hi.messages
    (t := { s.popForward c rest with closedAt := s.closedAt.or (some s.written.length) })
    ⟨List.prefix_refl _, fun he => ⟨he, rfl⟩, le_rfl, fun _ => by simp⟩
    (fun d m hm => .inl (mem_popForward h hm)) (fun d m hm => .inl hm)
  refine ⟨hi.reads_ne, hi.unacked, hf, hb, hi.acked_le, hi.received_le, hi.received_written,
    hi.written, hi.exact, hi.torn, fun n hn => ⟨hok.1, ?_, hi.written_eq ht hok.2, hok.2⟩, fun _ => by simp⟩
  cases hc : s.closedAt with
  | none =>
    rw [hc] at hn
    exact (Option.some.inj hn).symm.trans ((hi.exact ht).1.trans hok.2)
  | some m =>
    rw [hc] at hn
    exact (Option.some.inj hn).symm.trans (hi.closed m hc).2.1

/-- Every move keeps the invariant. -/
theorem Inv.step (hi : Inv s) (h : Step s s') : Inv s' := by
  cases h with
  | read b hb heof => exact hi.read hb heof
  | endRead =>
    obtain ⟨hf, hb⟩ := hi.messages
      (t := { s with eof := true }.sendForward s.active [.fin s.sent])
      ⟨List.prefix_refl _, fun _ => ⟨rfl, rfl⟩, le_rfl, id⟩
      (fun d m hm => (mem_sendForward hm).imp_right fun h => by
        obtain rfl := List.mem_singleton.mp h
        exact ⟨rfl, rfl⟩)
      (fun d m hm => .inl hm)
    exact ⟨hi.reads_ne, hi.unacked, hf, hb, hi.acked_le, hi.received_le, hi.received_written,
      hi.written, hi.exact, hi.torn, fun n hn => ⟨rfl, (hi.closed n hn).2⟩, hi.finAcked⟩
  | activate c =>
    exact hi.of_queues rfl rfl rfl rfl rfl rfl rfl rfl id hi.torn
      (fun d m hm => (mem_sendForward hm).imp_right hi.retained_ok) (fun d m hm => .inl hm)
  | deactivate =>
    exact hi.of_queues rfl rfl rfl rfl rfl rfl rfl rfl id hi.torn (fun d m hm => .inl hm)
      (fun d m hm => .inl hm)
  | probe c =>
    refine hi.of_queues rfl rfl rfl rfl rfl rfl rfl rfl id hi.torn
      (fun d m hm => (mem_sendForward hm).imp_right fun h => ?_) (fun d m hm => .inl hm)
    obtain rfl := List.mem_singleton.mp h
    exact hi.acked_le
  | takeAck c n rest h hn => exact hi.takeAck h hn
  | takeFinAck c f rest h =>
    have hok := hi.backward c _ (by rw [h]; exact List.mem_cons_self)
    obtain ⟨hf, hb⟩ := hi.messages (t := { s.popBackward c rest with finAcked := true })
      (.of_eq rfl rfl rfl rfl) (fun d m hm => .inl hm) (fun d m hm => .inl (mem_popBackward h hm))
    exact ⟨hi.reads_ne, hi.unacked, hf, hb, hi.acked_le, hi.received_le, hi.received_written,
      hi.written, hi.exact, hi.torn, hi.closed, fun _ => hok.1⟩
  | dropBackward c rest h =>
    exact hi.of_queues rfl rfl rfl rfl rfl rfl rfl rfl id hi.torn
      (fun d m hm => .inl hm) (fun d m hm => .inl (mem_of_mem_update h.subset hm))
  | accept c b rest h ht => exact hi.accept h ht
  | tear c b rest n k h ht hk => exact hi.tear h ht hk
  | skipData c o b rest h hle =>
    exact hi.of_queues rfl rfl rfl rfl rfl rfl rfl rfl id hi.torn
      (fun d m hm => .inl (mem_popForward h hm)) (fun d m hm => .inl hm)
  | skipProbe c n rest h =>
    exact hi.of_queues rfl rfl rfl rfl rfl rfl rfl rfl id hi.torn
      (fun d m hm => .inl (mem_popForward h hm)) (fun d m hm => .inl hm)
  | finish c rest h ht => exact hi.finish h ht
  | refuse c rest t h =>
    exact hi.of_queues rfl rfl rfl rfl rfl rfl rfl rfl (fun ht => by simp [ht]) (fun _ => rfl)
      (fun d m hm => .inl (mem_of_mem_update h.subset hm)) (fun d m hm => .inl hm)
  | sendAck c ht =>
    refine hi.of_queues rfl rfl rfl rfl rfl rfl rfl rfl id hi.torn (fun d m hm => .inl hm)
      (fun d m hm => (mem_sendBackward hm).imp_right fun h => ?_)
    obtain rfl := List.mem_singleton.mp h
    exact ⟨le_rfl, (hi.exact ht).2⟩
  | sendFinAck c hc =>
    refine hi.of_queues rfl rfl rfl rfl rfl rfl rfl rfl id hi.torn (fun d m hm => .inl hm)
      (fun d m hm => (mem_sendBackward hm).imp_right fun h => ?_)
    obtain rfl := List.mem_singleton.mp h
    obtain ⟨n, hn⟩ := Option.isSome_iff_exists.mp hc
    exact ⟨hc, (hi.closed n hn).2.2.2⟩
  | lose c fs bs hf hb =>
    exact hi.of_queues rfl rfl rfl rfl rfl rfl rfl rfl id hi.torn
      (fun d m hm => .inl (mem_of_mem_update hf.subset hm))
      (fun d m hm => .inl (mem_of_mem_update hb.subset hm))
  | «open» up h =>
    exact hi.of_queues rfl rfl rfl rfl rfl rfl rfl rfl id hi.torn (fun d m hm => .inl hm)
      (fun d m hm => .inl hm)

theorem Inv.steps (hi : Inv s) (h : Steps s s') : Inv s' := by
  induction h with
  | refl => exact hi
  | tail _ hst ih => exact ih.step hst

end Preservation

end Transfer
