import Mathlib.Data.List.Infix
import Mathlib.Data.List.Forall2

/-! Frames cut out of a stream that arrives in chunks.

A scanner looks at what arrived since the last frame ended and says how much more it takes.
A reader that never asks for more than that stays inside the frame it is reading, so it cuts a
stream of frames at their ends, whatever the chunks were. -/
namespace Framing
variable {α β ε : Type*}

/-- What the elements of the frame read so far say. -/
inductive Scan (β ε : Type*) where
  | more (want : ℕ)
  | done (value : β)
  | failed (error : ε)

variable {scan : List α → Scan β ε} {taken input w : List α} {b : β} {bs : List β} {n k : ℕ}

/-- `w` is one frame with the value `b`: short of its end the scanner asks for no more than
what the frame has left. -/
structure Word (scan : List α → Scan β ε) (w : List α) (b : β) : Prop where
  pos : 0 < w.length
  ends : scan w = .done b
  wants : ∀ p, p <+: w → p.length < w.length → ∃ k, scan p = .more k ∧ p.length + k ≤ w.length

/-- The stream is the frames with the values `bs`, one behind the other. -/
def Spells (scan : List α → Scan β ε) : List α → List β → Prop
  | input, [] => input = []
  | input, b :: bs => ∃ w rest, input = w ++ rest ∧ Word scan w b ∧ Spells scan rest bs

/-- `taken` is the beginning of the first of the frames `bs`, and `input` the rest of the
stream. -/
def Pending (scan : List α → Scan β ε) (taken input : List α) : List β → Prop
  | [] => taken = [] ∧ input = []
  | b :: bs => ∃ w rest, taken ++ input = w ++ rest ∧ taken.length < w.length ∧
      Word scan w b ∧ Spells scan rest bs

private theorem prefix_of_split {rest : List α} (h : taken ++ input = w ++ rest)
    (hlen : taken.length ≤ w.length) : taken <+: w := by
  have htaken : taken <+: w ++ rest := ⟨input, h⟩
  exact List.prefix_of_prefix_length_le htaken (List.prefix_append w rest) hlen

theorem Spells.pending (h : Spells scan input bs) : Pending scan [] input bs := by
  cases bs with
  | nil => exact ⟨rfl, h⟩
  | cons b bs =>
    obtain ⟨w, rest, hin, hw, hrest⟩ := h
    exact ⟨w, rest, hin, hw.pos, hw, hrest⟩

/-- A frame written behind the others is read behind them. -/
theorem Spells.append (h : Spells scan input bs) (hw : Word scan w b) :
    Spells scan (input ++ w) (bs ++ [b]) := by
  induction bs generalizing input with
  | nil =>
    have hin : input = [] := h
    rw [hin]
    exact ⟨w, [], by simp, hw, rfl⟩
  | cons b' bs ih =>
    obtain ⟨w', rest, rfl, hw', hrest⟩ := h
    exact ⟨w', rest ++ w, List.append_assoc _ _ _, hw', ih hrest⟩

theorem Pending.append (h : Pending scan taken input bs) (hw : Word scan w b) :
    Pending scan taken (input ++ w) (bs ++ [b]) := by
  cases bs with
  | nil =>
    obtain ⟨rfl, rfl⟩ := h
    exact ⟨w, [], by simp, hw.pos, hw, rfl⟩
  | cons b' bs =>
    obtain ⟨w', rest, happ, hlt, hw', hrest⟩ := h
    refine ⟨w', rest ++ w, ?_, hlt, hw', hrest.append hw⟩
    rw [← List.append_assoc, happ, List.append_assoc]

/-- Between frames and inside one, the scanner asks for more as long as a frame is left. -/
theorem Pending.more (h : Pending scan taken input (b :: bs)) : ∃ k, scan taken = .more k := by
  obtain ⟨w, rest, hin, hlt, hw, -⟩ := h
  have hp : taken <+: w := prefix_of_split hin (by omega)
  obtain ⟨k, hk, -⟩ := hw.wants taken hp hlt
  exact ⟨k, hk⟩

theorem Pending.input_ne_nil (h : Pending scan taken input (b :: bs)) : input ≠ [] := by
  rintro rfl
  obtain ⟨w, rest, hin, hlt, -⟩ := h
  have hlen := congrArg List.length hin
  simp only [List.append_nil, List.length_append] at hlen
  omega

/-- A chunk of at most the wanted length ends the frame or leaves the reader inside it. -/
theorem Pending.feed (h : Pending scan taken input bs) (hk : scan taken = .more k) (hn : n ≤ k)
    (hin : n ≤ input.length) (h0 : 0 < n) :
    ∃ b bs', bs = b :: bs' ∧
      ((scan (taken ++ input.take n) = .done b ∧ Pending scan [] (input.drop n) bs') ∨
        (∃ k', scan (taken ++ input.take n) = .more k') ∧
          Pending scan (taken ++ input.take n) (input.drop n) bs) := by
  cases bs with
  | nil =>
    obtain ⟨-, rfl⟩ := h
    have : n ≤ 0 := hin
    omega
  | cons b bs' =>
    refine ⟨b, bs', rfl, ?_⟩
    obtain ⟨w, rest, happ, hlt, hw, hrest⟩ := h
    have hpw : taken <+: w := prefix_of_split happ (by omega)
    obtain ⟨k', hk', hle⟩ := hw.wants taken hpw hlt
    obtain rfl : k' = k := by
      rw [hk] at hk'
      injection hk' with hk'
      exact hk'.symm
    have hlen : (taken ++ input.take n).length = taken.length + n := by
      rw [List.length_append, List.length_take]
      omega
    have happ' : taken ++ input.take n ++ input.drop n = w ++ rest := by
      rw [List.append_assoc, List.take_append_drop, happ]
    have hp : taken ++ input.take n <+: w := prefix_of_split happ' (by omega)
    by_cases hend : (taken ++ input.take n).length < w.length
    · right
      have hpend : Pending scan (taken ++ input.take n) (input.drop n) (b :: bs') :=
        ⟨w, rest, happ', hend, hw, hrest⟩
      exact ⟨hpend.more, hpend⟩
    · left
      have hw' : taken ++ input.take n = w := hp.eq_of_length_le (by omega)
      have hrest' : input.drop n = rest := by
        rw [hw'] at happ'
        exact List.append_cancel_left happ'
      rw [hw', hrest']
      exact ⟨hw.ends, hrest.pending⟩

end Framing
