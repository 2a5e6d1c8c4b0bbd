import Mathlib.Data.List.Basic
import Mathlib.Data.List.Infix

/-! A bounded channel with one receiver, with a log of what was received and of what was lost when
the receiver ended. -/

/-- Nothing is queued after the receiver has ended. -/
structure Mailbox (α : Type*) where
  capacity : ℕ
  received : List α := []
  queue : List α := []
  lost : List α := []
  receiver : Bool := true
  fits : queue.length ≤ capacity
  lost_eq : receiver = true → lost = []
  queue_eq : receiver = false → queue = []

namespace Mailbox
variable {α β : Type*} {m m' : Mailbox α} {a : α}

/-- Everything that was sent, in order. -/
def sent (m : Mailbox α) : List α := m.received ++ m.queue ++ m.lost

private theorem fits_nil {capacity : ℕ} : ([] : List α).length ≤ capacity := Nat.zero_le _

private theorem not_ended {P : Prop} : true = false → P := fun h => absurd h (by decide)

private theorem fits_push (h : m.receiver = true ∧ m.queue.length < m.capacity) :
    (m.queue ++ [a]).length ≤ m.capacity := by
  rw [List.length_append]
  exact h.2

private theorem queue_push (h : m.receiver = true ∧ m.queue.length < m.capacity) :
    m.receiver = false → m.queue ++ [a] = [] := by
  intro hended
  rw [h.1] at hended
  cases hended

private theorem fits_tail {rest : List α} (h : m.queue = a :: rest) : rest.length ≤ m.capacity := by
  have hfits := m.fits
  rw [h, List.length_cons] at hfits
  omega

private theorem queue_tail {rest : List α} (h : m.queue = a :: rest) :
    m.receiver = false → rest = [] := by
  intro hended
  rw [m.queue_eq hended] at h
  cases h

def channel (α : Type*) (capacity : ℕ) : Mailbox α where
  capacity := capacity
  fits := fits_nil
  lost_eq := fun _ => rfl
  queue_eq := not_ended

/-- A send waits while the queue is full. -/
def push (m : Mailbox α) (a : α) : Option (Mailbox α) :=
  if h : m.receiver = true ∧ m.queue.length < m.capacity then
    some { m with queue := m.queue ++ [a], fits := fits_push h, queue_eq := queue_push h }
  else none

def pop (m : Mailbox α) : Option (α × Mailbox α) :=
  match h : m.queue with
  | [] => none
  | a :: rest => some (a, { m with
      queue := rest
      received := m.received ++ [a]
      fits := fits_tail h
      queue_eq := queue_tail h })

/-- The receiver ends, and what is queued is lost. -/
def close (m : Mailbox α) : Mailbox α where
  capacity := m.capacity
  received := m.received
  lost := m.queue ++ m.lost
  receiver := false
  fits := fits_nil
  lost_eq := fun h => absurd h (by decide)
  queue_eq := fun _ => rfl

@[simp] theorem sent_channel (capacity : ℕ) : (channel α capacity).sent = [] := rfl

@[simp] theorem sent_close : m.close.sent = m.sent := by
  show m.received ++ [] ++ (m.queue ++ m.lost) = m.received ++ m.queue ++ m.lost
  rw [List.append_nil, List.append_assoc]

theorem push_eq_some (h : m.push a = some m') : m.receiver = true ∧ m'.receiver = true ∧
    m'.capacity = m.capacity ∧ m'.received = m.received ∧ m'.queue = m.queue ++ [a] := by
  unfold push at h
  split_ifs at h with hopen
  rw [← Option.some.inj h]
  exact ⟨hopen.1, hopen.1, rfl, rfl, rfl⟩

theorem push_eq_none : m.push a = none ↔ m.receiver = true → m.queue.length = m.capacity := by
  unfold push
  split_ifs with hopen
  · constructor
    · intro h
      cases h
    · intro h
      have hfull := h hopen.1
      omega
  · constructor
    · intro _ hreceiver
      have hfits := m.fits
      have hfull : ¬ m.queue.length < m.capacity := fun hlt => hopen ⟨hreceiver, hlt⟩
      omega
    · intro _
      rfl

theorem sent_push (h : m.push a = some m') : m'.sent = m.sent ++ [a] := by
  obtain ⟨hopen, hopen', -, hreceived, hqueue⟩ := push_eq_some h
  unfold sent
  rw [m.lost_eq hopen, m'.lost_eq hopen', hreceived, hqueue]
  simp

theorem pop_eq_some (h : m.pop = some (a, m')) : m'.receiver = m.receiver ∧
    m'.capacity = m.capacity ∧ m'.received = m.received ++ [a] ∧ m.queue = a :: m'.queue ∧
    m'.lost = m.lost := by
  unfold pop at h
  split at h
  · cases h
  · next first rest hqueue =>
    cases h
    exact ⟨rfl, rfl, rfl, hqueue, rfl⟩

theorem sent_pop (h : m.pop = some (a, m')) : m'.sent = m.sent := by
  obtain ⟨-, -, hreceived, hqueue, hlost⟩ := pop_eq_some h
  unfold sent
  rw [hreceived, hqueue, hlost]
  simp

/-- What was received is what was sent first. -/
theorem received_isPrefix : m.received <+: m.sent := by
  unfold sent
  rw [List.append_assoc]
  exact List.prefix_append _ _

end Mailbox
