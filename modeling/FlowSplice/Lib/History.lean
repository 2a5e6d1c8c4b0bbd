import Mathlib.Data.Nat.Notation
import FlowSplice.Lib.Log

/-! What a value has been over time, and what was read of it. -/
namespace History
variable {α β : Type*}

/-- A value that was read, and when. -/
structure Read (α : Type*) where
  value : α
  time : ℕ
deriving DecidableEq, Repr

def Read.map (f : α → β) (read : Read α) : Read β := ⟨f read.value, read.time⟩

/-- The read returned what the value was at that time. -/
def Read.Of (log : List α) (read : Read α) : Prop := log[read.time]? = some read.value

/-- The first value was current at some time, the second at the same time or later. -/
def NoLater (log : List α) (a b : α) : Prop :=
  ∃ i j : ℕ, i ≤ j ∧ log[i]? = some a ∧ log[j]? = some b

variable {log : List α} {a b c : α} {first second : Read α}

theorem Read.Of.append (h : first.Of log) (c : α) : first.Of (log ++ [c]) :=
  Log.getElem?_append_of_some h

/-- A read of the present value. -/
theorem Read.of_last (h : log.getLast? = some a) : Read.Of log ⟨a, log.length - 1⟩ := by
  unfold Read.Of
  rw [← List.getLast?_eq_getElem?]
  exact h

theorem NoLater.append (h : NoLater log a b) (c : α) : NoLater (log ++ [c]) a b := by
  obtain ⟨i, j, hij, hi, hj⟩ := h
  exact ⟨i, j, hij, Log.getElem?_append_of_some hi, Log.getElem?_append_of_some hj⟩

/-- Reads that are in order return values that are in order. -/
theorem Read.Of.noLater (hfirst : first.Of log) (hsecond : second.Of log)
    (h : first.time ≤ second.time) : NoLater log first.value second.value :=
  ⟨first.time, second.time, h, hfirst, hsecond⟩

/-- Of a value that rises, the one that was current no later is the smaller. -/
theorem NoLater.rel {R : α → α → Prop} (h : NoLater log a b) (hlog : log.Pairwise R)
    (hrefl : ∀ x, R x x) : R a b := by
  obtain ⟨i, j, hij, hi, hj⟩ := h
  obtain ⟨hi', hia⟩ := List.getElem?_eq_some_iff.mp hi
  obtain ⟨hj', hjb⟩ := List.getElem?_eq_some_iff.mp hj
  rcases Nat.lt_or_eq_of_le hij with hlt | heq
  · rw [← hia, ← hjb]
    exact List.pairwise_iff_getElem.mp hlog i j hi' hj' hlt
  · have hab : some a = some b := by rw [← hi, ← hj, heq]
    rw [Option.some.inj hab]
    exact hrefl b

end History
