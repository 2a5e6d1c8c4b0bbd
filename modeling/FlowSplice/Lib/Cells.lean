import Mathlib.Algebra.BigOperators.Group.List.Basic
import Mathlib.Algebra.GroupWithZero.Nat
import Mathlib.Data.List.Basic

/-! Lists that stand for numbered objects: one element is replaced at a time, and new ones are put
at the end. -/
namespace Cells
variable {α : Type*} {l : List α} {a b c : α} {i j : ℕ}

theorem getElem?_set_of (b : α) (j : ℕ) (h : l[i]? = some a) :
    (l.set i b)[j]? = if i = j then some b else l[j]? := by
  have hlt : i < l.length := (List.getElem?_eq_some_iff.mp h).1
  rw [List.getElem?_set, if_pos hlt]

theorem modify_eq_set (u : α → α) (h : l[i]? = some a) : l.modify i u = l.set i (u a) := by
  have : Inhabited α := ⟨a⟩
  rw [List.modify_eq_set, h]
  rfl

/-- What is found after a replacement is the new element, or was there. -/
theorem getElem?_set_cases (h : l[i]? = some a) (hc : (l.set i b)[j]? = some c) :
    j = i ∧ c = b ∨ j ≠ i ∧ l[j]? = some c := by
  rw [getElem?_set_of b j h] at hc
  by_cases hj : i = j
  · rw [if_pos hj] at hc
    exact .inl ⟨hj.symm, (Option.some.inj hc).symm⟩
  · rw [if_neg hj] at hc
    exact .inr ⟨Ne.symm hj, hc⟩

/-- Where an element is replaced, each element still has one in its place. -/
theorem exists_getElem?_set (b : α) (h : l[i]? = some a) (hc : l[j]? = some c) :
    ∃ c', (l.set i b)[j]? = some c' ∧ (j = i ∧ c = a ∧ c' = b ∨ j ≠ i ∧ c' = c) := by
  by_cases hj : i = j
  · refine ⟨b, ?_, .inl ⟨hj.symm, ?_, rfl⟩⟩
    · rw [getElem?_set_of b j h, if_pos hj]
    · rw [← hj, h] at hc
      exact (Option.some.inj hc).symm
  · refine ⟨c, ?_, .inr ⟨Ne.symm hj, rfl⟩⟩
    rw [getElem?_set_of b j h, if_neg hj]
    exact hc

theorem getElem?_append_cases (h : (l ++ [a])[j]? = some c) :
    j = l.length ∧ c = a ∨ j < l.length ∧ l[j]? = some c := by
  by_cases hj : j < l.length
  · right
    rw [List.getElem?_append_left hj] at h
    exact ⟨hj, h⟩
  · left
    have hlen : j < (l ++ [a]).length := (List.getElem?_eq_some_iff.mp h).1
    rw [List.length_append, List.length_singleton] at hlen
    have heq : j = l.length := by omega
    rw [heq, List.getElem?_concat_length] at h
    exact ⟨heq, (Option.some.inj h).symm⟩

theorem forall_set {P : α → Prop} (h : ∀ a ∈ l, P a) (hb : P b) : ∀ a ∈ l.set i b, P a := by
  intro a ha
  rcases List.mem_or_eq_of_mem_set ha with hold | rfl
  · exact h a hold
  · exact hb

theorem forall_modify {P : α → Prop} {u : α → α} (h : ∀ a ∈ l, P a) (hu : ∀ a, P a → P (u a)) :
    ∀ a ∈ l.modify i u, P a := by
  cases hi : l[i]? with
  | none =>
    rw [List.modify_eq_self (List.getElem?_eq_none_iff.mp hi)]
    exact h
  | some b =>
    rw [modify_eq_set u hi]
    exact forall_set h (hu b (h b (List.mem_of_getElem? hi)))

theorem sum_map_set (cost : α → ℕ) (b : α) (h : l[i]? = some a) :
    ((l.set i b).map cost).sum + cost a = (l.map cost).sum + cost b := by
  induction l generalizing i with
  | nil => simp at h
  | cons e l ih =>
    cases i with
    | zero =>
      have hea : e = a := by simpa using h
      simp only [List.set_cons_zero, List.map_cons, List.sum_cons, hea]
      omega
    | succ i =>
      have htail := @ih i (by simpa using h)
      simp only [List.set_cons_succ, List.map_cons, List.sum_cons]
      omega

end Cells
