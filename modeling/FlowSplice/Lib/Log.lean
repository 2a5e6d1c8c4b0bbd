import Mathlib.Data.List.Basic
import Mathlib.Data.List.Pairwise

/-! Logs grow at their end. -/
namespace Log
variable {α : Type*} {log : List α} {a b : α}

theorem pairwise_append {R : α → α → Prop} (h : log.Pairwise R) (ha : ∀ b ∈ log, R b a) :
    (log ++ [a]).Pairwise R := by
  rw [List.pairwise_append]
  refine ⟨h, List.pairwise_singleton _ _, ?_⟩
  intro b hb c hc
  rw [List.mem_singleton.mp hc]
  exact ha b hb

theorem forall_append {P : α → Prop} (h : ∀ b ∈ log, P b) (ha : P a) : ∀ b ∈ log ++ [a], P b := by
  intro b hb
  rcases List.mem_append.mp hb with hb | hb
  · exact h b hb
  · rw [List.mem_singleton.mp hb]
    exact ha

theorem getElem?_append_of_some {i : ℕ} (h : log[i]? = some b) : (log ++ [a])[i]? = some b := by
  obtain ⟨hi, -⟩ := List.getElem?_eq_some_iff.mp h
  rw [List.getElem?_append_left hi]
  exact h

theorem getLast?_append : (log ++ [a]).getLast? = some a := by
  simp

theorem mem_append_self : a ∈ log ++ [a] := List.mem_append_right _ List.mem_cons_self

/-- A log that is not empty ends with its last entry. -/
theorem eq_append_of_getLast? (h : log.getLast? = some a) : ∃ init, log = init ++ [a] := by
  rcases List.eq_nil_or_concat' log with rfl | ⟨init, last, rfl⟩
  · cases h
  · rw [getLast?_append] at h
    exact ⟨init, by rw [Option.some.inj h]⟩

/-- What is in an ordered log stands before its last entry, or is that. -/
theorem rel_of_getLast? {R : α → α → Prop} (h : log.Pairwise R) (hl : log.getLast? = some a)
    (hb : b ∈ log) : R b a ∨ b = a := by
  obtain ⟨init, rfl⟩ := eq_append_of_getLast? hl
  rw [List.pairwise_append] at h
  rcases List.mem_append.mp hb with hb | hb
  · exact .inl (h.2.2 b hb a List.mem_cons_self)
  · exact .inr (List.mem_singleton.mp hb)

/-- Of two entries of an ordered log, one stands before the other. -/
theorem rel_or_rel {R : α → α → Prop} (h : log.Pairwise R) (ha : a ∈ log) (hb : b ∈ log) :
    a = b ∨ R a b ∨ R b a := by
  obtain ⟨i, hi, hia⟩ := List.mem_iff_getElem.mp ha
  obtain ⟨j, hj, hjb⟩ := List.mem_iff_getElem.mp hb
  have hget := List.pairwise_iff_getElem.mp h
  rw [← hia, ← hjb]
  rcases Nat.lt_trichotomy i j with hlt | heq | hgt
  · exact .inr (.inl (hget i j hi hj hlt))
  · subst heq
    exact .inl rfl
  · exact .inr (.inr (hget j i hj hi hgt))

end Log
