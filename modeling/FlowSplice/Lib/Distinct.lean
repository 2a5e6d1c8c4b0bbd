import Mathlib.Data.Finset.Card
import Mathlib.Data.List.Dedup
import Mathlib.Data.Finset.Dedup

/-! How many different elements of a kind the first elements of a list have. -/
namespace Distinct
variable {α : Type*} [DecidableEq α] {l : List α} {p : α → Bool} {n : ℕ}

/-- The different elements of a kind. -/
def among (p : α → Bool) (l : List α) : Finset α := (l.filter p).toFinset

theorem mem_among {a : α} : a ∈ among p l ↔ a ∈ l ∧ p a = true := by
  unfold among
  rw [List.mem_toFinset, List.mem_filter]

theorem among_mono {l' : List α} (h : l' ⊆ l) : among p l' ⊆ among p l := by
  intro a ha
  rw [mem_among] at ha ⊢
  exact ⟨h ha.1, ha.2⟩

theorem card_among_le : (among p l).card ≤ l.length :=
  (List.toFinset_card_le _).trans (List.length_filter_le _ _)

/-- A list has as many different elements of a kind as it has places when it has no duplicates and
all are of that kind. -/
theorem card_among_eq_length_iff :
    (among p l).card = l.length ↔ l.Nodup ∧ ∀ a ∈ l, p a = true := by
  constructor
  · intro h
    have hle : (among p l).card ≤ (l.filter p).length := List.toFinset_card_le _
    have hle' : (l.filter p).length ≤ l.length := List.length_filter_le _ _
    have hall : ∀ a ∈ l, p a = true := List.length_filter_eq_length_iff.mp (by omega)
    have hself : l.filter p = l := List.filter_eq_self.mpr hall
    have hcard : l.toFinset.card = l.length := by
      unfold among at h
      rw [hself] at h
      exact h
    exact ⟨Multiset.coe_nodup.mp (Multiset.toFinset_card_eq_card_iff_nodup.mp hcard), hall⟩
  · rintro ⟨hnodup, hall⟩
    unfold among
    rw [List.filter_eq_self.mpr hall]
    exact List.toFinset_card_of_nodup hnodup

/-- The first `n` elements have as many different ones of a kind as they can when they have all
there are, or are different ones of that kind themselves. -/
theorem card_among_take_iff :
    (among p (l.take n)).card = min n (among p l).card ↔
      (∀ a ∈ l, p a = true → a ∈ l.take n) ∨
        n ≤ l.length ∧ (l.take n).Nodup ∧ ∀ a ∈ l.take n, p a = true := by
  have hsub : among p (l.take n) ⊆ among p l := among_mono (List.take_subset n l)
  have hle : (among p (l.take n)).card ≤ (l.take n).length := card_among_le
  have hcard : (among p (l.take n)).card ≤ (among p l).card := Finset.card_le_card hsub
  have hlength : (l.take n).length = min n l.length := List.length_take
  constructor
  · intro h
    by_cases hfull : (among p l).card ≤ n
    · have heq : among p (l.take n) = among p l := Finset.eq_of_subset_of_card_le hsub (by omega)
      refine .inl fun a ha hp => ?_
      have hmem : a ∈ among p l := mem_among.mpr ⟨ha, hp⟩
      rw [← heq] at hmem
      exact (mem_among.mp hmem).1
    · have hn : n ≤ l.length := by omega
      have hall : (among p (l.take n)).card = (l.take n).length := by omega
      exact .inr ⟨hn, card_among_eq_length_iff.mp hall⟩
  · rintro (hall | ⟨hn, hdistinct⟩)
    · have heq : among p (l.take n) = among p l := by
        apply Finset.Subset.antisymm hsub
        intro a ha
        obtain ⟨hmem, hp⟩ := mem_among.mp ha
        exact mem_among.mpr ⟨hall a hmem hp, hp⟩
      rw [heq] at hle ⊢
      omega
    · have heq := card_among_eq_length_iff.mpr hdistinct
      omega

end Distinct
