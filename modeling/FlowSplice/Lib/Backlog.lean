import Mathlib.Data.List.Nodup
import Mathlib.Data.List.Perm.Subperm
import Mathlib.Data.List.Induction
import Mathlib.Logic.Function.Iterate
import Mathlib.Algebra.Order.Ring.Nat

/-! A backlog of which every round offers the first few items. Some items leave when they are
offered; the others stay where they are and are offered again. -/
namespace Backlog
variable {α : Type*} (k : ℕ) (stays : α → Bool) (items : List α)

/-- What a round leaves. -/
def serve (items : List α) : List α := (items.take k).filter stays ++ items.drop k

/-- What is left after so many rounds. -/
def rest (n : ℕ) : List α := (serve k stays)^[n] items

/-- What the round of this number offers. -/
def offered (n : ℕ) : List α := (rest k stays items n).take k

/-- How many of the first items stay. -/
def staying (n : ℕ) : ℕ := ((items.take n).filter stays).length

/-- How many items the first rounds have offered: those that stay take their places again. -/
def reach : ℕ → ℕ
  | 0 => 0
  | n + 1 => reach n + (k - staying stays items (reach n))

/-- The items can be cut into this many blocks, each of which fits into a round together with the
items before it that stay. -/
def Cuts (n : ℕ) : Prop :=
  ∃ blocks : List (List α), blocks.flatten = items ∧ blocks.length ≤ n ∧
    ∀ before block after, blocks = before ++ block :: after →
      block.length + (before.flatten.filter stays).length ≤ k

variable {k stays items} {n m : ℕ}

theorem rest_succ : rest k stays items (n + 1) = serve k stays (rest k stays items n) :=
  Function.iterate_succ_apply' _ _ _

theorem staying_add_le : staying stays items (n + m) ≤ staying stays items n + m := by
  have hle := ((items.drop n).take m).length_filter_le stays
  have hlen := (items.drop n).length_take_le m
  unfold staying
  rw [List.take_add, List.filter_append, List.length_append]
  omega

theorem staying_mono (h : n ≤ m) : staying stays items n ≤ staying stays items m := by
  have hinitial : items.take n <+: items.take m := List.take_prefix_take_left h
  exact (hinitial.sublist.filter stays).length_le

theorem staying_reach_le : staying stays items (reach k stays items n) ≤ k := by
  induction n with
  | zero => simp [staying, reach]
  | succ n ih =>
    have hadd : staying stays items (reach k stays items n +
        (k - staying stays items (reach k stays items n))) ≤ _ := staying_add_le
    show staying stays items (reach k stays items n + _) ≤ k
    omega

theorem reach_le_succ : reach k stays items n ≤ reach k stays items (n + 1) :=
  Nat.le_add_right _ _

theorem reach_mono (h : n ≤ m) : reach k stays items n ≤ reach k stays items m := by
  induction h with
  | refl => exact le_rfl
  | step _ ih => exact ih.trans reach_le_succ

/-- After some rounds those of the offered items are left that stay, and what was not offered. -/
theorem rest_eq : rest k stays items n =
    (items.take (reach k stays items n)).filter stays ++ items.drop (reach k stays items n) := by
  induction n with
  | zero => simp [rest, reach]
  | succ n ih =>
    have hle : staying stays items (reach k stays items n) ≤ k := staying_reach_le
    have hreach : reach k stays items (n + 1) =
      reach k stays items n + (k - staying stays items (reach k stays items n)) := rfl
    rw [rest_succ, ih, hreach]
    generalize reach k stays items n = r at hle
    unfold serve
    unfold staying at hle ⊢
    rw [List.take_append, List.take_of_length_le hle, List.drop_append, List.drop_of_length_le hle,
      List.nil_append, List.drop_drop, List.take_add, List.filter_append, List.filter_append,
      List.filter_filter]
    simp

theorem offered_eq : offered k stays items n =
    (items.take (reach k stays items n)).filter stays ++
      (items.drop (reach k stays items n)).take
        (k - staying stays items (reach k stays items n)) := by
  have hle : staying stays items (reach k stays items n) ≤ k := staying_reach_le
  unfold offered
  rw [rest_eq, List.take_append, List.take_of_length_le hle]
  rfl

theorem take_reach_succ : items.take (reach k stays items (n + 1)) =
    items.take (reach k stays items n) ++ (items.drop (reach k stays items n)).take
      (k - staying stays items (reach k stays items n)) :=
  List.take_add

/-- The rounds offer a first part of the items. -/
theorem mem_offered_iff {a : α} :
    (∃ i < n, a ∈ offered k stays items i) ↔ a ∈ items.take (reach k stays items n) := by
  induction n with
  | zero => simp [reach]
  | succ n ih =>
    rw [take_reach_succ, List.mem_append]
    constructor
    · intro h
      obtain ⟨i, hi, ha⟩ := h
      by_cases hlast : i = n
      · rw [hlast, offered_eq, List.mem_append] at ha
        exact ha.imp_left fun hstays => (List.mem_filter.mp hstays).1
      · exact .inl (ih.mp ⟨i, by omega, ha⟩)
    · intro h
      rcases h with hearlier | hnew
      · obtain ⟨i, hi, ha⟩ := ih.mpr hearlier
        exact ⟨i, by omega, ha⟩
      · refine ⟨n, by omega, ?_⟩
        rw [offered_eq]
        exact List.mem_append_right _ hnew

/-- An item that more blocks have room for is in reach. -/
theorem add_le_reach (h : n ≤ reach k stays items m) :
    n + (k - staying stays items n) ≤ reach k stays items (m + 1) := by
  have hadd : staying stays items (n + (reach k stays items m - n)) ≤ _ := staying_add_le
  rw [Nat.add_sub_cancel' h] at hadd
  show _ ≤ reach k stays items m + _
  omega

theorem length_le_reach_of_cuts (h : Cuts k stays items n) :
    items.length ≤ reach k stays items n := by
  obtain ⟨blocks, hflatten, hlength, hfits⟩ := h
  have hreach : ∀ before after, blocks = before ++ after →
      before.flatten.length ≤ reach k stays items before.length := by
    intro before
    induction before using List.reverseRecOn with
    | nil => intro after _; exact Nat.zero_le _
    | append_singleton before block ih =>
      intro after hblocks
      have hblocks : blocks = before ++ block :: after := by simpa using hblocks
      have hbefore := ih (block :: after) hblocks
      have hfit := hfits before block after hblocks
      have htake : items.take before.flatten.length = before.flatten := by
        rw [← hflatten, hblocks, List.flatten_append]
        exact List.take_left'  rfl
      have hstaying : staying stays items before.flatten.length =
          (before.flatten.filter stays).length := by
        unfold staying
        rw [htake]
      have hadd := add_le_reach hbefore
      rw [List.flatten_append, List.length_append, List.length_append, List.flatten_singleton,
        List.length_singleton]
      omega
  have hall := hreach blocks [] (List.append_nil _).symm
  rw [hflatten] at hall
  have hmono : reach k stays items blocks.length ≤ reach k stays items n := reach_mono hlength
  omega

/-- What the rounds offer anew are blocks that fit. -/
theorem cuts_take_reach : ∃ blocks : List (List α),
    blocks.flatten = items.take (reach k stays items n) ∧ blocks.length = n ∧
      ∀ before block after, blocks = before ++ block :: after →
        block.length + (before.flatten.filter stays).length ≤ k := by
  induction n with
  | zero => exact ⟨[], by simp [reach], rfl, fun before block after h => by simp at h⟩
  | succ n ih =>
    obtain ⟨blocks, hflatten, hlength, hfits⟩ := ih
    have hle : staying stays items (reach k stays items n) ≤ k := staying_reach_le
    let new := (items.drop (reach k stays items n)).take
      (k - staying stays items (reach k stays items n))
    refine ⟨blocks ++ [new], ?_, by simp [hlength], ?_⟩
    · rw [List.flatten_append, List.flatten_singleton, hflatten]
      exact take_reach_succ.symm
    · intro before block after hblocks
      rcases List.eq_nil_or_concat' after with rfl | ⟨init, last, rfl⟩
      · have heq := List.append_inj' hblocks rfl
        have hblock : new = block := List.singleton_inj.mp heq.2
        have hnew : new.length ≤ k - staying stays items (reach k stays items n) :=
          List.length_take_le _ _
        rw [← heq.1, ← hblock, hflatten]
        unfold staying at hle hnew
        omega
      · rw [← List.cons_append, ← List.append_assoc] at hblocks
        exact hfits before block init (List.append_inj' hblocks rfl).1

theorem cuts_iff : Cuts k stays items n ↔ items.length ≤ reach k stays items n := by
  constructor
  · exact length_le_reach_of_cuts
  · intro h
    obtain ⟨blocks, hflatten, hlength, hfits⟩ := @cuts_take_reach _ k stays items n
    rw [List.take_of_length_le h] at hflatten
    exact ⟨blocks, hflatten, hlength.le, hfits⟩

/-- Every item is offered within so many rounds exactly if the items can be cut into as many
blocks that fit. -/
theorem all_offered_iff (hitems : items.Nodup) :
    (∀ a ∈ items, ∃ i < n, a ∈ offered k stays items i) ↔ Cuts k stays items n := by
  rw [cuts_iff]
  constructor
  · intro h
    have hsubset : items ⊆ items.take (reach k stays items n) := fun a ha =>
      mem_offered_iff.mp (h a ha)
    have hle := (hitems.subperm hsubset).length_le
    rw [List.length_take] at hle
    omega
  · intro h a ha
    rw [mem_offered_iff, List.take_of_length_le h]
    exact ha

/-- An item is offered at some time exactly if the items before it that stay leave it room. -/
theorem eventually_offered_iff {before after : List α} {a : α} (hitems : items.Nodup)
    (hsplit : items = before ++ a :: after) :
    (∃ i, a ∈ offered k stays items i) ↔ (before.filter stays).length < k := by
  have hstaying : staying stays items before.length = (before.filter stays).length := by
    unfold staying
    rw [hsplit, List.take_left' rfl]
  constructor
  · intro h
    obtain ⟨i, hi⟩ := h
    by_contra hfull
    have hreach : ∀ n, reach k stays items n ≤ before.length := by
      intro n
      induction n with
      | zero => exact Nat.zero_le _
      | succ n ih =>
        have hadd : staying stays items (reach k stays items n +
            (before.length - reach k stays items n)) ≤ _ := staying_add_le
        rw [Nat.add_sub_cancel' ih] at hadd
        show reach k stays items n + _ ≤ _
        omega
    have hmem := mem_offered_iff.mp ⟨i, Nat.lt_succ_self i, hi⟩
    have hbefore := (List.take_prefix_take_left (hreach (i + 1))).subset hmem
    rw [hsplit, List.take_left' rfl] at hbefore
    rw [hsplit] at hitems
    exact List.disjoint_of_nodup_append hitems hbefore List.mem_cons_self
  · intro hroom
    have hgrows : ∀ n, n ≤ before.length + 1 → n ≤ reach k stays items n := by
      intro n
      induction n with
      | zero => intro _; exact Nat.zero_le _
      | succ n ih =>
        intro hn
        have hn' := ih (by omega)
        by_cases hpast : before.length < reach k stays items n
        · have hsucc : reach k stays items n ≤ reach k stays items (n + 1) := reach_le_succ
          omega
        · have hmono : staying stays items (reach k stays items n) ≤
              staying stays items before.length := staying_mono (by omega)
          show n + 1 ≤ reach k stays items n + _
          omega
    have hreach := hgrows (before.length + 1) le_rfl
    have hmem : a ∈ items.take (before.length + 1) := by
      rw [hsplit, List.take_append]
      simp
    have hoffered := mem_offered_iff.mpr ((List.take_prefix_take_left hreach).subset hmem)
    obtain ⟨i, -, hi⟩ := hoffered
    exact ⟨i, hi⟩

end Backlog
