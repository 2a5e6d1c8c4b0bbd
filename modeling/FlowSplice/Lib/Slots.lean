import Mathlib.Algebra.BigOperators.Group.List.Basic
import Mathlib.Data.List.Basic

/-! Numbered slots. A slot holds a value until it is emptied, and numbers are not used again. -/

structure Slots (α : Type*) where
  cells : List (Option α) := []
deriving DecidableEq, Repr

namespace Slots
variable {α : Type*} {s : Slots α} {i j : ℕ} {a b : α} {c : Option α}

def get (s : Slots α) (i : ℕ) : Option α := (s.cells[i]?).join

/-- The number of the next slot. -/
def next (s : Slots α) : ℕ := s.cells.length

def push (s : Slots α) (a : α) : Slots α := ⟨s.cells ++ [some a]⟩

def pushAll (s : Slots α) (l : List α) : Slots α := ⟨s.cells ++ l.map some⟩

def set (s : Slots α) (i : ℕ) (c : Option α) : Slots α := ⟨s.cells.set i c⟩

/-- Every slot has been emptied. -/
def Idle (s : Slots α) : Prop := ∀ c ∈ s.cells, c.isNone

instance (s : Slots α) : Decidable s.Idle := inferInstanceAs (Decidable (∀ c ∈ s.cells, _))

/-- Some slot holds a value of this kind. -/
def Holds (s : Slots α) (p : α → Prop) : Prop := ∃ c ∈ s.cells, ∃ a ∈ c, p a

instance (s : Slots α) (p : α → Prop) [DecidablePred p] : Decidable (s.Holds p) :=
  inferInstanceAs (Decidable (∃ c ∈ s.cells, ∃ a ∈ c, p a))

@[simp] theorem get_empty : (({} : Slots α).get i) = none := rfl

theorem lt_next_of_get (h : s.get i = some a) : i < s.next := by
  by_contra hi
  simp [get, List.getElem?_eq_none (Nat.le_of_not_lt hi)] at h

theorem get_push : (s.push a).get i = if i = s.next then some a else s.get i := by
  rcases Nat.lt_trichotomy i s.next with h | h | h
  · rw [if_neg (Nat.ne_of_lt h)]
    exact congrArg Option.join (List.getElem?_append_left h)
  · rw [if_pos h, h]
    simp [get, push, next]
  · rw [if_neg (Nat.ne_of_gt h)]
    refine congrArg Option.join ?_
    rw [List.getElem?_eq_none (Nat.le_of_lt h), List.getElem?_eq_none]
    simpa [push, next, Nat.succ_le_iff] using h

theorem next_set : (s.set i c).next = s.next := List.length_set

theorem next_push : (s.push a).next = s.next + 1 := by
  simp [next, push]

theorem get_set_ne (h : j ≠ i) : (s.set i c).get j = s.get j := by
  simp [get, set, List.getElem?_set_ne (Ne.symm h)]

theorem get_set_self (h : s.get i = some a) : (s.set i c).get i = c := by
  simp [get, set, List.getElem?_set_self (lt_next_of_get h)]

theorem get_set_of_lt (h : i < s.next) : (s.set i c).get i = c := by
  unfold get set
  dsimp only
  rw [List.getElem?_set_self h]
  rfl

theorem get_push_of_some (h : s.get i = some b) : (s.push a).get i = some b := by
  rw [get_push, if_neg (Nat.ne_of_lt (lt_next_of_get h))]
  exact h

/-- What a slot holds after a push was pushed or was there. -/
theorem get_push_cases (h : (s.push a).get i = some b) :
    (i = s.next ∧ b = a) ∨ (i < s.next ∧ s.get i = some b) := by
  rw [get_push] at h
  split_ifs at h with hi
  · exact .inl ⟨hi, (Option.some.inj h).symm⟩
  · exact .inr ⟨lt_next_of_get h, h⟩

theorem get_pushAll_of_some {l : List α} (h : s.get i = some a) :
    (s.pushAll l).get i = some a := by
  have hlt := lt_next_of_get h
  unfold get pushAll
  rw [List.getElem?_append_left hlt]
  exact h

theorem exists_get_pushAll {l : List α} (h : a ∈ l) : ∃ i, (s.pushAll l).get i = some a := by
  obtain ⟨k, hk⟩ := List.getElem?_of_mem h
  refine ⟨s.next + k, ?_⟩
  unfold get pushAll next
  rw [List.getElem?_append_right (Nat.le_add_right _ _), Nat.add_sub_cancel_left, List.getElem?_map,
    hk]
  rfl

/-- What a slot holds was there, or is one of those that were pushed. -/
theorem get_pushAll_cases {l : List α} (h : (s.pushAll l).get i = some a) :
    a ∈ l ∨ s.get i = some a := by
  rcases Nat.lt_or_ge i s.next with hlt | hge
  · unfold get pushAll at h
    rw [List.getElem?_append_left hlt] at h
    exact .inr h
  · unfold get pushAll at h
    rw [List.getElem?_append_right hge, List.getElem?_map] at h
    cases hl : l[i - s.cells.length]? with
    | none => simp [hl] at h
    | some b =>
      have hb : b = a := by simpa [hl] using h
      exact .inl (hb ▸ List.mem_of_getElem? hl)

theorem get_set_cases (h : (s.set i c).get j = some b) :
    (j = i ∧ c = some b ∧ i < s.next) ∨ (j ≠ i ∧ s.get j = some b) := by
  by_cases hj : j = i
  · subst hj
    by_cases hlt : j < s.next
    · refine .inl ⟨rfl, ?_, hlt⟩
      simpa [get, set, List.getElem?_set_self hlt] using h
    · have : s.cells.length ≤ j := Nat.le_of_not_lt hlt
      simp [get, set, List.getElem?_eq_none (l := s.cells.set j c) (i := j) (by simpa)] at h
  · exact .inr ⟨hj, by rwa [get_set_ne hj] at h⟩

theorem holds_iff {p : α → Prop} : s.Holds p ↔ ∃ i a, s.get i = some a ∧ p a := by
  constructor
  · rintro ⟨c, hc, a, ha, hp⟩
    obtain ⟨i, hi⟩ := List.getElem?_of_mem hc
    have hget : s.get i = some a := by
      unfold get
      rw [hi, Option.mem_def.mp ha]
      rfl
    exact ⟨i, a, hget, hp⟩
  · rintro ⟨i, a, hget, hp⟩
    unfold get at hget
    cases hi : s.cells[i]? with
    | none => simp [hi] at hget
    | some c =>
      have hc : c = some a := by simpa [hi] using hget
      exact ⟨c, List.mem_of_getElem? hi, a, hc, hp⟩

/-- In idle slots no value is left. -/
theorem Idle.get_eq_none (h : s.Idle) (i : ℕ) : s.get i = none := by
  unfold get
  cases hi : s.cells[i]? with
  | none => rfl
  | some c => simpa using h c (List.mem_of_getElem? hi)

section Sum
variable {M : Type*} [AddCommMonoid M] {f : α → M}

/-- What the held values are worth together. -/
def sum (f : α → M) (s : Slots α) : M := (s.cells.map fun c => c.elim 0 f).sum

@[simp] theorem sum_empty : sum f {} = 0 := rfl

theorem sum_push : (s.push a).sum f = f a + s.sum f := by
  unfold sum push
  rw [List.map_append, List.sum_append, add_comm]
  simp

/-- What a slot holds can be taken out of the sum, and something else put there. -/
theorem sum_set_of_get (h : s.get i = some a) :
    s.sum f = f a + (s.set i none).sum f ∧
      ∀ c, (s.set i c).sum f = c.elim 0 f + (s.set i none).sum f := by
  obtain ⟨cells⟩ := s
  unfold get at h
  unfold sum set
  dsimp only at h ⊢
  induction cells generalizing i with
  | nil => simp at h
  | cons c cells ih =>
    cases i with
    | zero =>
      have hc : c = some a := by simpa using h
      subst hc
      simp
    | succ i =>
      have htail := ih (by simpa using h)
      constructor
      · rw [List.set_cons_succ, List.map_cons, List.sum_cons, htail.1, List.map_cons, List.sum_cons,
          add_left_comm]
      · intro c'
        rw [List.set_cons_succ, List.map_cons, List.sum_cons, htail.2 c', List.set_cons_succ,
          List.map_cons, List.sum_cons, add_left_comm]

theorem Idle.sum_eq_zero (h : s.Idle) : s.sum f = 0 := by
  apply List.sum_eq_zero
  intro m hm
  obtain ⟨c, hc, rfl⟩ := List.mem_map.mp hm
  rw [Option.isNone_iff_eq_none.mp (h c hc)]
  rfl

end Sum

end Slots
