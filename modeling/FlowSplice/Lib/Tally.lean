import Mathlib.Algebra.BigOperators.Group.List.Basic
import Mathlib.Algebra.Group.Pi.Basic
import Mathlib.Algebra.GroupWithZero.Nat
import Mathlib.Data.List.MinMax
import Mathlib.Order.Lattice.Nat

/-! Numbers that stop at a bound, and tallies that can be taken apart and put together in any order:
how many readings there are, their sum, their extremes, and a histogram. -/

/-- A number up to the bound. Addition stops there. -/
@[ext] structure Saturating (bound : ℕ) where
  val : ℕ
  le : val ≤ bound
deriving DecidableEq, Repr

namespace Saturating
variable {bound : ℕ} {a b : Saturating bound}

def ofNat (n : ℕ) : Saturating bound := ⟨min n bound, Nat.min_le_right n bound⟩

instance : Zero (Saturating bound) := ⟨⟨0, Nat.zero_le bound⟩⟩

instance : Add (Saturating bound) := ⟨fun a b => ofNat (a.val + b.val)⟩

@[simp] theorem val_ofNat (n : ℕ) : (ofNat n : Saturating bound).val = min n bound := rfl

@[simp] theorem val_zero : (0 : Saturating bound).val = 0 := rfl

@[simp] theorem val_add : (a + b).val = min (a.val + b.val) bound := rfl

instance : AddCommMonoid (Saturating bound) where
  nsmul := nsmulRec
  zero_add a := by
    have ha := a.le
    ext
    simp only [val_add, val_zero]
    omega
  add_zero a := by
    have ha := a.le
    ext
    simp only [val_add, val_zero]
    omega
  add_assoc a b c := by
    ext
    simp only [val_add]
    omega
  add_comm a b := by
    ext
    simp only [val_add]
    omega

theorem ofNat_add (m n : ℕ) :
    (ofNat (m + n) : Saturating bound) = ofNat m + ofNat n := by
  ext
  simp only [val_add, val_ofNat]
  omega

theorem ofNat_zero : (ofNat 0 : Saturating bound) = 0 := by
  ext
  simp

/-- A sum is empty only if both parts are. -/
theorem val_add_eq_zero (h : 0 < bound) : (a + b).val = 0 ↔ a.val = 0 ∧ b.val = 0 := by
  rw [val_add]
  omega

end Saturating

/-- One reading, and the cell of the histogram that counts it. -/
structure Reading where
  value : ℕ
  cell : Option ℕ := none
deriving DecidableEq, Repr

/-- What is known of some readings. Without readings there is no least and no greatest one. -/
@[ext] structure Tally (bound : ℕ) where
  count : Saturating bound
  sum : Saturating bound
  min : WithTop ℕ
  max : WithBot ℕ
  width : ℕ
  cells : ℕ → Saturating bound

namespace Tally
variable {bound width : ℕ}

instance : Zero (Tally bound) := ⟨⟨0, 0, ⊤, ⊥, 0, 0⟩⟩

instance : Add (Tally bound) :=
  ⟨fun s t => ⟨s.count + t.count, s.sum + t.sum, Min.min s.min t.min, Max.max s.max t.max,
    Max.max s.width t.width, s.cells + t.cells⟩⟩

section Parts
variable (s t : Tally bound)

@[simp] theorem count_add : (s + t).count = s.count + t.count := rfl

@[simp] theorem sum_add : (s + t).sum = s.sum + t.sum := rfl

@[simp] theorem min_add : (s + t).min = Min.min s.min t.min := rfl

@[simp] theorem max_add : (s + t).max = Max.max s.max t.max := rfl

@[simp] theorem width_add : (s + t).width = Max.max s.width t.width := rfl

@[simp] theorem cells_add : (s + t).cells = s.cells + t.cells := rfl

@[simp] theorem count_zero : (0 : Tally bound).count = 0 := rfl

@[simp] theorem sum_zero : (0 : Tally bound).sum = 0 := rfl

@[simp] theorem min_zero : (0 : Tally bound).min = ⊤ := rfl

@[simp] theorem max_zero : (0 : Tally bound).max = ⊥ := rfl

@[simp] theorem width_zero : (0 : Tally bound).width = 0 := rfl

@[simp] theorem cells_zero : (0 : Tally bound).cells = 0 := rfl

end Parts

instance : AddCommMonoid (Tally bound) where
  nsmul := nsmulRec
  zero_add s := by
    apply Tally.ext <;> simp
  add_zero s := by
    apply Tally.ext <;> simp
  add_assoc s t u := by
    apply Tally.ext <;> simp [add_assoc, min_assoc, max_assoc]
  add_comm s t := by
    apply Tally.ext <;> simp [add_comm, min_comm, max_comm]

/-- A histogram of this width counts the reading, if it has a cell for it. -/
def one (width : ℕ) (r : Reading) : Tally bound where
  count := Saturating.ofNat 1
  sum := Saturating.ofNat r.value
  min := WithTop.some r.value
  max := WithBot.some r.value
  width := if r.cell.isSome then width else 0
  cells := fun i => if r.cell = some i then Saturating.ofNat 1 else 0

def ofReadings (width : ℕ) (readings : List Reading) : Tally bound :=
  (readings.map (one width)).sum

variable {readings : List Reading}

@[simp] theorem ofReadings_nil : (ofReadings width [] : Tally bound) = 0 := rfl

@[simp] theorem ofReadings_cons (r : Reading) :
    (ofReadings width (r :: readings) : Tally bound) = one width r + ofReadings width readings :=
  rfl

theorem ofReadings_append (readings more : List Reading) :
    (ofReadings width (readings ++ more) : Tally bound) =
      ofReadings width readings + ofReadings width more := by
  unfold ofReadings
  rw [List.map_append, List.sum_append]

theorem count_ofReadings :
    (ofReadings width readings : Tally bound).count = Saturating.ofNat readings.length := by
  induction readings with
  | nil => exact Saturating.ofNat_zero.symm
  | cons r readings ih =>
    rw [ofReadings_cons, count_add, ih, List.length_cons, Nat.add_comm, Saturating.ofNat_add]
    rfl

theorem sum_ofReadings :
    (ofReadings width readings : Tally bound).sum =
      Saturating.ofNat (readings.map (·.value)).sum := by
  induction readings with
  | nil => exact Saturating.ofNat_zero.symm
  | cons r readings ih =>
    rw [ofReadings_cons, sum_add, ih, List.map_cons, List.sum_cons, Saturating.ofNat_add]
    rfl

theorem min_ofReadings :
    (ofReadings width readings : Tally bound).min = (readings.map (·.value)).minimum := by
  induction readings with
  | nil => rfl
  | cons r readings ih =>
    rw [ofReadings_cons, min_add, ih, List.map_cons, List.minimum_cons]
    rfl

theorem max_ofReadings :
    (ofReadings width readings : Tally bound).max = (readings.map (·.value)).maximum := by
  induction readings with
  | nil => rfl
  | cons r readings ih =>
    rw [ofReadings_cons, max_add, ih, List.map_cons, List.maximum_cons]
    rfl

/-- The histogram is there as soon as one reading has a cell. -/
theorem width_ofReadings :
    (ofReadings width readings : Tally bound).width =
      if readings.any (·.cell.isSome) then width else 0 := by
  induction readings with
  | nil => rfl
  | cons r readings ih =>
    rw [ofReadings_cons, width_add, ih, List.any_cons]
    by_cases hr : r.cell.isSome = true
    · by_cases hrest : readings.any (·.cell.isSome) = true <;> simp [one, hr, hrest]
    · simp [one, hr]

theorem cells_ofReadings (i : ℕ) :
    (ofReadings width readings : Tally bound).cells i =
      Saturating.ofNat (readings.countP (·.cell == some i)) := by
  induction readings with
  | nil => exact Saturating.ofNat_zero.symm
  | cons r readings ih =>
    rw [ofReadings_cons, cells_add, Pi.add_apply, ih, List.countP_cons]
    by_cases hr : r.cell = some i
    · have hone : (one width r : Tally bound).cells i = Saturating.ofNat 1 := if_pos hr
      rw [hone, ← Saturating.ofNat_add, Nat.add_comm]
      simp [hr]
    · have hone : (one width r : Tally bound).cells i = 0 := if_neg hr
      rw [hone, zero_add]
      simp [hr]

end Tally
