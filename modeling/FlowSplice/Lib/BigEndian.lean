import Mathlib.Algebra.Group.Nat.Defs
import Mathlib.Data.List.Induction
import Mathlib.Data.Nat.Notation

/-! Fixed-width big-endian numbers as bytes. -/
namespace BigEndian
variable {w n : ℕ} {bytes rest : List UInt8}

/-- The last `w` base-256 digits of a number, the highest first. -/
def toBytes : ℕ → ℕ → List UInt8
  | 0, _ => []
  | w + 1, n => toBytes w (n / 256) ++ [UInt8.ofNat n]

def ofBytes (bytes : List UInt8) : ℕ :=
  bytes.foldl (fun n b => n * 256 + b.toNat) 0

@[simp] theorem length_toBytes (w n : ℕ) : (toBytes w n).length = w := by
  induction w generalizing n with
  | zero => rfl
  | succ w ih => simp [toBytes, ih]

theorem ofBytes_concat (bytes : List UInt8) (b : UInt8) :
    ofBytes (bytes ++ [b]) = ofBytes bytes * 256 + b.toNat := by
  simp [ofBytes]

/-- A number that fits its width is read back from its bytes. -/
theorem ofBytes_toBytes (h : n < 256 ^ w) : ofBytes (toBytes w n) = n := by
  induction w generalizing n with
  | zero =>
    have hn : n = 0 := by simpa using h
    simp [toBytes, ofBytes, hn]
  | succ w ih =>
    have hdiv : n / 256 < 256 ^ w := by
      apply Nat.div_lt_of_lt_mul
      rw [Nat.pow_succ] at h
      omega
    rw [toBytes, ofBytes_concat, ih hdiv, UInt8.toNat_ofNat']
    omega

/-- What a field of that many bytes can hold. -/
theorem ofBytes_lt (bytes : List UInt8) : ofBytes bytes < 256 ^ bytes.length := by
  induction bytes using List.reverseRecOn with
  | nil => simp [ofBytes]
  | append_singleton bytes b ih =>
    have hb : b.toNat < 256 := b.toNat_lt
    have hlen : (bytes ++ [b]).length = bytes.length + 1 := by simp
    rw [ofBytes_concat, hlen, Nat.pow_succ]
    omega

end BigEndian
