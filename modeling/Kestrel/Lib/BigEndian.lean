import Mathlib.Data.Nat.Notation
import Mathlib.Data.List.Induction
import Mathlib.Tactic.Positivity
import Mathlib.Tactic.Ring

/-! # Big-endian numbers

A number is written as a fixed count of bytes, most significant byte first, and read back.
Reading undoes writing modulo the range of the format.
-/

namespace BigEndian

/-- The `k` low bytes of a number, most significant byte first. -/
def bytes : ℕ → ℕ → List UInt8
  | 0, _ => []
  | k + 1, n => bytes k (n / 256) ++ [UInt8.ofNat n]

/-- The number written by a list of bytes, most significant byte first. -/
def value (l : List UInt8) : ℕ := l.foldl (fun acc b => acc * 256 + b.toNat) 0

@[simp] theorem length_bytes (k n : ℕ) : (bytes k n).length = k := by
  induction k generalizing n with
  | zero => rfl
  | succ k ih => simp [bytes, ih]

theorem value_append_singleton (l : List UInt8) (b : UInt8) :
    value (l ++ [b]) = value l * 256 + b.toNat := by
  simp [value]

theorem value_bytes (k n : ℕ) : value (bytes k n) = n % 256 ^ k := by
  induction k generalizing n with
  | zero => simp [bytes, value, Nat.mod_one]
  | succ k ih =>
    have hb : (UInt8.ofNat n).toNat = n % 256 := by simp
    have hm : n % (256 * 256 ^ k) = n % 256 + 256 * (n / 256 % 256 ^ k) := Nat.mod_mul
    rw [bytes, value_append_singleton, ih, hb, pow_succ', hm]
    ring

theorem value_bytes_of_lt {k n : ℕ} (h : n < 256 ^ k) : value (bytes k n) = n := by
  rw [value_bytes, Nat.mod_eq_of_lt h]

theorem bytes_value {k : ℕ} {l : List UInt8} (h : l.length = k) : bytes k (value l) = l := by
  induction k generalizing l with
  | zero =>
    rw [List.length_eq_zero_iff] at h
    rw [h, bytes]
  | succ k ih =>
    cases l using List.reverseRecOn with
    | nil => cases h
    | append_singleton l b =>
      rw [List.length_append, List.length_singleton, Nat.add_right_cancel_iff] at h
      have hb := b.toNat_lt
      have hd : (value l * 256 + b.toNat) / 256 = value l := by omega
      have hm : UInt8.ofNat (value l * 256 + b.toNat) = b := by
        apply UInt8.toNat_inj.mp
        rw [UInt8.toNat_ofNat']
        omega
      rw [value_append_singleton, bytes, hd, hm, ih h]

theorem value_lt (l : List UInt8) : value l < 256 ^ l.length := by
  have h := value_bytes l.length (value l)
  rw [bytes_value rfl] at h
  rw [h]
  exact Nat.mod_lt _ (by positivity)

end BigEndian
