import Mathlib.Algebra.Group.Nat.Defs

/-! Numbers as bytes, the least significant first, and the fields of a byte string. -/

namespace LittleEndian

def toBytes : ℕ → ℕ → List UInt8
  | 0, _ => []
  | k + 1, n => UInt8.ofNat n :: toBytes k (n / 256)

def ofBytes : List UInt8 → ℕ
  | [] => 0
  | b :: bytes => b.toNat + 256 * ofBytes bytes

/-- The `k` bytes that begin at `offset`. -/
def slice (k offset : ℕ) (bytes : List UInt8) : List UInt8 := (bytes.drop offset).take k

def field (k offset : ℕ) (bytes : List UInt8) : ℕ := ofBytes (slice k offset bytes)

@[simp]
theorem length_toBytes (k n : ℕ) : (toBytes k n).length = k := by
  induction k generalizing n with
  | zero => rfl
  | succ k ih => rw [toBytes, List.length_cons, ih]

/-- A number is read back modulo the range of its field. -/
theorem ofBytes_toBytes (k n : ℕ) : ofBytes (toBytes k n) = n % 256 ^ k := by
  induction k generalizing n with
  | zero => rw [Nat.pow_zero, Nat.mod_one, toBytes, ofBytes]
  | succ k ih =>
      have hpow : 256 ^ (k + 1) = 256 * 256 ^ k := by rw [Nat.pow_succ, Nat.mul_comm]
      have hbyte : (UInt8.ofNat n).toNat = n % 256 := UInt8.toNat_ofNat'
      rw [toBytes, ofBytes, ih, hbyte, hpow, Nat.mod_mul]

/-- What lies within one part of a byte string can be looked up there. -/
theorem slice_part {k offset : ℕ} {part : List UInt8} (hfits : offset + k ≤ part.length)
    (before after : List UInt8) :
    slice k (before.length + offset) (before ++ part ++ after) = slice k offset part := by
  have hroom : k ≤ (part.drop offset).length := by
    rw [List.length_drop]
    omega
  rw [slice, List.append_assoc, List.drop_length_add_append, slice]
  rw [List.drop_append_of_le_length (by omega), List.take_append_of_le_length hroom]

theorem slice_all {k : ℕ} {part : List UInt8} (hlength : part.length = k) : slice k 0 part = part := by
  rw [slice, List.drop_zero, ← hlength, List.take_length]

end LittleEndian
