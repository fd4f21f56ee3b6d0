import Mathlib.Data.List.Basic
import Mathlib.Algebra.Group.Nat.Defs

/-!
# Little-endian integers

The `k` low bytes of a number, the least significant first, and the number
that bytes stand for. The two are inverse to each other as far as `k` bytes
reach (`ofLE_toLE`, `toLE_ofLE`).
-/

namespace VehicleStack

namespace LittleEndian

/-- The `k` low bytes. -/
def toLE : ℕ → ℕ → List UInt8
  | 0, _ => []
  | k + 1, n => UInt8.ofNat n :: toLE k (n / 256)

/-- The number of a list of bytes. -/
def ofLE : List UInt8 → ℕ
  | [] => 0
  | b :: bytes => b.toNat + 256 * ofLE bytes

variable {k n m : ℕ} {bytes : List UInt8}

@[simp] theorem length_toLE : (toLE k n).length = k := by
  induction k generalizing n with
  | zero => rfl
  | succ k ih => rw [toLE, List.length_cons, ih]

/-- **What `k` bytes keep of a number.** -/
theorem ofLE_toLE : ofLE (toLE k n) = n % 256 ^ k := by
  induction k generalizing n with
  | zero => rw [Nat.pow_zero, Nat.mod_one, toLE, ofLE]
  | succ k ih =>
    have hbyte : (UInt8.ofNat n).toNat = n % 256 := UInt8.toNat_ofNat'
    rw [toLE, ofLE, ih, hbyte, Nat.pow_succ', Nat.mod_mul]

theorem ofLE_toLE_of_lt (h : n < 256 ^ k) : ofLE (toLE k n) = n := by
  rw [ofLE_toLE, Nat.mod_eq_of_lt h]

theorem ofLE_lt (bytes : List UInt8) : ofLE bytes < 256 ^ bytes.length := by
  induction bytes with
  | nil => rw [ofLE, List.length_nil, Nat.pow_zero]; omega
  | cons b bytes ih =>
    have hb : b.toNat < 256 := b.toNat_lt
    rw [ofLE, List.length_cons, Nat.pow_succ']
    omega

/-- **Bytes are the bytes of their number.** -/
theorem toLE_ofLE (bytes : List UInt8) : toLE bytes.length (ofLE bytes) = bytes := by
  induction bytes with
  | nil => rfl
  | cons b bytes ih =>
    have hb : b.toNat < 256 := b.toNat_lt
    have hbyte : UInt8.ofNat (b.toNat + 256 * ofLE bytes) = b := by
      rw [← UInt8.toNat_inj, UInt8.toNat_ofNat']
      omega
    have hrest : (b.toNat + 256 * ofLE bytes) / 256 = ofLE bytes := by omega
    rw [List.length_cons, ofLE, toLE, hbyte, hrest, ih]

/-- Bits above those of a number are added to it. -/
theorem or_shiftLeft {a b : ℕ} (h : a < 2 ^ k) : a ||| b <<< k = a + b * 2 ^ k := by
  rw [Nat.or_comm, ← Nat.shiftLeft_add_eq_or_of_lt h, Nat.shiftLeft_eq, Nat.add_comm]

end LittleEndian

end VehicleStack
