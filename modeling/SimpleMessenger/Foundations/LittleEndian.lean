import Mathlib.Algebra.Group.Int.Defs
import Mathlib.Algebra.Group.Nat.Defs
import SimpleMessenger.Foundations.CMemory

/-!
# Numbers in memory

The bytes of a number as a little-endian machine stores them, and the number that
a sequence of bytes stands for.

Main results:

- Theorem {lit}`value_bytes`: a number that fits is loaded as it was stored.
- Theorem {lit}`value_append`: a sequence is read low part first.
-/

namespace LittleEndian

open CMemory

/-- The `k` lowest bytes of a number, lowest first. -/
def bytes : Nat → Nat → Bytes
  | 0, _ => []
  | k + 1, n => UInt8.ofNat n :: bytes k (n / 256)

/-- The number that a sequence of bytes stands for. -/
def value : Bytes → Nat
  | [] => 0
  | b :: bs => b.toNat + 256 * value bs

@[simp]
theorem length_bytes (k n : Nat) : (bytes k n).length = k := by
  induction k generalizing n with
  | zero => rfl
  | succ k ih => rw [bytes, List.length_cons, ih]

/-- A number that fits is loaded as it was stored. -/
theorem value_bytes {k n : Nat} (hfits : n < 256 ^ k) : value (bytes k n) = n := by
  induction k generalizing n with
  | zero =>
      have hzero : n = 0 := by simpa using hfits
      rw [hzero]
      rfl
  | succ k ih =>
      have hrest : n / 256 < 256 ^ k := by
        rw [Nat.div_lt_iff_lt_mul (by decide), ← Nat.pow_succ]
        exact hfits
      have hbyte : (UInt8.ofNat n).toNat = n % 256 := UInt8.toNat_ofNat'
      rw [bytes, value, ih hrest, hbyte]
      exact Nat.mod_add_div n 256

/-- A sequence stands for a number of its size. -/
theorem value_lt (bs : Bytes) : value bs < 256 ^ bs.length := by
  induction bs with
  | nil => decide
  | cons b bs ih =>
      have hb : b.toNat < 256 := b.toNat_lt
      rw [value, List.length_cons, Nat.pow_succ]
      omega

/-- The bytes that come first are the low ones. -/
theorem value_append (low high : Bytes) :
    value (low ++ high) = value low + 256 ^ low.length * value high := by
  induction low with
  | nil => simp [value]
  | cons b low ih =>
      rw [List.cons_append, value, ih, value, List.length_cons, Nat.pow_succ, Nat.mul_add,
        ← Nat.mul_assoc, Nat.mul_comm 256 (256 ^ low.length), Nat.add_assoc]

end LittleEndian
