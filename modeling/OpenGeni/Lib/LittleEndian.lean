/-
Fixed-width little-endian integers as byte lists.

`toLE k n` is the `k`-byte little-endian encoding of `n` (what `to_le_bytes`
produces for a `k`-byte unsigned type), `ofLE` reads one back. A value below
`256 ^ k` survives the round trip; a larger one is truncated, as the cast to the
`k`-byte type would truncate it.
-/
import Mathlib

namespace OpenGeni.Lib

/-- The `k` low bytes of `n`, least significant first. -/
def toLE : ℕ → ℕ → List UInt8
  | 0, _ => []
  | k + 1, n => UInt8.ofNat (n % 256) :: toLE k (n / 256)

def ofLE : List UInt8 → ℕ
  | [] => 0
  | b :: bs => b.toNat + 256 * ofLE bs

@[simp] theorem toLE_length (k n : ℕ) : (toLE k n).length = k := by
  induction k generalizing n with
  | zero => rfl
  | succ k ih => simp only [toLE, List.length_cons, ih]

theorem ofLE_toLE_mod (k n : ℕ) : ofLE (toLE k n) = n % 256 ^ k := by
  induction k generalizing n with
  | zero => simp only [toLE, ofLE, pow_zero, Nat.mod_one]
  | succ k ih =>
    have hbyte : (UInt8.ofNat (n % 256)).toNat = n % 256 := by simp
    rw [toLE, ofLE, ih, hbyte, pow_succ', Nat.mod_mul]

/-- **The round trip.** A value that fits in `k` bytes is read back unchanged. -/
theorem ofLE_toLE {k n : ℕ} (h : n < 256 ^ k) : ofLE (toLE k n) = n := by
  rw [ofLE_toLE_mod, Nat.mod_eq_of_lt h]

end OpenGeni.Lib
