import HorizonRic.Python.Bytes
import Mathlib.Data.Nat.Digits.Lemmas

/-!
Natural numbers as big-endian octets: `int.from_bytes` and `int.to_bytes`.
-/
namespace Py

/-- `int.from_bytes(octets, "big")`. -/
def intFromBytes (octets : Bytes) : Nat := Nat.ofDigits 256 (octets.reverse.map UInt8.toNat)

/-- `n.to_bytes(width, "big")`, for a number that fits. -/
def intToBytes : Nat → Nat → Bytes
  | 0, _ => []
  | width + 1, n => intToBytes width (n / 256) ++ [UInt8.ofNat n]

@[simp] theorem length_intToBytes (width n : Nat) : (intToBytes width n).length = width := by
  induction width generalizing n with
  | zero => rfl
  | succ width ih => simp [intToBytes, ih]

theorem intFromBytes_append (high low : Bytes) :
    intFromBytes (high ++ low) = intFromBytes high * 256 ^ low.length + intFromBytes low := by
  rw [intFromBytes, List.reverse_append, List.map_append, Nat.ofDigits_append, List.length_map,
    List.length_reverse, ← intFromBytes, ← intFromBytes]
  ring

theorem intFromBytes_lt (octets : Bytes) : intFromBytes octets < 256 ^ octets.length := by
  have digits : ∀ d ∈ octets.reverse.map UInt8.toNat, d < 256 := by
    intro d member
    obtain ⟨b, _, rfl⟩ := List.mem_map.mp member
    exact b.toNat_lt
  have bound := Nat.ofDigits_lt_base_pow_length (by decide) digits
  rwa [List.length_map, List.length_reverse] at bound

theorem intFromBytes_toBytes {width n : Nat} (fits : n < 256 ^ width) :
    intFromBytes (intToBytes width n) = n := by
  induction width generalizing n with
  | zero =>
    have zero : n = 0 := by simpa using fits
    rw [zero]
    rfl
  | succ width ih =>
    have above : n / 256 < 256 ^ width := by
      rw [pow_succ] at fits
      exact Nat.div_lt_of_lt_mul (by rwa [Nat.mul_comm])
    have last : intFromBytes [UInt8.ofNat n] = n % 256 := by
      simp [intFromBytes]
    rw [intToBytes, intFromBytes_append, ih above, last, List.length_singleton, pow_one]
    omega

end Py
