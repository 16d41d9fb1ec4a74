import Mathlib.Algebra.Group.Nat.Defs

set_option autoImplicit false

/-! Unsigned integers of a fixed number of bytes, the low byte first. -/

namespace LittleEndian

/-- The low `width` bytes of a number. -/
def encode : (width n : Nat) → List UInt8
  | 0, _ => []
  | width + 1, n => UInt8.ofNat (n % 256) :: encode width (n / 256)

def decode : List UInt8 → Nat
  | [] => 0
  | b :: rest => b.toNat + 256 * decode rest

@[simp]
theorem length_encode (width n : Nat) : (encode width n).length = width := by
  induction width generalizing n with
  | zero => rfl
  | succ width ih => rw [encode, List.length_cons, ih]

theorem decode_encode {width n : Nat} (fits : n < 256 ^ width) : decode (encode width n) = n := by
  induction width generalizing n with
  | zero =>
    rw [Nat.pow_zero] at fits
    rw [encode, decode]
    omega
  | succ width ih =>
    have high : n / 256 < 256 ^ width := by
      rw [Nat.div_lt_iff_lt_mul (by decide), ← Nat.pow_succ]
      exact fits
    have low : (UInt8.ofNat (n % 256)).toNat = n % 256 := by
      rw [UInt8.toNat_ofNat']
      omega
    rw [encode, decode, ih high, low]
    omega

/-- The bytes of a number depend on its residue alone. -/
theorem encode_mod (width n : Nat) : encode width (n % 256 ^ width) = encode width n := by
  induction width generalizing n with
  | zero => rfl
  | succ width ih =>
    have low : n % 256 ^ (width + 1) % 256 = n % 256 := by
      rw [Nat.pow_succ, Nat.mul_comm, Nat.mod_mul_right_mod]
    have high : n % 256 ^ (width + 1) / 256 = n / 256 % 256 ^ width := by
      rw [Nat.pow_succ, Nat.mul_comm, Nat.mod_mul_right_div_self]
    rw [encode, encode, low, high, ih]

end LittleEndian
