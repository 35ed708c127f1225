import Mathlib.Algebra.Order.Group.Nat
import Groth16.Data.Bytes

/-!
# Bounds of numbers and of their bytes

What fixed-width writing of numbers loses, and how large a number can be that bytes stand for.

* `ofLittleEndian_littleEndian`: a number is written up to the bytes that do not fit.
* `ofLittleEndian_lt`: bytes stand for a number below the power of 256 of their count.
-/

set_option autoImplicit false

namespace Groth16.Bytes

/-- Writing a number keeps it, up to the bytes that do not fit. -/
theorem ofLittleEndian_littleEndian (width n : Nat) :
    ofLittleEndian (littleEndian width n) = n % 256 ^ width := by
  induction width generalizing n with
  | zero => simp [littleEndian, ofLittleEndian, Nat.mod_one]
  | succ width ih =>
    rw [littleEndian, ofLittleEndian, ih, Nat.pow_succ', Nat.mod_mul, UInt8.toNat_ofNat']

/-- A list of bytes denotes a number below the power of 256 of its length. -/
theorem ofLittleEndian_lt (bs : Bytes) : ofLittleEndian bs < 256 ^ bs.length := by
  induction bs with
  | nil => simp [ofLittleEndian]
  | cons b bs ih =>
    have hb := b.toNat_lt
    rw [ofLittleEndian, List.length_cons, Nat.pow_succ]
    omega

end Groth16.Bytes
