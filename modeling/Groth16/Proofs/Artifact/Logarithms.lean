import Groth16.Proofs.Artifact.Parts
import Groth16.Proofs.Curve.Groups

/-!
# Points by their logarithms as bytes

A point that is known by its discrete logarithm is written as the canonical bytes of that.  So there
is an encoding for a group whose laws hold, and in which every point is one of the group.

* `Logarithm.isGroupPoint`: every point is read back.
-/

set_option autoImplicit false

namespace Groth16

variable {K : PrimeField}

namespace Logarithm

/-- The point of a canonical integer. -/
def ofCanonical (n : Nat) : Except DecodeError (Logarithm K) :=
  if h : n < K.modulus then .ok ⟨⟨n, h⟩⟩ else .error .invalidData

/-- The format of a logarithm: its canonical bytes. -/
def format : Format (Logarithm K) :=
  (Format.integer K.byteLength).convert ofCanonical (·.log.val)

instance : PointEncoding (Logarithm K) where
  encode := format.write
  decode := format.read
  inGroup _ := true

theorem ofCanonical_eq_ok {n : Nat} {p : Logarithm K} (h : ofCanonical n = .ok p) :
    p.log.val = n := by
  rw [ofCanonical] at h
  split at h
  · cases h
    rfl
  · cases h

/-- Points by their logarithms have a lawful encoding. -/
instance : LawfulPointEncoding (Logarithm K) where
  OnCurve _ := True
  IsFinite _ := True
  safe := (Format.safe_integer K.byteLength).convert
  lawful := (Format.lawful_integer K.byteLength).convert
    (fun p _ => ⟨p.log.val_lt_pow_byteLength, dif_pos p.log.isLt⟩)
    (fun _ _ h _ => ⟨trivial, ofCanonical_eq_ok h⟩) fun p _ => p.log.val_lt_pow_byteLength

theorem isGroupPoint (p : Logarithm K) : Format.IsGroupPoint p := ⟨trivial, rfl⟩

end Logarithm

end Groth16
