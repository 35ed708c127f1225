import Groth16.Artifact.Decoder
import Groth16.Curve.Bn254.Groups

/-!
# Points as bytes

A point is written as its `x` coordinate, lowest byte first, with two flags in the top bits of the
last byte: bit 7 says that `y` is the larger of `y` and `-y`, and bit 6 that the point is at
infinity, where `x` is written as zero. The `y` coordinate is recovered from the equation of the
curve.

* `flagged`: a coordinate with flags, and `decodeFlagged` its reader.
* `recover`: the point with a given `x` and a given choice of `y`.
-/

set_option autoImplicit false

namespace Groth16.Bn254

/-- The flags of a point. -/
inductive Flag where
  /-- The point is finite and `y` is not larger than `-y`. -/
  | lower
  /-- The point is finite and `y` is larger than `-y`. -/
  | upper
  /-- The point is at infinity. -/
  | infinite
  deriving DecidableEq

/-- What the flag adds to the last byte. -/
def Flag.bits : Flag → Nat
  | .lower => 0
  | .upper => 0x80
  | .infinite => 0x40

/-- The number of bytes of a coordinate. -/
def coordinateLength : Nat := 32

/-- The weight of the last byte of a coordinate. -/
def topWeight : Nat := 1 <<< 248

/-- A coordinate with flags. -/
def encodeFlagged (x : Fq) (flag : Flag) : Bytes :=
  Bytes.littleEndian coordinateLength (x.val + flag.bits * topWeight)

/-- A coordinate without flags. -/
def encodeCoordinate (x : Fq) : Bytes := Bytes.littleEndian coordinateLength x.val

/-- The reduced residue of a number; an error if it is too large. -/
def reduced (n : Nat) : Decoder Fq :=
  if h : n < base.modulus then return ⟨n, h⟩ else Decoder.fail .invalidData

/-- Reads a coordinate without flags. -/
def decodeCoordinate : Decoder Fq := do
  reduced (Bytes.ofLittleEndian (← Decoder.take coordinateLength))

/-- Reads a coordinate with flags. -/
def decodeFlagged : Decoder (Fq × Flag) := do
  let n := Bytes.ofLittleEndian (← Decoder.take coordinateLength)
  let flags := n / (0x40 * topWeight)
  let x := n % (0x40 * topWeight)
  match flags with
  | 0 => return (← reduced x, .lower)
  | 1 => return (← reduced x, .infinite)
  | 2 => return (← reduced x, .upper)
  | _ => Decoder.fail .unexpectedFlags

/-- The first element is larger, compared as canonical integers. -/
def Fq.larger (a b : Fq) : Bool := b.val < a.val

/-- The first element is larger, compared by `c1` and then by `c0`. -/
def Fq2.larger (a b : Fq2) : Bool :=
  if a.c1 = b.c1 then Fq.larger a.c0 b.c0 else Fq.larger a.c1 b.c1

/-- The root of the right-hand side with the flag's choice of sign. -/
def chooseRoot {F : Type} [Neg F] (larger : F → F → Bool) (flag : Flag) (r : F) : F :=
  if larger r (-r) == (flag == .upper) then r else -r

/-- The finite point with a given `x`. -/
def recover {F : Type} [Arithmetic F] (b : F) (sqrt? : F → Option F) (larger : F → F → Bool) (x : F)
    (flag : Flag) : Decoder (Point F) :=
  match sqrt? (x * x * x + b) with
  | some r => return .affine x (chooseRoot larger flag r)
  | none => Decoder.fail .invalidData

/-- The flag of the `y` coordinate of a finite point. -/
def flagOf {F : Type} [Neg F] (larger : F → F → Bool) (y : F) : Flag :=
  if larger y (-y) then .upper else .lower

instance : PointEncoding G1 where
  encode
    | ⟨.infinity⟩ => encodeFlagged 0 .infinite
    | ⟨.affine x y⟩ => encodeFlagged x (flagOf Fq.larger y)
  decode := do
    let (x, flag) ← decodeFlagged
    if flag = .infinite then return ⟨.infinity⟩
    else return ⟨← recover b1 Fq.sqrt? Fq.larger x flag⟩
  inGroup _ := true

instance : PointEncoding G2 where
  encode
    | ⟨.infinity⟩ => encodeCoordinate 0 ++ encodeFlagged 0 .infinite
    | ⟨.affine x y⟩ => encodeCoordinate x.c0 ++ encodeFlagged x.c1 (flagOf Fq2.larger y)
  decode := do
    let c0 ← decodeCoordinate
    let (c1, flag) ← decodeFlagged
    if flag = .infinite then return ⟨.infinity⟩
    else return ⟨← recover b2 Fq2.sqrt? Fq2.larger ⟨c0, c1⟩ flag⟩
  inGroup p := p.point.multiple order == .infinity

end Groth16.Bn254
