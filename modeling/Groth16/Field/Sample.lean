import Groth16.Field.Basic
import Groth16.Random.Source

/-!
# Random field elements

* `Fp.sample`: one block of a source as a little-endian number, reduced modulo the prime.
* `Fp.sampleNonzero`: the first non-zero of at most eight samples.
-/

set_option autoImplicit false

namespace Groth16.Fp

variable {σ ε : Type} [RandomSource σ]

/-- The element of a block: its little-endian number, reduced. -/
def ofBlock (K : PrimeField) (block : Block) : Fp K :=
  ofNat K (Bytes.ofLittleEndian block.toList)

/-- An element from one block of the source. -/
def sample (K : PrimeField) (failed : SourceFailure → ε) : Draws σ ε (Fp K) := do
  return ofBlock K (← drawBlock failed)

/-- The first non-zero element of at most `tries` samples. -/
def sampleNonzeroWithin (K : PrimeField) (failed : SourceFailure → ε) :
    Nat → Draws σ ε (Option (Fp K))
  | 0 => return none
  | tries + 1 => do
    let a ← sample K failed
    if a = 0 then sampleNonzeroWithin K failed tries else return some a

/-- How many zeros in a row are taken for a broken source. -/
def maxZeroDraws : Nat := 8

/-- The first non-zero element of at most eight samples. -/
def sampleNonzero (K : PrimeField) (failed : SourceFailure → ε) : Draws σ ε (Option (Fp K)) :=
  sampleNonzeroWithin K failed maxZeroDraws

end Groth16.Fp
