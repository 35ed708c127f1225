import Groth16.Data.Bytes

/-!
# Sources of random bytes

A source answers each request with a block of 64 bytes or with a failure, and goes on in a new
state either way. Setup and prover are generic in the source.

* `RandomSource`: the interface.
* `Script`: a source that replays a list of answers, then fails forever.
* `Draws σ ε α`: a computation that requests blocks of a source of type `σ`; the state of the
  source survives an error.
-/

set_option autoImplicit false

namespace Groth16

universe u v

/-- The source did not answer a request. -/
inductive SourceFailure where
  /-- No randomness is available. -/
  | unavailable
  deriving DecidableEq

/-- The text of the failure. -/
def SourceFailure.message : SourceFailure → String
  | .unavailable => "entropy source unavailable"

/-- The bytes that answer one request. -/
abbrev Block := Vector UInt8 64

/-- A state that answers requests for blocks. -/
class RandomSource (σ : Type u) where
  /-- The answer to one request, and the state afterwards. -/
  next : σ → Except SourceFailure Block × σ

/-- A computation that draws from a source. -/
abbrev Draws (σ : Type u) (ε : Type u) (α : Type u) := ExceptT ε (StateM σ) α

/-- Requests one block; `failed` says how a failure is reported. -/
def drawBlock {σ ε : Type} [RandomSource σ] (failed : SourceFailure → ε) : Draws σ ε Block :=
  fun s => match RandomSource.next s with
    | (.ok block, s') => (.ok block, s')
    | (.error e, s') => (.error (failed e), s')

/-- Two kinds of source in one. -/
instance {σ : Type u} {τ : Type v} [RandomSource σ] [RandomSource τ] : RandomSource (σ ⊕ τ) where
  next
    | .inl s => let (r, s') := RandomSource.next s; (r, .inl s')
    | .inr t => let (r, t') := RandomSource.next t; (r, .inr t')

/-- A list of answers: bytes that fill a block from its start, or a failure. -/
structure Script where
  /-- The answers that are left. -/
  answers : List (Option Bytes)

/-- A block that starts with the given bytes; bytes too many are dropped, bytes too few are zero. -/
def blockOf (bs : Bytes) : Block := Vector.ofFn fun i => bs.toArray.getD i.val 0

instance : RandomSource Script where
  next
    | ⟨[]⟩ => (.error .unavailable, ⟨[]⟩)
    | ⟨none :: rest⟩ => (.error .unavailable, ⟨rest⟩)
    | ⟨some bs :: rest⟩ => (.ok (blockOf bs), ⟨rest⟩)

end Groth16
