import Groth16.Random.Source

/-!
# A seeded generator

The ChaCha stream cipher with twelve rounds as a source of blocks: the key comes from a 64-bit
seed, the nonce is zero and the block counter starts at zero.

* `ChaCha.block`: the cipher's block function.
* `ChaCha.expandSeed`: the 32 key bytes of a seed, from a linear congruential generator whose
  states are permuted before they are used.
* `ChaCha.ofSeed`: the source of a seed.
* `ChaCha.ofKey`: the source of a key.
-/

set_option autoImplicit false

namespace Groth16

/-- The state of the generator: the key, and the number of the next block. -/
structure ChaCha where
  /-- The eight key words. -/
  key : Vector UInt32 8
  /-- The number of the next block. -/
  counter : UInt64

namespace ChaCha

/-- The word rotated to the left by a count from 1 to 31. -/
def rotateLeft (x k : UInt32) : UInt32 := (x <<< k) ||| (x >>> (32 - k))

/-- The word rotated to the right by a count from 0 to 31. -/
def rotateRight (x k : UInt32) : UInt32 := if k = 0 then x else (x >>> k) ||| (x <<< (32 - k))

/-- The quarter round on four words of the state, each named by its index below 16. -/
def quarterRound (s : Vector UInt32 16) (a b c d : Nat) : Vector UInt32 16 :=
  let word (s : Vector UInt32 16) (i : Nat) : UInt32 := s.getD i 0
  let s := s.setIfInBounds a (word s a + word s b)
  let s := s.setIfInBounds d (rotateLeft (word s d ^^^ word s a) 16)
  let s := s.setIfInBounds c (word s c + word s d)
  let s := s.setIfInBounds b (rotateLeft (word s b ^^^ word s c) 12)
  let s := s.setIfInBounds a (word s a + word s b)
  let s := s.setIfInBounds d (rotateLeft (word s d ^^^ word s a) 8)
  let s := s.setIfInBounds c (word s c + word s d)
  s.setIfInBounds b (rotateLeft (word s b ^^^ word s c) 7)

/-- A column round followed by a diagonal round. -/
def doubleRound (s : Vector UInt32 16) : Vector UInt32 16 :=
  let s := quarterRound s 0 4 8 12
  let s := quarterRound s 1 5 9 13
  let s := quarterRound s 2 6 10 14
  let s := quarterRound s 3 7 11 15
  let s := quarterRound s 0 5 10 15
  let s := quarterRound s 1 6 11 12
  let s := quarterRound s 2 7 8 13
  quarterRound s 3 4 9 14

/-- The initial state of a block: constants, key, counter and a zero nonce. -/
def initial (g : ChaCha) : Vector UInt32 16 :=
  let constants : Vector UInt32 4 := #v[0x61707865, 0x3320646e, 0x79622d32, 0x6b206574]
  constants ++ g.key ++ #v[g.counter.toUInt32, (g.counter >>> 32).toUInt32, 0, 0]

/-- The words of the next block. -/
def words (g : ChaCha) : Vector UInt32 16 :=
  let start := g.initial
  let mixed := (List.range 6).foldl (fun s _ => doubleRound s) start
  Vector.zipWith (· + ·) mixed start

/-- The bytes of the next block, each word with its lowest byte first. -/
def block (g : ChaCha) : Block :=
  let w := g.words
  Vector.ofFn fun i =>
    (w.get ⟨i.val / 4, by omega⟩ >>> UInt32.ofNat (8 * (i.val % 4))).toUInt8

instance : RandomSource ChaCha where
  next g := (.ok g.block, { g with counter := g.counter + 1 })

/-- One word of the expansion of a seed, and the next state. -/
def seedWord (state : UInt64) : UInt32 × UInt64 :=
  let state := state * 6364136223846793005 + 11634580027462260723
  let mixed := (((state >>> 18) ^^^ state) >>> 27).toUInt32
  (rotateRight mixed (state >>> 59).toUInt32, state)

/-- The words of the expansion of a seed. -/
def seedWords : Nat → UInt64 → List UInt32
  | 0, _ => []
  | n + 1, state =>
    let (w, state) := seedWord state
    w :: seedWords n state

/-- The generator of a 64-bit seed. -/
def ofSeed (seed : UInt64) : ChaCha where
  key := Vector.ofFn fun i => (seedWords 8 seed).getD i.val 0
  counter := 0

/-- The generator of a key of 32 bytes; bytes that are missing are zero. -/
def ofKey (bs : Bytes) : ChaCha where
  key := Vector.ofFn fun i => UInt32.ofNat (Bytes.ofLittleEndian ((bs.drop (4 * i.val)).take 4))
  counter := 0

end ChaCha

end Groth16
