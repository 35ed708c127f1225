import Groth16.Data.Bytes

/-!
# The BLAKE3 hash

The unkeyed hash function with 32 bytes of output, on a list of bytes.

The input is cut into chunks of 1024 bytes and each chunk into blocks of 64 bytes. A chunk chains
its blocks through the compression function; the chunks are the leaves of a binary tree whose left
subtrees are complete and as large as possible, and a parent compresses the chaining values of its
children. The compression that yields the output carries the root flag.

* `Blake3.compress`: the compression function.
* `Blake3.Node`: the arguments of a compression that is still to be finished, as a chaining value
  or as the root.
* `Blake3.tree`: the node of a list of bytes.
* `Blake3.hash`: the digest.
-/

set_option autoImplicit false

namespace Groth16.Blake3

/-- Eight words that chain compressions. -/
abbrev Chaining := Vector UInt32 8

/-- The sixteen words of a block. -/
abbrev BlockWords := Vector UInt32 16

/-- The initial chaining value. -/
def initialChaining : Chaining :=
  #v[0x6A09E667, 0xBB67AE85, 0x3C6EF372, 0xA54FF53A, 0x510E527F, 0x9B05688C, 0x1F83D9AB, 0x5BE0CD19]

/-- The flag of the first block of a chunk. -/
def chunkStart : UInt32 := 1

/-- The flag of the last block of a chunk. -/
def chunkEnd : UInt32 := 2

/-- The flag of a parent node. -/
def parentFlag : UInt32 := 4

/-- The flag of the root. -/
def rootFlag : UInt32 := 8

/-- The word rotated to the right by a count from 1 to 31. -/
def rotateRight (x k : UInt32) : UInt32 := (x >>> k) ||| (x <<< (32 - k))

/-- The mixing function on four words of the state with two words of the message. -/
def mix (s : Vector UInt32 16) (a b c d : Fin 16) (x y : UInt32) : Vector UInt32 16 :=
  let s := s.set a (s[a] + s[b] + x)
  let s := s.set d (rotateRight (s[d] ^^^ s[a]) 16)
  let s := s.set c (s[c] + s[d])
  let s := s.set b (rotateRight (s[b] ^^^ s[c]) 12)
  let s := s.set a (s[a] + s[b] + y)
  let s := s.set d (rotateRight (s[d] ^^^ s[a]) 8)
  let s := s.set c (s[c] + s[d])
  s.set b (rotateRight (s[b] ^^^ s[c]) 7)

/-- One round: the columns, then the diagonals. -/
def round (s : Vector UInt32 16) (m : BlockWords) : Vector UInt32 16 :=
  let s := mix s 0 4 8 12 m[0] m[1]
  let s := mix s 1 5 9 13 m[2] m[3]
  let s := mix s 2 6 10 14 m[4] m[5]
  let s := mix s 3 7 11 15 m[6] m[7]
  let s := mix s 0 5 10 15 m[8] m[9]
  let s := mix s 1 6 11 12 m[10] m[11]
  let s := mix s 2 7 8 13 m[12] m[13]
  mix s 3 4 9 14 m[14] m[15]

/-- The order in which a round reads the words of the round before. -/
def permute (m : BlockWords) : BlockWords :=
  #v[m[2], m[6], m[3], m[10], m[7], m[0], m[4], m[13],
    m[1], m[11], m[12], m[5], m[9], m[14], m[15], m[8]]

/-- Rounds, the message permuted between them. -/
def rounds : Nat → Vector UInt32 16 → BlockWords → Vector UInt32 16
  | 0, s, _ => s
  | n + 1, s, m => rounds n (round s m) (permute m)

/-- The arguments of one compression. -/
structure Node where
  /-- The chaining value that goes in. -/
  chaining : Chaining
  /-- The message block. -/
  block : BlockWords
  /-- The number of the chunk, zero for a parent. -/
  counter : UInt64
  /-- How many bytes of the block are message. -/
  length : UInt32
  /-- The flags. -/
  flags : UInt32

/-- The compression function: the first eight words of its output. -/
def compress (n : Node) : Chaining :=
  let h := n.chaining
  let start : Vector UInt32 16 :=
    #v[h[0], h[1], h[2], h[3], h[4], h[5], h[6], h[7],
      0x6A09E667, 0xBB67AE85, 0x3C6EF372, 0xA54FF53A,
      n.counter.toUInt32, (n.counter >>> 32).toUInt32, n.length, n.flags]
  let s := rounds 7 start n.block
  Vector.ofFn fun i => s[i.val] ^^^ s[i.val + 8]

/-- The words of a list of bytes, each four bytes with the lowest first, filled up with zeros. -/
def blockWords (bs : Bytes) : BlockWords :=
  let a := bs.toArray
  Vector.ofFn fun i =>
    let byte (k : Nat) : UInt32 := (a.getD (4 * i.val + k) 0).toUInt32
    byte 0 ||| (byte 1 <<< 8) ||| (byte 2 <<< 16) ||| (byte 3 <<< 24)

/-- The bytes of eight words. -/
def chainingBytes (h : Chaining) : Bytes := h.toList.flatMap fun w => Bytes.littleEndian 4 w.toNat

/-- The last compression of a chunk, the earlier ones done; `start` is the flag of a first block. -/
def chunkFrom (counter : UInt64) (h : Chaining) (start : UInt32) (bs : Bytes) : Node :=
  if _long : 64 < bs.length then
    let h := compress ⟨h, blockWords (bs.take 64), counter, 64, start⟩
    chunkFrom counter h 0 (bs.drop 64)
  else ⟨h, blockWords bs, counter, UInt32.ofNat bs.length, start ||| chunkEnd⟩
termination_by bs.length
decreasing_by simp only [List.length_drop]; omega

/-- The last compression of the chunk with the given number. -/
def chunk (counter : Nat) (bs : Bytes) : Node :=
  chunkFrom (UInt64.ofNat counter) initialChaining chunkStart bs

/-- The node of two subtrees. -/
def parent (left right : Node) : Node :=
  ⟨initialChaining, compress left ++ compress right, 0, 64, parentFlag⟩

/-- How many bytes of a tree of more than one chunk its left subtree takes: the greatest power of
two of chunks that leaves at least one byte. -/
def leftLength (length : Nat) : Nat := 1024 <<< ((length - 1) / 1024).log2

theorem leftLength_pos (length : Nat) : 0 < leftLength length := by
  rw [leftLength, Nat.shiftLeft_eq]
  exact Nat.mul_pos (by decide) (Nat.two_pow_pos _)

theorem leftLength_lt {length : Nat} (long : 1024 < length) : leftLength length < length := by
  have h : 2 ^ ((length - 1) / 1024).log2 ≤ (length - 1) / 1024 := Nat.log2_self_le (by omega)
  rw [leftLength, Nat.shiftLeft_eq]
  omega

/-- The node of the bytes from the chunk with the number `counter` on. -/
def tree (counter : Nat) (bs : Bytes) : Node :=
  if long : 1024 < bs.length then
    let k := leftLength bs.length
    parent (tree counter (bs.take k)) (tree (counter + k / 1024) (bs.drop k))
  else chunk counter bs
termination_by bs.length
decreasing_by
  · have := leftLength_lt long
    simp only [List.length_take]
    omega
  · have := leftLength_pos bs.length
    simp only [List.length_drop]
    omega

/-- The 32 bytes of the digest. -/
def hash (bs : Bytes) : Bytes :=
  let root := tree 0 bs
  chainingBytes (compress { root with flags := root.flags ||| rootFlag })

theorem length_hash (bs : Bytes) : (hash bs).length = 32 := by
  have h : ∀ c : Chaining, (chainingBytes c).length = 32 := by
    intro c
    simp [chainingBytes, List.length_flatMap, List.map_const', Vector.length_toList]
  exact h _

end Groth16.Blake3
