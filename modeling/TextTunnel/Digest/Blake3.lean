import TextTunnel.Bytes

/-!
# The BLAKE3 hash

BLAKE3 cuts its input into chunks of 1024 bytes, hashes each chunk as a chain of 64-byte blocks and
joins the chunks in a binary tree whose left subtrees are as large a power of two as fits. Every
step is one *compression*: a chaining value of eight words and a block of sixteen go in, sixteen
words come out. The last compression at the root is marked by a flag of its own, so a tree is kept
as a description of its last compression (`Node`) until it is known whether it is the root.

* `blake3` -- the 32-byte hash of a byte string.
-/

namespace TextTunnel.Digest

/-! ## 1. The compression -/

/-- Eight words that sum up all that came before. -/
abbrev ChainingValue := Vector UInt32 8

/-- Sixteen words: a block, or the working state of a compression. -/
abbrev Block := Vector UInt32 16

/-- The chaining value before any input. -/
def initialValue : ChainingValue :=
  #v[0x6A09E667, 0xBB67AE85, 0x3C6EF372, 0xA54FF53A, 0x510E527F, 0x9B05688C, 0x1F83D9AB, 0x5BE0CD19]

/-- First block of a chunk. -/
def chunkStart : UInt32 := 1

/-- Last block of a chunk. -/
def chunkEnd : UInt32 := 2

/-- A compression that joins two subtrees. -/
def parentNode : UInt32 := 4

/-- The compression that yields the hash. -/
def rootNode : UInt32 := 8

/-- Rotates a word to the right. -/
def rotateRight (x : UInt32) (n : UInt32) : UInt32 :=
  (x >>> n) ||| (x <<< (32 - n))

/-- Mixes two message words into four words of the state. -/
def quarterRound (s : Block) (a b c d : Fin 16) (x y : UInt32) : Block :=
  let va := s[a] + s[b] + x
  let vd := rotateRight (s[d] ^^^ va) 16
  let vc := s[c] + vd
  let vb := rotateRight (s[b] ^^^ vc) 12
  let va := va + vb + y
  let vd := rotateRight (vd ^^^ va) 8
  let vc := vc + vd
  let vb := rotateRight (vb ^^^ vc) 7
  (((s.set a va).set b vb).set c vc).set d vd

/-- Mixes a whole block into the state: the four columns, then the four diagonals. -/
def mixBlock (s m : Block) : Block :=
  let s := quarterRound s 0 4 8 12 m[0] m[1]
  let s := quarterRound s 1 5 9 13 m[2] m[3]
  let s := quarterRound s 2 6 10 14 m[4] m[5]
  let s := quarterRound s 3 7 11 15 m[6] m[7]
  let s := quarterRound s 0 5 10 15 m[8] m[9]
  let s := quarterRound s 1 6 11 12 m[10] m[11]
  let s := quarterRound s 2 7 8 13 m[12] m[13]
  quarterRound s 3 4 9 14 m[14] m[15]

/-- The order in which the next round takes the words of a block. -/
def permuteBlock (m : Block) : Block :=
  #v[m[2], m[6], m[3], m[10], m[7], m[0], m[4], m[13], m[1], m[11], m[12], m[5], m[9], m[14], m[15],
    m[8]]

/-- Runs the given number of rounds, the block permuted between them. -/
def mixRounds : Nat → Block → Block → Block
  | 0, s, _ => s
  | n + 1, s, m => mixRounds n (mixBlock s m) (permuteBlock m)

/-- The first half of a compression's output, which is the next chaining value. -/
def compressBlock (cv : ChainingValue) (m : Block) (counter : UInt64) (len flags : UInt32) :
    ChainingValue :=
  let s : Block := #v[cv[0], cv[1], cv[2], cv[3], cv[4], cv[5], cv[6], cv[7],
    initialValue[0], initialValue[1], initialValue[2], initialValue[3],
    counter.toUInt32, (counter >>> 32).toUInt32, len, flags]
  let s := mixRounds 7 s m
  #v[s[0] ^^^ s[8], s[1] ^^^ s[9], s[2] ^^^ s[10], s[3] ^^^ s[11],
    s[4] ^^^ s[12], s[5] ^^^ s[13], s[6] ^^^ s[14], s[7] ^^^ s[15]]

/-! ## 2. Blocks and chunks -/

/-- The word in four bytes, least significant first; missing bytes are zero. -/
def wordOf (bs : Bytes) : UInt32 :=
  (bs.take 4).foldr (fun b w => (w <<< 8) ||| b.toUInt32) 0

/-- Up to sixty-four bytes as a block, filled up with zeros. -/
def blockOf (bs : Bytes) : Block :=
  Vector.ofFn fun i => wordOf (bs.drop (4 * i.val))

/-- A compression that has not been run yet. -/
structure Node where
  cv : ChainingValue
  block : Block
  counter : UInt64
  len : UInt32
  flags : UInt32

/-- The chaining value a node hands to its parent. -/
def Node.value (n : Node) : ChainingValue :=
  compressBlock n.cv n.block n.counter n.len n.flags

/-- The value of a node that has no parent. -/
def Node.rootValue (n : Node) : ChainingValue :=
  compressBlock n.cv n.block 0 n.len (n.flags ||| rootNode)

/-- Chains the blocks of a chunk; `start` is set in front of the first one. -/
def chunkNode (counter : UInt64) (cv : ChainingValue) (start : UInt32) (bs : Bytes) : Node :=
  if _h : bs.length ≤ 64 then
    ⟨cv, blockOf bs, counter, UInt32.ofNat bs.length, start ||| chunkEnd⟩
  else
    chunkNode counter (compressBlock cv (blockOf (bs.take 64)) counter 64 start) 0 (bs.drop 64)
termination_by bs.length
decreasing_by simp only [List.length_drop]; omega

/-! ## 3. The tree -/

/-- Bytes of a full chunk. -/
def chunkLen : Nat := 1024

/-- Bytes in the left subtree of an input longer than one chunk: the largest power of two chunks
that leaves at least one byte for the right. -/
def leftLen (len : Nat) : Nat :=
  chunkLen * Nat.pow 2 ((len - 1) / chunkLen).log2

/-- The tree over the input whose first chunk has the given number. -/
def treeNode (counter : Nat) (bs : Bytes) : Node :=
  if _h : bs.length ≤ chunkLen then
    chunkNode (UInt64.ofNat counter) initialValue chunkStart bs
  else
    let left := leftLen bs.length
    let l := (treeNode counter (bs.take left)).value
    let r := (treeNode (counter + left / chunkLen) (bs.drop left)).value
    ⟨initialValue, (l ++ r).cast rfl, 0, 64, parentNode⟩
termination_by bs.length
decreasing_by
  all_goals
    have hq : (bs.length - 1) / chunkLen ≠ 0 :=
      Nat.ne_of_gt (Nat.div_pos (by omega) (by decide))
    have h1 : Nat.pow 2 ((bs.length - 1) / chunkLen).log2 ≤ (bs.length - 1) / chunkLen :=
      Nat.log2_self_le hq
    have h2 : 0 < Nat.pow 2 ((bs.length - 1) / chunkLen).log2 := Nat.two_pow_pos _
    have h3 : chunkLen * ((bs.length - 1) / chunkLen) ≤ bs.length - 1 := Nat.mul_div_le _ _
    have h4 := Nat.mul_le_mul_left chunkLen h1
    have h5 : 0 < chunkLen * Nat.pow 2 ((bs.length - 1) / chunkLen).log2 :=
      Nat.mul_pos (by decide) h2
    simp only [List.length_take, List.length_drop, leftLen]
    omega

/-- The bytes of a word, least significant first. -/
def wordBytes (w : UInt32) : Bytes :=
  [w.toUInt8, (w >>> 8).toUInt8, (w >>> 16).toUInt8, (w >>> 24).toUInt8]

/-- The BLAKE3 hash of a byte string: 32 bytes. -/
def blake3 (bs : Bytes) : Bytes :=
  (treeNode 0 bs).rootValue.toList.flatMap wordBytes

end TextTunnel.Digest
