import TextTunnel.Bytes

/-!
# Bit strings in bytes

Compressed data is a bit string in which each byte holds eight bits, the lowest first. Numbers are
stored lowest bit first, too.

* `BitReader` -- the unread bits: what is left of the byte in hand, and the bytes behind it.
* `packBits` -- bits as bytes, the last one filled up with zeros.
-/

namespace TextTunnel.Gzip

/-! ## 1. Reading -/

/-- Unread bits. -/
structure BitReader where
  /-- The bits left of the byte in hand, the next one first. -/
  pending : List Bool
  /-- The bytes behind it. -/
  rest : Bytes

namespace BitReader

/-- All bits of a byte string. -/
def ofBytes (bs : Bytes) : BitReader := ⟨[], bs⟩

/-- The next bit, unless the input has ended. -/
def next? (r : BitReader) : Option (Bool × BitReader) :=
  match r.pending, r.rest with
  | b :: bs, rest => some (b, ⟨bs, rest⟩)
  | [], b :: rest =>
    some (b.toNat.testBit 0, ⟨[1, 2, 3, 4, 5, 6, 7].map b.toNat.testBit, rest⟩)
  | [], [] => none

/-- A number of `n` bits. -/
def number? : Nat → BitReader → Option (Nat × BitReader)
  | 0, r => some (0, r)
  | n + 1, r => do
    let (b, r) ← r.next?
    let (m, r) ← number? n r
    return (b.toNat + 2 * m, r)

/-- The bytes behind the byte in hand, whose unread bits are skipped. -/
def aligned (r : BitReader) : Bytes := r.rest

end BitReader

/-! ## 2. Writing -/

/-- The lowest `n` bits of a number, lowest first. -/
def numberBits (n value : Nat) : List Bool :=
  (List.range n).map value.testBit

/-- The byte that holds up to eight bits. -/
def byteOfBits (bits : List Bool) : UInt8 :=
  UInt8.ofNat (bits.foldr (fun b n => b.toNat + 2 * n) 0)

/-- Puts bits behind bytes that are full, the latest first. -/
def packFrom (done : Bytes) : List Bool → Bytes
  | a :: b :: c :: d :: e :: f :: g :: h :: rest =>
    packFrom (byteOfBits [a, b, c, d, e, f, g, h] :: done) rest
  | [] => done.reverse
  | bits => (byteOfBits bits :: done).reverse

/-- Bits as bytes. -/
def packBits (bits : List Bool) : Bytes :=
  packFrom [] bits

end TextTunnel.Gzip
