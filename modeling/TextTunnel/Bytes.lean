import TextTunnel.Text.Digits

/-!
# Byte strings

A byte string is a list of bytes, so that a decoder's unread input is simply the list that is left.
This module holds what every format above shares: hexadecimal text and the big-endian reading of a
byte string as a number.

* `Bytes.toHex`, `Bytes.ofHex?` -- two lowercase digits a byte; reading takes either case.
* `Bytes.toNat`, `Bytes.ofNat` -- the number a byte string denotes, most significant byte first.
-/

namespace TextTunnel

/-- A string of bytes. -/
abbrev Bytes := List UInt8

namespace Bytes

/-! ## 1. Hexadecimal text -/

/-- The two lowercase digits of one byte. -/
def hexOfByte (b : UInt8) : List Char :=
  [Nat.digitChar (b.toNat / 16), Nat.digitChar (b.toNat % 16)]

/-- The digits of a byte string, two for each byte. -/
def hexChars (bs : Bytes) : List Char :=
  bs.flatMap hexOfByte

/-- A byte string as hexadecimal text. -/
def toHex (bs : Bytes) : String :=
  String.ofList (hexChars bs)

/-- Reads pairs of hexadecimal digits behind bytes that have been read, the latest first. -/
def ofHexFrom? (done : Bytes) : List Char → Option Bytes
  | [] => some done.reverse
  | [_] => none
  | hi :: lo :: rest =>
    match Text.hexValue? hi, Text.hexValue? lo with
    | some h, some l => ofHexFrom? (UInt8.ofNat (16 * h + l) :: done) rest
    | _, _ => none

/-- Reads pairs of hexadecimal digits; a foreign character or an odd digit is refused. -/
def ofHexChars? (cs : List Char) : Option Bytes :=
  ofHexFrom? [] cs

/-- Reads hexadecimal text. -/
def ofHex? (s : String) : Option Bytes :=
  ofHexChars? s.toList

theorem length_hexChars (bs : Bytes) : (hexChars bs).length = 2 * bs.length := by
  induction bs with
  | nil => rfl
  | cons b bs ih =>
    simp only [hexChars, List.flatMap_cons, List.length_append, List.length_cons] at ih ⊢
    simp only [hexOfByte, List.length_cons, List.length_nil]
    omega

/-! ## 2. Numbers, most significant byte first -/

/-- The number that a byte string denotes. -/
def toNat (bs : Bytes) : Nat :=
  bs.foldl (fun n b => 256 * n + b.toNat) 0

/-- The lowest `len` bytes of a number, least significant first. -/
def littleEndian : Nat → Nat → Bytes
  | 0, _ => []
  | len + 1, n => UInt8.ofNat n :: littleEndian len (n / 256)

/-- The lowest `len` bytes of a number, most significant first. -/
def ofNat (len n : Nat) : Bytes :=
  (littleEndian len n).reverse

/-- The number of bytes that a number needs: none for zero. -/
def byteLength (n : Nat) : Nat :=
  if n = 0 then 0 else n.log2 / 8 + 1

/-- A number in the fewest bytes, most significant first; zero is one zero byte. -/
def ofNatMinimal (n : Nat) : Bytes :=
  ofNat (max 1 (byteLength n)) n

@[simp] theorem length_littleEndian (len n : Nat) : (littleEndian len n).length = len := by
  induction len generalizing n with
  | zero => rfl
  | succ len ih => simp [littleEndian, ih]

@[simp] theorem length_ofNat (len n : Nat) : (ofNat len n).length = len := by
  simp [ofNat]

/-! ## 3. Cutting into pieces -/

/-- Cuts a byte string into pieces of `size` bytes, the last one possibly shorter. -/
def pieces (size : Nat) (bs : Bytes) : List Bytes :=
  if _h : size = 0 ∨ bs.length = 0 then []
  else bs.take size :: pieces size (bs.drop size)
termination_by bs.length
decreasing_by simp only [List.length_drop]; omega

end Bytes

end TextTunnel
