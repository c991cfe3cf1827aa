import TextTunnel.Bytes
import TextTunnel.Text.Quoted

/-!
# Text-safe bytes

Relays carry text and count characters, so bytes are packed into as few harmless characters as
possible. The bytes are read as one bit string, most significant bit first, and cut into groups of
fourteen bits. A group is one *full* character, counted from U+4E00. What is left at the end is
filled up with zero bits: up to seven bits become one *tail* character, counted from U+3400, and
eight or more a last full one.

* `encode` -- the text of a byte string.
* `decode` -- the bytes of a text: full characters, then at most one tail character; the bits
  beyond the last whole byte are dropped.
* `encodedLen` -- how many characters `encode` writes.

Both directions keep the bits that do not yet fill a group in a 32-bit word, `Pending`.
-/

namespace TextTunnel.SafeText

/-! ## 1. The alphabet -/

/-- Bits that a full character carries. -/
def fullBits : Nat := 14

/-- The character of the all-zero group. -/
def fullBase : Nat := 0x4E00

/-- Bits that a tail character carries. -/
def tailBits : Nat := 7

/-- The character of the all-zero tail. -/
def tailBase : Nat := 0x3400

/-- Whether a character is a full one, U+4E00 to U+8DFF. -/
def isFull (c : Char) : Bool :=
  fullBase ≤ c.toNat && c.toNat < fullBase + Nat.pow 2 fullBits

/-- Whether a character is a tail one, U+3400 to U+347F. -/
def isTail (c : Char) : Bool :=
  tailBase ≤ c.toNat && c.toNat < tailBase + Nat.pow 2 tailBits

/-- Why a text is not text-safe bytes. -/
inductive Error where
  /-- A character outside both alphabets, with its place in the text. -/
  | invalidChar (ch : Char) (position : Nat)
  /-- A tail character with more text behind it. -/
  | tailNotLast (position : Nat)
  deriving DecidableEq, Repr

/-- The wording of the error. -/
def Error.message : Error → String
  | invalidChar ch position =>
    "character " ++ Text.quotedChar ch ++ " at position " ++ toString position
      ++ " is outside the text-safe alphabet"
  | tailNotLast position =>
    "tail character at position " ++ toString position ++ " is not the last character"

/-! ## 2. Bits that wait for their group -/

/-- Bits that do not fill a group yet: the lowest `held` bits of `word`. -/
structure Pending where
  word : UInt32
  held : Nat
  deriving DecidableEq, Repr

namespace Pending

/-- Nothing waits. -/
def empty : Pending := ⟨0, 0⟩

/-- Appends the lowest `width` bits of `value`. -/
def push (p : Pending) (width : Nat) (value : UInt32) : Pending :=
  ⟨(p.word <<< UInt32.ofNat width) ||| value, p.held + width⟩

/-- The value of the first `width` bits. -/
def front (p : Pending) (width : Nat) : UInt32 :=
  p.word >>> UInt32.ofNat (p.held - width)

/-- Drops the first `width` bits. -/
def dropFront (p : Pending) (width : Nat) : Pending :=
  let held := p.held - width
  ⟨p.word &&& ((1 <<< UInt32.ofNat held) - 1), held⟩

/-- Fills the waiting bits up to `width` with zeros and reads them as one group. -/
def padded (p : Pending) (width : Nat) : UInt32 :=
  p.word <<< UInt32.ofNat (width - p.held)

end Pending

/-! ## 3. Encoding -/

/-- The full character of a group. -/
def fullChar (group : UInt32) : Char :=
  Char.ofNat (fullBase + group.toNat)

/-- The tail character of a group. -/
def tailChar (group : UInt32) : Char :=
  Char.ofNat (tailBase + group.toNat)

/-- The character that ends a text: none if no bit waits, a tail character for up to seven bits. -/
def lastChar (p : Pending) : List Char :=
  if p.held = 0 then []
  else if p.held ≤ tailBits then [tailChar (p.padded tailBits)]
  else [fullChar (p.padded fullBits)]

/-- Encodes the bytes that follow the waiting bits. -/
def encodeFrom (p : Pending) : Bytes → List Char
  | [] => lastChar p
  | b :: bs =>
    let q := p.push 8 b.toUInt32
    if fullBits ≤ q.held then
      fullChar (q.front fullBits) :: encodeFrom (q.dropFront fullBits) bs
    else
      encodeFrom q bs

/-- The text-safe form of a byte string. -/
def encode (bs : Bytes) : String :=
  String.ofList (encodeFrom Pending.empty bs)

/-- The number of characters in the text of `len` bytes. -/
def encodedLen (len : Nat) : Nat :=
  (8 * len + (fullBits - 1)) / fullBits

/-! ## 4. Decoding -/

/-- The whole bytes at the front of the waiting bits, and the bits that still wait. -/
def wholeBytes (p : Pending) : Bytes × Pending :=
  if _h : 8 ≤ p.held then
    let (bytes, rest) := wholeBytes (p.dropFront 8)
    ((p.front 8).toUInt8 :: bytes, rest)
  else
    ([], p)
termination_by p.held
decreasing_by simp only [Pending.dropFront]; omega

/-- Decodes the characters from `position` on, which follow the waiting bits. -/
def decodeFrom (position : Nat) (p : Pending) : List Char → Except Error Bytes
  | [] => .ok []
  | c :: cs =>
    if isFull c then
      let (bytes, rest) := wholeBytes (p.push fullBits (UInt32.ofNat (c.toNat - fullBase)))
      (bytes ++ ·) <$> decodeFrom (position + 1) rest cs
    else if isTail c then
      if cs.isEmpty then
        .ok (wholeBytes (p.push tailBits (UInt32.ofNat (c.toNat - tailBase)))).1
      else
        .error (.tailNotLast position)
    else
      .error (.invalidChar c position)

/-- The bytes that a text-safe text stands for. -/
def decode (text : String) : Except Error Bytes :=
  decodeFrom 0 Pending.empty text.toList

end TextTunnel.SafeText
