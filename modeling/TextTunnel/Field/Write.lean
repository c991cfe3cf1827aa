import TextTunnel.Packet.Error

/-!
# Writing fields

The fields of a packet body are written one after another, each in a form that shows where it ends.

* `varint` -- a 32-bit number, seven bits a byte, lowest first; every byte but the last has its high
  bit set. A signed number is written as the unsigned one with the same bits.
* `string` -- the number of bytes as a varint, then UTF-8; a string over its limit in characters is
  refused.
* `bool`, `uuid`, and single bytes.
-/

namespace TextTunnel.Field

/-- A number in groups of seven bits, lowest first. -/
def varintOfNat (n : Nat) : Bytes :=
  if _h : n < 128 then [UInt8.ofNat n]
  else UInt8.ofNat (128 + n % 128) :: varintOfNat (n / 128)
termination_by n
decreasing_by omega

/-- An unsigned 32-bit number. -/
def varint (n : UInt32) : Bytes :=
  varintOfNat n.toNat

/-- A signed 32-bit number. -/
def varintSigned (n : Int32) : Bytes :=
  varint n.toUInt32

/-- A truth value: one byte, zero or one. -/
def bool (b : Bool) : Bytes :=
  [if b then 1 else 0]

/-- An id: its sixteen bytes. -/
def uuid (u : Uuid) : Bytes :=
  u.bytes

/-- The UTF-8 bytes of a text. -/
def utf8 (s : String) : Bytes :=
  s.toUTF8.toList

/-- A string of at most `maxChars` characters. -/
def string (maxChars : Nat) (s : String) : Except PacketError Bytes :=
  if s.length ≤ maxChars then
    .ok (varint (UInt32.ofNat (utf8 s).length) ++ utf8 s)
  else
    .error (.malformed (.stringTooLong s.length maxChars))

/-- Puts a string behind what has been written. -/
def putString (maxChars : Nat) (s : String) (written : Bytes) : Except PacketError Bytes := do
  let bs ← string maxChars s
  return written ++ bs

end TextTunnel.Field
