import TextTunnel.Field.Write

/-!
# Reading fields

A reader takes fields off the front of a byte string. It answers with a value or an error and with
the bytes that are left, after an error too: what a failed read had already taken stays taken.

* `Reader.varint` -- at most five bytes. The value is taken modulo 2^32, so the fifth byte's upper
  three value bits do not count.
* `Reader.string` -- the byte count is checked first against four bytes a character, then against
  the bytes that are there; only then the text is read and its characters are counted.
* `Reader.finish` -- nothing may be left.
-/

namespace TextTunnel

/-- Takes a value off the front of a byte string. -/
def Reader (α : Type) := Bytes → Except PacketError α × Bytes

namespace Reader

variable {α β : Type}

/-- Takes nothing. -/
protected def pure (a : α) : Reader α :=
  fun input => (.ok a, input)

/-- Reads on where the first reader stopped, unless it failed. -/
protected def bind (r : Reader α) (f : α → Reader β) : Reader β :=
  fun input =>
    match r input with
    | (.ok a, rest) => f a rest
    | (.error e, rest) => (.error e, rest)

instance : Monad Reader where
  pure := Reader.pure
  bind := Reader.bind

/-- Fails without taking anything. -/
def fail (e : PacketError) : Reader α :=
  fun input => (.error e, input)

/-- Fails because the body does not fit its layout. -/
def malformed (reason : Malformed) : Reader α :=
  fail (.malformed reason)

/-- Succeeds or fails as a result that is there already. -/
def ofExcept : Except PacketError α → Reader α
  | .ok a => pure a
  | .error e => fail e

@[simp] theorem pure_apply (a : α) (input : Bytes) : (pure a : Reader α) input = (.ok a, input) :=
  rfl

@[simp] theorem fail_apply (e : PacketError) (input : Bytes) :
    (fail e : Reader α) input = (.error e, input) :=
  rfl

@[simp] theorem malformed_apply (reason : Malformed) (input : Bytes) :
    (malformed reason : Reader α) input = (.error (.malformed reason), input) :=
  rfl

theorem bind_apply (r : Reader α) (f : α → Reader β) (input : Bytes) :
    (r >>= f) input =
      match r input with
      | (.ok a, rest) => f a rest
      | (.error e, rest) => (.error e, rest) :=
  rfl

/-! ## 1. Bytes and numbers -/

/-- One byte. -/
def byte : Reader UInt8 :=
  fun input =>
    match input with
    | [] => (.error (.malformed .truncated), [])
    | b :: rest => (.ok b, rest)

/-- The next `n` bytes, taken only if there are as many. -/
def bytes (n : Nat) : Reader Bytes :=
  fun input =>
    if n ≤ input.length then (.ok (input.take n), input.drop n)
    else (.error (.malformed .truncated), input)

/-- The most bytes of a varint. -/
def varintMaxBytes : Nat := 5

/-- Reads at most `fuel` more bytes of a varint, the first of them seven bits for `7 * index` up. -/
def varintFrom : Nat → Nat → UInt32 → Reader UInt32
  | 0, _, _ => malformed .varIntTooLong
  | fuel + 1, index, value => do
    let b ← byte
    let value := value ||| ((b &&& 0x7F).toUInt32 <<< UInt32.ofNat (7 * index))
    if b &&& 0x80 = 0 then pure value else varintFrom fuel (index + 1) value

/-- An unsigned 32-bit number. -/
def varint : Reader UInt32 :=
  varintFrom varintMaxBytes 0 0

/-- A signed 32-bit number. -/
def varintSigned : Reader Int32 := do
  let n ← varint
  pure n.toInt32

/-- A truth value. -/
def bool : Reader Bool := do
  let b ← byte
  if b = 0 then pure false
  else if b = 1 then pure true
  else malformed (.invalidBool b)

/-! ## 2. Ids and text -/

/-- An id. -/
def uuid : Reader Uuid :=
  fun input =>
    if h : 16 ≤ input.length then
      (.ok ⟨input.take 16, by simp [h]⟩, input.drop 16)
    else
      (.error (.malformed .truncated), input)

/-- The text whose UTF-8 form is the given bytes. -/
def textOfUtf8? (bs : Bytes) : Option String :=
  String.fromUTF8? (ByteArray.mk bs.toArray)

/-- A text of `len` bytes, taken only if they are there and are UTF-8. -/
def text (len : Nat) : Reader String :=
  fun input =>
    if len ≤ input.length then
      match textOfUtf8? (input.take len) with
      | some s => (.ok s, input.drop len)
      | none => (.error (.malformed .invalidUtf8), input)
    else
      (.error (.malformed .truncated), input)

/-- A string of at most `maxChars` characters. -/
def string (maxChars : Nat) : Reader String := do
  let len ← varint
  if 4 * maxChars < len.toNat then
    malformed (.stringTooLong len.toNat (4 * maxChars))
  else
    let s ← text len.toNat
    if s.length ≤ maxChars then pure s
    else malformed (.stringTooLong s.length maxChars)

/-! ## 3. The end of a body -/

/-- Refuses bytes that are left over. -/
def finish : Reader Unit :=
  fun input =>
    if input.isEmpty then (.ok (), input)
    else (.error (.malformed (.trailingBytes input.length)), input)

/-- Reads a whole byte string: a value, and nothing behind it. -/
def readAll (r : Reader α) (input : Bytes) : Except PacketError α :=
  (do let a ← r; finish; pure a : Reader α) input |>.1

end Reader

end TextTunnel
