import TextTunnel.Gzip.Crc32
import TextTunnel.Gzip.Inflate

/-!
# Gzip members

A member is a header, compressed data, and a trailer with the checksum and the length of the output.
Only the first member of a byte string is read.

**Reading is bounded.** `decompress` reads up to a limit and answers with an error as soon as one
byte more has been delivered, whatever comes behind it. What has been *delivered* when reading stops:

* all output, if the data is well-formed, whether or not the trailer agrees with it, and also if the
  data simply ends;
* if the data contradicts the format, only the output windows of 32768 bytes that were full before
  another byte was due.

`delivery` says what is delivered and how reading ends; `decompress` applies the limit to it
afterwards. `decompressByReading` asks for one byte more than the limit and counts what it gets. How
many bytes are asked for is a 64-bit count, so at the largest limit there is no byte more to ask for;
below it the two are the same.
-/

namespace TextTunnel.Gzip

/-! ## 1. Errors -/

/-- Why a byte string is no gzip member. -/
inductive GzipError where
  /-- The first bytes do not announce a member that can be read. -/
  | invalidHeader
  /-- A name or a comment is too long. -/
  | fieldTooLong
  /-- The input ends inside the member. -/
  | unexpectedEnd
  /-- The compressed data contradicts its format. -/
  | corruptData
  /-- A checksum or the length does not agree. -/
  | checksumMismatch
  deriving DecidableEq, Repr

/-- The wording of the error. -/
def GzipError.message : GzipError → String
  | invalidHeader => "invalid gzip header"
  | fieldTooLong => "gzip header field too long"
  | unexpectedEnd => "unexpected end of file"
  | corruptData => "corrupt deflate stream"
  | checksumMismatch => "corrupt gzip stream does not have a matching checksum"

/-- Why a byte string does not decompress to a byte string within the limit. -/
inductive DecompressError where
  /-- The member cannot be read. -/
  | failed (cause : GzipError)
  /-- The output is longer than the limit. -/
  | tooLarge (limit : Nat)
  deriving DecidableEq, Repr

/-- The wording of the error. -/
def DecompressError.message : DecompressError → String
  | failed cause => "decompression failed: " ++ cause.message
  | tooLarge limit => "decompressed payload exceeds " ++ toString limit ++ " bytes"

/-! ## 2. The header -/

/-- Whether a flag of the header is set. -/
def hasFlag (flags : UInt8) (bit : Nat) : Bool :=
  flags.toNat.testBit bit

/-- The longest name or comment. -/
def maxFieldLength : Nat := 65535

/-- What follows a zero-terminated field, of which `seen` bytes have been read. -/
def afterField (seen : Nat) : Bytes → Except GzipError Bytes
  | [] => .error .unexpectedEnd
  | b :: rest =>
    if b = 0 then .ok rest
    else if seen = maxFieldLength then .error .fieldTooLong
    else afterField (seen + 1) rest

/-- What follows the extra field: two bytes with its length, then as many. -/
def afterExtra : Bytes → Except GzipError Bytes
  | l0 :: l1 :: rest =>
    let length := l0.toNat + 256 * l1.toNat
    if length ≤ rest.length then .ok (rest.drop length) else .error .unexpectedEnd
  | _ => .error .unexpectedEnd

/-- What follows the header's own checksum: the low half of the CRC-32 of all before it. -/
def afterHeaderCrc (whole bs : Bytes) : Except GzipError Bytes :=
  match bs with
  | c0 :: c1 :: rest =>
    let crc := (crc32 (whole.take (whole.length - bs.length))).toNat
    if c0.toNat + 256 * c1.toNat = crc % 65536 then .ok rest else .error .checksumMismatch
  | _ => .error .unexpectedEnd

/-- What follows a field that may be there. -/
def afterOption (present : Bool) (afterIt : Bytes → Except GzipError Bytes) (bs : Bytes) :
    Except GzipError Bytes :=
  if present then afterIt bs else .ok bs

/-- The optional fields, in their order: extra field, name, comment, checksum. -/
def afterOptions (whole : Bytes) (flags : UInt8) (bs : Bytes) : Except GzipError Bytes := do
  let bs ← afterOption (hasFlag flags 2) afterExtra bs
  let bs ← afterOption (hasFlag flags 3) (afterField 0) bs
  let bs ← afterOption (hasFlag flags 4) (afterField 0) bs
  afterOption (hasFlag flags 1) (afterHeaderCrc whole) bs

/-- What follows the header. Its first three bytes are fixed and the upper three flags are clear;
time, extra flags and operating system do not matter. -/
def afterHeader (bs : Bytes) : Except GzipError Bytes :=
  match bs with
  | id1 :: id2 :: method :: flags :: _ :: _ :: _ :: _ :: _ :: _ :: rest =>
    if id1 = 0x1F ∧ id2 = 0x8B ∧ method = 8 ∧ flags < 0x20 then afterOptions bs flags rest
    else .error .invalidHeader
  | _ => .error .unexpectedEnd

/-! ## 3. The trailer -/

/-- The trailer of an output: its checksum and its length, four bytes each. -/
def trailer (out : Bytes) : Bytes :=
  Bytes.littleEndian 4 (crc32 out).toNat ++ Bytes.littleEndian 4 out.length

/-- Whether the bytes behind the data start with the trailer of the output. -/
def checkTrailer (out bs : Bytes) : Except GzipError Unit :=
  if bs.length < 8 then .error .unexpectedEnd
  else if bs.take 8 = trailer out then .ok ()
  else .error .checksumMismatch

/-! ## 4. Reading within a limit -/

/-- Output that a reader gets, and how reading ends. -/
structure Delivery where
  output : Bytes
  ending : Except GzipError Unit

/-- Bytes in one window of output. -/
def windowLength : Nat := 32768

/-- The length of the windows that were full before the last byte. -/
def fullWindows (length : Nat) : Nat :=
  (length - 1) / windowLength * windowLength

/-- What the first member of a byte string delivers. -/
def delivery (bs : Bytes) : Delivery :=
  match afterHeader bs with
  | .error e => ⟨[], .error e⟩
  | .ok body =>
    match inflate body with
    | (out, .ok rest) => ⟨out.toList, checkTrailer out.toList rest⟩
    | (out, .error .truncated) => ⟨out.toList, .error .unexpectedEnd⟩
    | (out, .error .corrupt) => ⟨out.toList.take (fullWindows out.size), .error .corruptData⟩

/-- The output of the first member, if it has at most `limit` bytes. -/
def decompress (bs : Bytes) (limit : Nat) : Except DecompressError Bytes :=
  let d := delivery bs
  if limit < d.output.length then .error (.tooLarge limit)
  else
    match d.ending with
    | .ok () => .ok d.output
    | .error e => .error (.failed e)

/-- Reads until there are `room` bytes or there are no more. The ending only shows in the latter
case. -/
def readUpTo (ending : Except GzipError Unit) : Nat → Bytes → Except GzipError Bytes
  | 0, _ => .ok []
  | _ + 1, [] => ending.map fun _ => []
  | room + 1, b :: output => (readUpTo ending room output).map (b :: ·)

/-- The largest number of bytes that can be asked for, which is the largest limit as well. -/
def maxRoom : Nat := UInt64.size - 1

/-- How many bytes are asked for under a limit: one more, if there is such a number. -/
def roomFor (limit : Nat) : Nat := min (limit + 1) maxRoom

/-- Decompression as it is done: reading, and counting what has been read. -/
def decompressByReading (bs : Bytes) (limit : Nat) : Except DecompressError Bytes :=
  match readUpTo (delivery bs).ending (roomFor limit) (delivery bs).output with
  | .error e => .error (.failed e)
  | .ok output => if limit < output.length then .error (.tooLarge limit) else .ok output

end TextTunnel.Gzip
