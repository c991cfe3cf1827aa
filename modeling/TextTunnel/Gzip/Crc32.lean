import TextTunnel.Bytes

/-!
# The checksum of gzip

CRC-32 with the reflected polynomial `0xEDB88320`. The register starts with all bits set, each byte
shifts eight bits through it, and the result is its complement.

* `crc32` -- the checksum of a byte string.
-/

namespace TextTunnel.Gzip

/-- One shift of the register. -/
def crcShift (c : UInt32) : UInt32 :=
  if c &&& 1 = 1 then (c >>> 1) ^^^ 0xEDB88320 else c >>> 1

/-- The register after `n` shifts. -/
def crcShifts : Nat → UInt32 → UInt32
  | 0, c => c
  | n + 1, c => crcShifts n (crcShift c)

/-- What eight shifts do to each value of the lowest byte. -/
def crcTable : Vector UInt32 256 :=
  Vector.ofFn fun i => crcShifts 8 (UInt32.ofNat i.val)

/-- The register after one more byte. -/
def crcStep (c : UInt32) (b : UInt8) : UInt32 :=
  crcTable[((c.toUInt8 ^^^ b).toFin : Fin 256)] ^^^ (c >>> 8)

/-- The CRC-32 of a byte string. -/
def crc32 (bs : Bytes) : UInt32 :=
  ~~~ bs.foldl crcStep 0xFFFFFFFF

end TextTunnel.Gzip
