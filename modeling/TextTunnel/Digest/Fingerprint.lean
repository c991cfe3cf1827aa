import TextTunnel.Digest.Blake3

/-!
# Fingerprints

Payloads and keys are named in logs by the first eight bytes of their hash.
-/

namespace TextTunnel.Digest

/-- The first eight bytes of the hash, as sixteen hexadecimal digits. -/
def fingerprintOfBytes (bs : Bytes) : String :=
  Bytes.toHex ((blake3 bs).take 8)

/-- The fingerprint of a text, hashed as UTF-8. -/
def fingerprint (text : String) : String :=
  fingerprintOfBytes text.toUTF8.toList

end TextTunnel.Digest
