import TextTunnel.Bytes

/-!
# Limits of the wire format

An envelope travels as relay text: a fixed header and a payload of text-safe characters. The
payload is a row of cipher blocks, each the encryption of one piece of the compressed packet. This
module fixes the sizes that both ends have to agree on and the counts that follow from them.

* `Wire.chunkCount` -- how many plaintext pieces a byte string is cut into.
* `Wire.wholeChunkLen` -- how much of a ciphertext consists of whole blocks.
-/

namespace TextTunnel.Wire

/-- The text every envelope starts with. Its fifth letter is a Greek capital epsilon, so ordinary
chat does not start with it by accident. -/
def envelopeHeader : String := "TNL\u0395NC:"

/-- Bytes of an RSA modulus, and so of a cipher block. -/
def modulusLen : Nat := 256

/-- Bytes of a cipher block that the encryption padding takes at least. -/
def paddingLen : Nat := 11

/-- The most plaintext bytes one cipher block holds. -/
def plaintextChunkLen : Nat := 245

/-- Bytes of one cipher block. -/
def ciphertextChunkLen : Nat := 256

/-- The modulus length in bits. -/
def rsaBits : Nat := 8 * modulusLen

/-- The relay's usual limit on one message, in characters. -/
def defaultMaxMessageLen : Nat := 256

/-- The relay's usual command for a message to one recipient. -/
def defaultWhisperCommand : String := "w"

/-- Seconds for which a sent envelope is usually remembered. -/
def defaultEchoWindowSecs : Nat := 30

/-- How many sent envelopes are usually remembered at once. -/
def defaultEchoCapacity : Nat := 64

/-- The usual limit on a decompressed packet, in bytes. -/
def defaultMaxDecompressedLen : Nat := 65536

/-- The longest display name a packet carries, in characters. -/
def maxSenderChars : Nat := 64

/-- The longest chat line a packet carries, in characters. -/
def maxMessageChars : Nat := 256

/-- The longest namespaced identifier a packet carries, in characters. -/
def maxIdChars : Nat := 64

/-- Edge length of the tic-tac-toe board. -/
def ticTacToeSize : Nat := 3

/-- Columns of the connect-four board. -/
def connectFourWidth : Nat := 7

theorem plaintextChunkLen_add_paddingLen : plaintextChunkLen + paddingLen = modulusLen := rfl

/-- How many plaintext pieces `len` bytes are cut into. -/
def chunkCount (len : Nat) : Nat :=
  (len + (plaintextChunkLen - 1)) / plaintextChunkLen

/-- The length of the whole cipher blocks in `len` bytes. -/
def wholeChunkLen (len : Nat) : Nat :=
  len - len % ciphertextChunkLen

end TextTunnel.Wire
