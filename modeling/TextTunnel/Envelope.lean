import TextTunnel.Rsa

/-!
# Sealing and opening

A byte string of any length is cut into pieces of 245 bytes, each is encrypted on its own, and the
256-byte blocks are joined. Their order is the only numbering there is.

* `sealBytes` -- all or nothing: the first piece that fails decides.
* `openBytes` -- bytes behind the last whole block are ignored, since a relay may cut a message.
-/

namespace TextTunnel.Envelope

open Rsa

/-- Encrypts pieces one after another, each with padding bytes of its own. -/
def sealPieces (key : PublicKey) (noise : Noise) : List Bytes → Except CryptoError Bytes
  | [] => .ok []
  | piece :: pieces => do
    let block ← encryptBlock key noise piece
    let blocks ← sealPieces key (noise.drop Wire.modulusLen) pieces
    return block ++ blocks

/-- The pieces of a plaintext. -/
def plaintextPieces (plain : Bytes) : List Bytes :=
  Bytes.pieces Wire.plaintextChunkLen plain

/-- Encrypts a byte string for the holder of a key. -/
def sealBytes (key : PublicKey) (noise : Noise) (plain : Bytes) : Except CryptoError Bytes :=
  sealPieces key noise (plaintextPieces plain)

/-- The whole blocks of a ciphertext. -/
def cipherBlocks (cipher : Bytes) : List Bytes :=
  Bytes.pieces Wire.ciphertextChunkLen (cipher.take (Wire.wholeChunkLen cipher.length))

/-- Decrypts blocks one after another. -/
def openBlocks (key : PrivateKey) : List Bytes → Except CryptoError Bytes
  | [] => .ok []
  | block :: blocks => do
    let plain ← decryptBlock key block
    let rest ← openBlocks key blocks
    return plain ++ rest

/-- Decrypts a row of blocks. -/
def openBytes (key : PrivateKey) (cipher : Bytes) : Except CryptoError Bytes :=
  openBlocks key (cipherBlocks cipher)

end TextTunnel.Envelope
