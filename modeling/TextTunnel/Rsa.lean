import TextTunnel.Digest.Fingerprint
import TextTunnel.Wire

/-!
# RSA block encryption

One block of at most 245 bytes is padded to the length of the modulus and raised to the public
exponent. The padded form is `00 02`, at least eight nonzero bytes, `00`, and then the block, so that
the block's length can be told from the padding.

The padding bytes are meant to be random. They are an argument, `Noise`, so that everything that is
said about encryption holds for each choice of them.

* `encryptBlock` -- refuses a key whose modulus does not have 256 bytes, then a block that is too
  long.
* `decryptBlock` -- refuses a block that does not have 256 bytes, then everything that is not the
  encryption of a padded form. It uses keys of any size.
* `Keypair` -- a private key whose modulus has 256 bytes.
-/

namespace TextTunnel.Rsa

/-! ## 1. Keys -/

/-- A public key. -/
structure PublicKey where
  modulus : Nat
  exponent : Nat
  deriving DecidableEq

/-- A private key, with the public key it belongs to. -/
structure PrivateKey where
  publicKey : PublicKey
  secretExponent : Nat
  deriving DecidableEq

/-- Bytes of the modulus. -/
def PublicKey.size (k : PublicKey) : Nat :=
  Bytes.byteLength k.modulus

/-- The fingerprint of a key: modulus and exponent, hashed as big-endian numbers. -/
def PublicKey.fingerprint (k : PublicKey) : String :=
  Digest.fingerprintOfBytes (Bytes.ofNatMinimal k.modulus ++ Bytes.ofNatMinimal k.exponent)

/-- Why a key or a block is refused. -/
inductive CryptoError where
  /-- The block is not the encryption of anything under this key. -/
  | decryption
  /-- The modulus has the wrong length, which is given in bits as a multiple of eight. -/
  | keySize (bits : Nat)
  /-- A block to encrypt is too long. -/
  | blockTooLarge (len : Nat)
  /-- A block to decrypt has the wrong length. -/
  | ciphertextLength (len : Nat)
  deriving DecidableEq, Repr

/-- The wording of the error. -/
def CryptoError.message : CryptoError → String
  | decryption => "RSA error: decryption error"
  | keySize bits =>
    "key modulus is " ++ toString bits ++ " bits, expected " ++ toString Wire.rsaBits
  | blockTooLarge len =>
    "plaintext block of " ++ toString len ++ " bytes exceeds " ++ toString Wire.plaintextChunkLen
  | ciphertextLength len =>
    "ciphertext block is " ++ toString len ++ " bytes, expected " ++ toString Wire.ciphertextChunkLen

/-- Refuses a key whose modulus does not have 256 bytes. -/
def checkKeySize (k : PublicKey) : Except CryptoError Unit :=
  if k.size = Wire.modulusLen then .ok () else .error (.keySize (8 * k.size))

/-! ## 2. Powers -/

/-- A power of `base` modulo `modulus`, by repeated squaring. -/
def powMod (base exponent modulus : Nat) : Nat :=
  if _h : exponent = 0 then 1 % modulus
  else
    let half := powMod (base * base % modulus) (exponent / 2) modulus
    if exponent % 2 = 1 then base * half % modulus else half
termination_by exponent
decreasing_by omega

/-- Squaring repeatedly gives the same as multiplying repeatedly. -/
theorem powMod_eq (base exponent modulus : Nat) :
    powMod base exponent modulus = Nat.pow base exponent % modulus := by
  induction exponent using Nat.strongRecOn generalizing base with
  | _ exponent ih =>
    rw [powMod]
    split
    · next h => simp [h]
    · next h =>
      have hlt : exponent / 2 < exponent := by omega
      have hsq : Nat.pow (base * base % modulus) (exponent / 2) % modulus
          = Nat.pow base (2 * (exponent / 2)) % modulus := by
        simp only [Nat.pow_eq]
        rw [← Nat.pow_mod, ← Nat.pow_two, ← Nat.pow_mul]
      simp only [ih _ hlt, hsq]
      simp only [Nat.pow_eq]
      split
      · next hodd =>
        have : exponent = 2 * (exponent / 2) + 1 := by omega
        conv => rhs; rw [this, Nat.pow_succ, Nat.mul_comm, Nat.mul_mod]
        rw [Nat.mul_mod, Nat.mod_mod]
      · next heven =>
        have : exponent = 2 * (exponent / 2) := by omega
        rw [← this]

/-! ## 3. Padding -/

/-- A byte other than zero. -/
def NonzeroByte := { b : UInt8 // b ≠ 0 }

/-- A supply of padding bytes. -/
def Noise := Nat → NonzeroByte

/-- A supply that starts with the digits of a number in base 255, lowest first, each one up by one.
Different numbers below `255 ^ 8` give different padding for every block. -/
def Noise.numbered (n : Nat) : Noise :=
  fun i => ⟨UInt8.ofNat (n / Nat.pow 255 i % 255 + 1), by
    intro h
    have h1 := congrArg UInt8.toNat h
    have h2 : n / Nat.pow 255 i % 255 < 255 := Nat.mod_lt _ (by decide)
    rw [UInt8.toNat_ofNat_of_lt' (by simp [UInt8.size]; omega)] at h1
    simp at h1⟩

/-- The supply from the given place on. -/
def Noise.drop (noise : Noise) (n : Nat) : Noise :=
  fun i => noise (n + i)

/-- The first bytes of the supply. -/
def Noise.take (noise : Noise) (n : Nat) : Bytes :=
  (List.range n).map fun i => (noise i).val

/-- The fewest padding bytes. -/
def minPadding : Nat := 8

/-- A block in its padded form of `size` bytes. -/
def padBlock (size : Nat) (noise : Noise) (block : Bytes) : Bytes :=
  0 :: 2 :: noise.take (size - 3 - block.length) ++ 0 :: block

/-- The block in a padded form. -/
def unpadBlock? (padded : Bytes) : Option Bytes :=
  match padded with
  | 0 :: 2 :: body =>
    let padding := body.takeWhile (· != 0)
    match body.drop padding.length with
    | 0 :: block => if minPadding ≤ padding.length then some block else none
    | _ => none
  | _ => none

/-! ## 4. Blocks -/

/-- Encrypts one block. -/
def encryptBlock (key : PublicKey) (noise : Noise) (block : Bytes) : Except CryptoError Bytes := do
  checkKeySize key
  if Wire.plaintextChunkLen < block.length then throw (.blockTooLarge block.length)
  let m := Bytes.toNat (padBlock key.size noise block)
  return Bytes.ofNat key.size (powMod m key.exponent key.modulus)

/-- Decrypts one block. -/
def decryptBlock (key : PrivateKey) (block : Bytes) : Except CryptoError Bytes := do
  if block.length ≠ Wire.ciphertextChunkLen then throw (.ciphertextLength block.length)
  let c := Bytes.toNat block
  if key.publicKey.modulus ≤ c then throw .decryption
  let m := powMod c key.secretExponent key.publicKey.modulus
  match unpadBlock? (Bytes.ofNat key.publicKey.size m) with
  | some plain => return plain
  | none => throw .decryption

/-! ## 5. Key pairs -/

/-- A private key for blocks of 256 bytes. -/
structure Keypair where
  privateKey : PrivateKey
  size_eq : privateKey.publicKey.size = Wire.modulusLen

namespace Keypair

/-- A private key as a key pair, unless its modulus has the wrong length. -/
def ofPrivate (k : PrivateKey) : Except CryptoError Keypair :=
  if h : k.publicKey.size = Wire.modulusLen then .ok ⟨k, h⟩
  else .error (.keySize (8 * k.publicKey.size))

/-- The half that others encrypt with. -/
def publicKey (k : Keypair) : PublicKey :=
  k.privateKey.publicKey

/-- The fingerprint of the public half. -/
def fingerprint (k : Keypair) : String :=
  k.publicKey.fingerprint

/-- A key pair as text: its fingerprint, and nothing of the key. -/
def debugText (k : Keypair) : String :=
  "Keypair \x7b fingerprint: \"" ++ k.fingerprint ++ "\", .. \x7d"

end Keypair

end TextTunnel.Rsa
