import Mathlib.Data.Nat.Size
import TextTunnel.Proofs.Gzip.RoundTrip
import TextTunnel.Proofs.Tunnel.AllOrNothing

/-!
# Which keys are accepted

Keys are meant to have 2048 bits. What is compared is the number of bytes, so that keys of a few
bits less are accepted as well; and a key that is refused is said to have as many bits as its bytes
have. Both are as they are meant to be exactly for those keys whose bits fill whole bytes.

* `PublicKey.bits`, `PublicKey.size_eq` -- the bits of a modulus, and its bytes.
* `PublicKey.Usable`, `PublicKey.refusal` -- the sizes that are accepted, and what all other keys
  are refused with.
* `sealBytes_of_not_usable`, `sendPacket_of_not_usable` -- nothing is sealed or sent with them.
* `key_sizes` -- what comes of a key of any size, and when this is what is meant.
* `shorter_key_accepted` -- a key of 2041 bits.
-/

namespace TextTunnel

/-! ## 1. Bits and bytes -/

/-- As many bytes as the bits need. -/
theorem Bytes.byteLength_eq (n : Nat) : byteLength n = (Nat.size n + 7) / 8 := by
  unfold byteLength
  split
  · next hn =>
    rw [hn]
    rfl
  · next hn =>
    have hle : Nat.size n ≤ n.log2 + 1 := Nat.size_le.mpr Nat.lt_log2_self
    have hlt : n.log2 < Nat.size n := Nat.lt_size.mpr (Nat.log2_self_le hn)
    omega

namespace Rsa

variable {k : PublicKey} {noise : Noise}

/-- Bits of the modulus. -/
def PublicKey.bits (k : PublicKey) : Nat :=
  Nat.size k.modulus

theorem PublicKey.size_eq (k : PublicKey) : k.size = (k.bits + 7) / 8 :=
  Bytes.byteLength_eq k.modulus

/-- The key is accepted: its bits need 256 bytes. -/
def PublicKey.Usable (k : PublicKey) : Prop :=
  2041 ≤ k.bits ∧ k.bits ≤ 2048

theorem PublicKey.usable_iff : k.Usable ↔ k.size = Wire.modulusLen := by
  rw [k.size_eq, Wire.modulusLen, Usable]
  omega

/-- What a key is refused with: the bits of its bytes, and not those of its modulus. -/
def PublicKey.refusal (k : PublicKey) : CryptoError :=
  .keySize (8 * ((k.bits + 7) / 8))

/-! ## 2. What is refused -/

theorem checkKeySize_of_not_usable (h : ¬ k.Usable) : checkKeySize k = .error k.refusal := by
  rw [PublicKey.usable_iff] at h
  rw [checkKeySize, if_neg h, PublicKey.refusal, k.size_eq]

theorem ofPrivate_of_not_usable {k : PrivateKey} (h : ¬ k.publicKey.Usable) :
    Keypair.ofPrivate k = .error k.publicKey.refusal := by
  rw [PublicKey.usable_iff] at h
  rw [Keypair.ofPrivate, dif_neg h, PublicKey.refusal, PublicKey.size_eq]

theorem ofPrivate_of_usable {k : PrivateKey} (h : k.publicKey.Usable) :
    ∃ pair, Keypair.ofPrivate k = .ok pair ∧ pair.privateKey = k := by
  rw [PublicKey.usable_iff] at h
  exact ⟨⟨k, h⟩, dif_pos h, rfl⟩

/-- The key is looked at before the block is. -/
theorem encryptBlock_of_not_usable (h : ¬ k.Usable) (noise : Noise) (block : Bytes) :
    encryptBlock k noise block = .error k.refusal := by
  rw [encryptBlock, checkKeySize_of_not_usable h]
  rfl

end Rsa

open Rsa

/-- The first piece fails already, if there is one. -/
theorem Envelope.sealBytes_of_not_usable {k : PublicKey} (h : ¬ k.Usable) (noise : Noise)
    {plain : Bytes} (hne : plain ≠ []) : sealBytes k noise plain = .error k.refusal := by
  rw [sealBytes, plaintextPieces, Bytes.pieces_of_ne_nil (by decide) hne, sealPieces,
    encryptBlock_of_not_usable h]
  rfl

namespace Tunnel

variable {σ : Type}

/-- Nothing is sent with a key that is not accepted, and nothing changes. -/
theorem sendPacket_of_not_usable {t : Tunnel} (hlossless : t.compressor.Lossless)
    {recipient : Peer} {k : PublicKey} (hkey : t.keys.publicKeyOf recipient = some k)
    (h : ¬ k.Usable) (relay : Relay σ) (noise : Noise) (now : Nat) (packet : Packet)
    (s : TunnelState σ) :
    ∃ e, t.sendPacket relay noise now packet recipient s = (.error e, s) ∧
      ∀ frame, t.registry.encodeFrame packet = .ok frame → e = .encryptionFailed k.refusal := by
  cases hframe : t.registry.encodeFrame packet with
  | error e =>
    refine ⟨_, sendPacket_of_refused (.noFrame hkey hframe) relay now s, ?_⟩
    rintro frame hok
    cases hok
  | ok frame =>
    obtain ⟨compressed, hcompress, hmember⟩ := hlossless frame
    have hne : compressed ≠ [] := List.length_pos_iff.mp hmember.length_pos
    have hfails := Envelope.sealBytes_eq_error_iff.mp
      (Envelope.sealBytes_of_not_usable h noise hne)
    have hprepares : t.Prepares noise packet recipient (.refused _) :=
      .notEncrypted hkey hframe hcompress hfails
    exact ⟨_, sendPacket_of_refused hprepares relay now s, fun _ _ => rfl⟩

/-! ## 3. Keys of any size -/

/-- Whoever tries the key gets the error: it makes no pair, it encrypts no block and seals nothing,
and no packet is sent with it. -/
structure RefusedWith (k : PrivateKey) (e : CryptoError) : Prop where
  pair : Keypair.ofPrivate k = .error e
  block : ∀ noise block, encryptBlock k.publicKey noise block = .error e
  envelope : ∀ noise plain, plain ≠ [] → Envelope.sealBytes k.publicKey noise plain = .error e
  send : ∀ {σ : Type} (t : Tunnel) (relay : Relay σ) noise now packet recipient
    (s : TunnelState σ), t.compressor.Lossless →
    t.keys.publicKeyOf recipient = some k.publicKey →
    ∃ err, t.sendPacket relay noise now packet recipient s = (.error err, s) ∧
      ∀ frame, t.registry.encodeFrame packet = .ok frame → err = .encryptionFailed e

theorem refusedWith_of_not_usable {k : PrivateKey} (h : ¬ k.publicKey.Usable) :
    RefusedWith k k.publicKey.refusal where
  pair := ofPrivate_of_not_usable h
  block := encryptBlock_of_not_usable h
  envelope noise _ hne := Envelope.sealBytes_of_not_usable h noise hne
  send _ relay noise now packet _ s hlossless hkey :=
    sendPacket_of_not_usable hlossless hkey h relay noise now packet s

/-- **What comes of a key, whatever its size.**  With 2041 to 2048 bits it makes a pair and encrypts
everything. With any other number it is refused, with that number rounded up to whole bytes. What is
meant is that all keys of other sizes than 2048 bits are refused, with the bits that they have; this
is so exactly for those whose bits fill whole bytes. -/
theorem key_sizes (k : PrivateKey) :
    (k.publicKey.Usable →
      (∃ pair, Keypair.ofPrivate k = .ok pair ∧ pair.privateKey = k) ∧
      (∀ noise block, block.length ≤ Wire.plaintextChunkLen →
        ∃ cipher, encryptBlock k.publicKey noise block = .ok cipher) ∧
      ∀ noise plain, ∃ cipher, Envelope.sealBytes k.publicKey noise plain = .ok cipher) ∧
    (¬ k.publicKey.Usable → RefusedWith k k.publicKey.refusal) ∧
    ((k.publicKey.bits ≠ Wire.rsaBits → RefusedWith k (.keySize k.publicKey.bits)) ↔
      8 ∣ k.publicKey.bits) := by
  have hbits : Wire.rsaBits = 2048 := rfl
  refine ⟨fun h => ⟨ofPrivate_of_usable h, ?_, ?_⟩, refusedWith_of_not_usable, ?_, ?_⟩
  · intro noise block hlen
    exact ⟨_, encryptBlock_eq_ok (PublicKey.usable_iff.mp h) noise hlen⟩
  · exact Envelope.exists_sealBytes (PublicKey.usable_iff.mp h)
  · intro hmeant
    by_contra hndvd
    have hpair := (hmeant (by omega)).pair
    by_cases h : k.publicKey.Usable
    · obtain ⟨pair, hok, -⟩ := ofPrivate_of_usable h
      exact nomatch hok.symm.trans hpair
    · rw [ofPrivate_of_not_usable h, PublicKey.refusal, Except.error.injEq,
        CryptoError.keySize.injEq] at hpair
      omega
  · intro hdvd hne
    have h : ¬ k.publicKey.Usable := by
      rintro ⟨hlow, hhigh⟩
      omega
    have hrefusal : k.publicKey.refusal = .keySize k.publicKey.bits := by
      rw [PublicKey.refusal]
      congr 1
      omega
    rw [← hrefusal]
    exact refusedWith_of_not_usable h

/-- A prime of 1018 bits. -/
def primeR : Nat := 2 ^ 426 * 3 ^ 373 + 1

theorem prime_primeR : primeR.Prime :=
  prime_of_smoothPow (u := 425) (v := 372) (a := 5) (by decide +kernel) (by decide +kernel)
    (by decide +kernel) (by decide +kernel)

/-- A key of 2041 bits. The secret exponent undoes the other one modulo `2 ^ 426 * 3 ^ 515`, which
is a multiple of both primes less one. -/
def shorterKey : PrivateKey :=
  ⟨⟨primeR * primeP, 65537⟩, (35384 * (2 ^ 426 * 3 ^ 515) + 1) / 65537⟩

theorem valid_shorterKey : shorterKey.Valid :=
  .of_primes prime_primeR prime_primeP (by decide +kernel) rfl (by decide +kernel)
    (by decide +kernel) (by decide +kernel)

/-- **A key of 2041 bits is accepted**, as if it had 2048. -/
theorem shorter_key_accepted :
    shorterKey.Valid ∧ shorterKey.publicKey.bits = 2041 ∧
      (∃ pair, Keypair.ofPrivate shorterKey = .ok pair) ∧
      ∃ cipher, encryptBlock shorterKey.publicKey (.numbered 0) [104, 105] = .ok cipher := by
  have hlow : 2040 < shorterKey.publicKey.bits := Nat.lt_size.mpr (by decide +kernel)
  have hhigh : shorterKey.publicKey.bits ≤ 2041 := Nat.size_le.mpr (by decide +kernel)
  have h : shorterKey.publicKey.Usable := ⟨hlow, hhigh.trans (by decide)⟩
  obtain ⟨pair, hpair, -⟩ := ofPrivate_of_usable h
  exact ⟨valid_shorterKey, Nat.le_antisymm hhigh hlow, ⟨pair, hpair⟩, _,
    encryptBlock_eq_ok (PublicKey.usable_iff.mp h) _ (by decide)⟩

end Tunnel

end TextTunnel
