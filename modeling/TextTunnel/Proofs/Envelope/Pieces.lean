import TextTunnel.Proofs.Envelope.RoundTrip

/-!
# Sealing, seen from the pieces

Sealing goes through the pieces and stops at the first one that cannot be encrypted. Whether a piece
can be encrypted does not depend on the pieces before it, so the same can be said of all pieces at
once.

* `Encrypts` -- every piece can be encrypted, and these are the blocks.
* `FailsFirst` -- some piece cannot, and this is the error of the first such piece.
* `sealBytes_eq_ok_iff`, `sealBytes_eq_error_iff` -- sealing gives the blocks in the first case, and
  that error in the second.
* `Encrypts.opens_take` -- what a ciphertext opens to that has been cut.
-/

namespace TextTunnel.Envelope

open Rsa

variable {key : PublicKey} {noise : Noise}

/-! ## 1. Each piece for itself -/

/-- What comes of each piece, encrypted with the padding bytes for its place. -/
def encryptions (key : PublicKey) (noise : Noise) (pieces : List Bytes) :
    List (Except CryptoError Bytes) :=
  pieces.mapIdx fun i piece => encryptBlock key (noise.drop (Wire.modulusLen * i)) piece

theorem encryptions_cons (piece : Bytes) (pieces : List Bytes) :
    encryptions key noise (piece :: pieces)
      = encryptBlock key noise piece :: encryptions key (noise.drop Wire.modulusLen) pieces := by
  have hfirst : noise.drop (Wire.modulusLen * 0) = noise := by
    funext i
    rw [Noise.drop, Nat.mul_zero, Nat.zero_add]
  have hrest : ∀ i, noise.drop (Wire.modulusLen * (i + 1))
      = (noise.drop Wire.modulusLen).drop (Wire.modulusLen * i) := by
    intro i
    funext j
    rw [Noise.drop, Noise.drop, Noise.drop, Nat.mul_succ, Nat.add_comm _ Wire.modulusLen,
      Nat.add_assoc]
  rw [encryptions, List.mapIdx_cons, hfirst]
  simp only [hrest]
  rfl

/-- Every piece of the plaintext can be encrypted, and these are the blocks. -/
def Encrypts (key : PublicKey) (noise : Noise) (plain : Bytes) (blocks : List Bytes) : Prop :=
  encryptions key noise (plaintextPieces plain) = blocks.map .ok

/-- Some piece of the plaintext cannot be encrypted, and this is why the first such piece cannot. -/
def FailsFirst (key : PublicKey) (noise : Noise) (plain : Bytes) (e : CryptoError) : Prop :=
  ∃ (blocks : List Bytes) (rest : List (Except CryptoError Bytes)),
    encryptions key noise (plaintextPieces plain) = blocks.map .ok ++ .error e :: rest

/-! ## 2. All pieces one after another -/

theorem sealPieces_eq_joinAll (pieces : List Bytes) :
    sealPieces key noise pieces = joinAll (encryptions key noise pieces) := by
  induction pieces generalizing noise with
  | nil => rfl
  | cons piece pieces ih =>
    rw [sealPieces, encryptions_cons, joinAll, ih]

theorem sealBytes_eq_ok_iff {plain cipher : Bytes} :
    sealBytes key noise plain = .ok cipher ↔
      ∃ blocks, Encrypts key noise plain blocks ∧ cipher = blocks.flatten := by
  rw [sealBytes, sealPieces_eq_joinAll]
  exact joinAll_eq_ok_iff

theorem sealBytes_eq_error_iff {plain : Bytes} {e : CryptoError} :
    sealBytes key noise plain = .error e ↔ FailsFirst key noise plain e := by
  rw [sealBytes, sealPieces_eq_joinAll]
  exact joinAll_eq_error_iff

/-! ## 3. The blocks -/

theorem FailsFirst.unique {plain : Bytes} {e e' : CryptoError} (h : FailsFirst key noise plain e)
    (h' : FailsFirst key noise plain e') : e = e' :=
  Except.error.inj ((sealBytes_eq_error_iff.mpr h).symm.trans (sealBytes_eq_error_iff.mpr h'))

theorem FailsFirst.not_encrypts {plain : Bytes} {e : CryptoError} {blocks : List Bytes}
    (h : FailsFirst key noise plain e) : ¬ Encrypts key noise plain blocks := fun h' =>
  nomatch (sealBytes_eq_error_iff.mpr h).symm.trans (sealBytes_eq_ok_iff.mpr ⟨blocks, h', rfl⟩)

theorem Encrypts.unique {plain : Bytes} {blocks blocks' : List Bytes}
    (h : Encrypts key noise plain blocks) (h' : Encrypts key noise plain blocks') :
    blocks = blocks' :=
  List.map_injective_iff.mpr (fun _ _ => Except.ok.inj) (h.symm.trans h')

theorem Encrypts.length_block {plain : Bytes} {blocks : List Bytes}
    (h : Encrypts key noise plain blocks) :
    ∀ block ∈ blocks, block.length = Wire.ciphertextChunkLen := by
  intro block hblock
  have hmem : Except.ok block ∈ encryptions key noise (plaintextPieces plain) :=
    h ▸ List.mem_map_of_mem hblock
  obtain ⟨i, hi, hblock⟩ := List.mem_mapIdx.mp hmem
  exact length_of_encryptBlock hblock

/-- There is one block for each piece. -/
theorem Encrypts.length_eq {plain : Bytes} {blocks : List Bytes}
    (h : Encrypts key noise plain blocks) : blocks.length = (plaintextPieces plain).length := by
  have hlen := congrArg List.length h
  rw [encryptions, List.length_mapIdx, List.length_map] at hlen
  exact hlen.symm

theorem Encrypts.length_flatten {plain : Bytes} {blocks : List Bytes}
    (h : Encrypts key noise plain blocks) :
    blocks.flatten.length = Wire.ciphertextChunkLen * Wire.chunkCount plain.length := by
  rw [Bytes.length_flatten h.length_block, h.length_eq, plaintextPieces,
    Bytes.length_pieces (by decide)]
  rfl

/-- A key of 2048 bits encrypts everything. -/
theorem exists_sealBytes (hkey : key.size = Wire.modulusLen) (noise : Noise) (plain : Bytes) :
    ∃ cipher, sealBytes key noise plain = .ok cipher := by
  cases hseal : sealBytes key noise plain with
  | ok cipher => exact ⟨cipher, rfl⟩
  | error e =>
    obtain ⟨blocks, rest, hfails⟩ := sealBytes_eq_error_iff.mp hseal
    have hmem : .error e ∈ encryptions key noise (plaintextPieces plain) :=
      hfails ▸ List.mem_append_right _ List.mem_cons_self
    obtain ⟨i, hi, herror⟩ := List.mem_mapIdx.mp hmem
    have hle := Bytes.length_le_of_mem_pieces (List.getElem_mem hi)
    exact nomatch (encryptBlock_eq_ok hkey _ hle).symm.trans herror

/-- The blocks open to the plaintext for whoever holds the private key. -/
theorem Encrypts.opens {plain : Bytes} {blocks : List Bytes} (h : Encrypts key noise plain blocks)
    {pair : Keypair} (hpair : pair.publicKey = key) (hvalid : pair.privateKey.Valid) :
    openBytes pair.privateKey blocks.flatten = .ok plain := by
  subst hpair
  obtain ⟨cipher, hseal, -, hopen⟩ := sealBytes_spec hvalid noise plain
  have hblocks := hseal.symm.trans (sealBytes_eq_ok_iff.mpr ⟨blocks, h, rfl⟩)
  rw [← Except.ok.inj hblocks, ← List.append_nil cipher]
  exact hopen [] (by decide)

/-! ## 4. Ciphertexts that have been cut -/

theorem encryptions_take (pieces : List Bytes) (n : Nat) :
    encryptions key noise (pieces.take n) = (encryptions key noise pieces).take n := by
  induction pieces generalizing noise n with
  | nil =>
    rw [List.take_nil]
    exact List.take_nil.symm
  | cons piece pieces ih =>
    cases n with
    | zero => rfl
    | succ n =>
      rw [List.take_succ_cons, encryptions_cons, encryptions_cons, ih, List.take_succ_cons]

/-- The first blocks are those of the first bytes of the plaintext. -/
theorem Encrypts.take {plain : Bytes} {blocks : List Bytes} (h : Encrypts key noise plain blocks)
    (n : Nat) :
    Encrypts key noise (plain.take (Wire.plaintextChunkLen * n)) (blocks.take n) := by
  rw [Encrypts, plaintextPieces, Bytes.pieces_take (by decide), encryptions_take,
    ← plaintextPieces, show encryptions _ _ _ = _ from h, List.map_take]

/-- What is left behind the whole blocks does not matter. -/
theorem openBytes_append {key : PrivateKey} {blocks : List Bytes} {extra : Bytes}
    (h : ∀ b ∈ blocks, b.length = Wire.ciphertextChunkLen)
    (hextra : extra.length < Wire.ciphertextChunkLen) :
    openBytes key (blocks.flatten ++ extra) = openBytes key blocks.flatten := by
  have hwhole := cipherBlocks_append h
    (show ([] : Bytes).length < Wire.ciphertextChunkLen by decide)
  rw [List.append_nil] at hwhole
  rw [openBytes, openBytes, cipherBlocks_append h hextra, hwhole]

/-- **A ciphertext that has been cut opens to the first pieces**, one for each block that is left
whole. -/
theorem Encrypts.opens_take {plain : Bytes} {blocks : List Bytes}
    (h : Encrypts key noise plain blocks) {pair : Keypair} (hpair : pair.publicKey = key)
    (hvalid : pair.privateKey.Valid) (m : Nat) :
    openBytes pair.privateKey (blocks.flatten.take m)
      = .ok (plain.take (Wire.plaintextChunkLen * (m / Wire.ciphertextChunkLen))) := by
  have hle : Wire.ciphertextChunkLen * (m / Wire.ciphertextChunkLen) ≤ m := Nat.mul_div_le _ _
  have hlt : m <
      Wire.ciphertextChunkLen * (m / Wire.ciphertextChunkLen) + Wire.ciphertextChunkLen :=
    Nat.lt_mul_div_succ m (by decide)
  generalize m / Wire.ciphertextChunkLen = n at hle hlt ⊢
  have hwhole : (blocks.flatten.take m).take (Wire.ciphertextChunkLen * n)
      = (blocks.take n).flatten := by
    rw [List.take_take, Nat.min_eq_left hle, Bytes.take_flatten h.length_block]
  have hextra : ((blocks.flatten.take m).drop (Wire.ciphertextChunkLen * n)).length
      < Wire.ciphertextChunkLen := by
    rw [List.length_drop, List.length_take]
    omega
  rw [← List.take_append_drop (Wire.ciphertextChunkLen * n) (blocks.flatten.take m), hwhole,
    openBytes_append (h.take n).length_block hextra]
  exact (h.take n).opens hpair hvalid

/-- And these are not all: the last piece is lost as soon as one byte is. -/
theorem plaintext_lost {len m : Nat} (h : m < Wire.ciphertextChunkLen * Wire.chunkCount len) :
    Wire.plaintextChunkLen * (m / Wire.ciphertextChunkLen) < len := by
  simp only [Wire.ciphertextChunkLen, Wire.chunkCount, Wire.plaintextChunkLen] at h ⊢
  omega

end TextTunnel.Envelope
