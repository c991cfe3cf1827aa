import Mathlib.Algebra.Order.Floor.Div
import TextTunnel.Proofs.Envelope.Pieces

/-!
# Blocks told by their place

A ciphertext carries no numbers: where a block stands is all that says which piece it is. Each block
is opened for itself, so that any row of blocks of one ciphertext, with some of them missing, given
twice or in another order, opens to the same row of pieces.

* `Bytes.piece` -- what stands at a place, for pieces of one length.
* `decryptions` -- what comes of each whole block of a ciphertext.
* `openBytes_eq_ok_iff`, `openBytes_eq_error_iff` -- opening gives the decryptions of all blocks, or
  the error of the first block that has none.
* `openBytes_selection` -- any blocks of a sealed plaintext open to the pieces at their places.
-/

namespace TextTunnel

/-! ## 1. What stands at a place -/

namespace Bytes

/-- The piece with the given number, counted from zero. -/
def piece (size : Nat) (bs : Bytes) (i : Nat) : Bytes :=
  (bs.drop (size * i)).take size

theorem piece_succ (size : Nat) (bs : Bytes) (i : Nat) :
    piece size bs (i + 1) = piece size (bs.drop size) i := by
  rw [piece, piece, List.drop_drop, Nat.mul_succ, Nat.add_comm]

theorem getElem_pieces (size : Nat) (bs : Bytes) (i : Nat) (h : i < (pieces size bs).length) :
    (pieces size bs)[i] = piece size bs i := by
  induction bs using pieces.induct size generalizing i with
  | case1 bs h0 =>
    rw [pieces, dif_pos h0] at h
    exact absurd h (Nat.not_lt_zero i)
  | case2 bs h0 ih =>
    have hpieces : pieces size bs = bs.take size :: pieces size (bs.drop size) := by
      rw [pieces, dif_neg h0]
    simp only [hpieces] at h ⊢
    cases i with
    | zero => rfl
    | succ i =>
      rw [List.getElem_cons_succ, ih i (Nat.lt_of_succ_lt_succ h), piece_succ]

/-- Blocks of one length stand where their numbers say. -/
theorem piece_flatten {size : Nat} (hsize : 0 < size) {blocks : List Bytes}
    (h : ∀ b ∈ blocks, b.length = size) (i : Nat) (hi : i < blocks.length) :
    piece size blocks.flatten i = blocks[i] := by
  have hpieces := pieces_flatten hsize h
  rw [← getElem_pieces size blocks.flatten i (by rw [hpieces]; exact hi)]
  simp only [hpieces]

end Bytes

namespace Envelope

open Rsa

theorem wholeChunkLen_eq (len : Nat) :
    Wire.wholeChunkLen len = Wire.ciphertextChunkLen * (len / Wire.ciphertextChunkLen) := by
  have := Nat.div_add_mod len Wire.ciphertextChunkLen
  rw [Wire.wholeChunkLen]
  omega

/-- The whole blocks of a ciphertext, one for each 256 bytes. -/
theorem cipherBlocks_eq (cipher : Bytes) :
    cipherBlocks cipher = (List.range (cipher.length / Wire.ciphertextChunkLen)).map
      (Bytes.piece Wire.ciphertextChunkLen cipher) := by
  have hle : cipher.length / Wire.ciphertextChunkLen
      ≤ (Bytes.pieces Wire.ciphertextChunkLen cipher).length := by
    rw [Bytes.length_pieces (by decide)]
    exact Nat.div_le_div_right (Nat.le_add_right _ _)
  rw [cipherBlocks, wholeChunkLen_eq, Bytes.pieces_take (by decide)]
  refine List.ext_getElem (by simpa using hle) fun i _ _ => ?_
  rw [List.getElem_take, Bytes.getElem_pieces, List.getElem_map, List.getElem_range]

/-! ## 2. Each block for itself -/

/-- What comes of each whole block of a ciphertext. -/
def decryptions (key : PrivateKey) (cipher : Bytes) : List (Except CryptoError Bytes) :=
  (List.range (cipher.length / Wire.ciphertextChunkLen)).map fun i =>
    decryptBlock key (Bytes.piece Wire.ciphertextChunkLen cipher i)

theorem openBlocks_eq_joinAll (key : PrivateKey) (blocks : List Bytes) :
    openBlocks key blocks = joinAll (blocks.map (decryptBlock key)) := by
  induction blocks with
  | nil => rfl
  | cons block blocks ih => rw [openBlocks, ih, List.map_cons, joinAll]

theorem openBytes_eq_joinAll (key : PrivateKey) (cipher : Bytes) :
    openBytes key cipher = joinAll (decryptions key cipher) := by
  rw [openBytes, openBlocks_eq_joinAll, cipherBlocks_eq, List.map_map]
  rfl

theorem getElem?_decryptions_eq_some {key : PrivateKey} {cipher : Bytes} {i : Nat}
    {x : Except CryptoError Bytes} :
    (decryptions key cipher)[i]? = some x ↔ i < cipher.length / Wire.ciphertextChunkLen ∧
      decryptBlock key (Bytes.piece Wire.ciphertextChunkLen cipher i) = x := by
  simp only [decryptions, List.getElem?_map, Option.map_eq_some_iff, List.getElem?_eq_some_iff,
    List.getElem_range, List.length_range]
  constructor
  · rintro ⟨_, ⟨hi, rfl⟩, h⟩
    exact ⟨hi, h⟩
  · rintro ⟨hi, h⟩
    exact ⟨i, ⟨hi, rfl⟩, h⟩

/-- Opening gives a plaintext exactly if every whole block has a decryption, and then all of them
in their order. -/
theorem openBytes_eq_ok_iff {key : PrivateKey} {cipher plain : Bytes} :
    openBytes key cipher = .ok plain ↔
      ∃ parts : List Bytes, decryptions key cipher = parts.map .ok ∧ plain = parts.flatten := by
  rw [openBytes_eq_joinAll]
  exact joinAll_eq_ok_iff

/-- Opening fails exactly with the error of the first whole block that has no decryption. -/
theorem openBytes_eq_error_iff {key : PrivateKey} {cipher : Bytes} {e : CryptoError} :
    openBytes key cipher = .error e ↔
      ∃ i < cipher.length / Wire.ciphertextChunkLen,
        decryptBlock key (Bytes.piece Wire.ciphertextChunkLen cipher i) = .error e ∧
        ∀ j < i, ∃ part,
          decryptBlock key (Bytes.piece Wire.ciphertextChunkLen cipher j) = .ok part := by
  rw [openBytes_eq_joinAll, joinAll_eq_error_iff, exists_first_error_iff]
  simp only [getElem?_decryptions_eq_some]
  constructor
  · rintro ⟨i, ⟨hi, he⟩, hbefore⟩
    exact ⟨i, hi, he, fun j hj => (hbefore j hj).imp fun part h => h.2⟩
  · rintro ⟨i, hi, he, hbefore⟩
    exact ⟨i, ⟨hi, he⟩, fun j hj => (hbefore j hj).imp fun part h => ⟨hj.trans hi, h⟩⟩

/-! ## 3. Blocks chosen from a ciphertext -/

/-- Each block of a sealed plaintext opens to the piece at its place. -/
theorem decryptBlock_of_sealBytes {pair : Keypair} (hvalid : pair.privateKey.Valid) {noise : Noise}
    {plain cipher : Bytes} (h : sealBytes pair.publicKey noise plain = .ok cipher) {i : Nat}
    (hi : i < Wire.chunkCount plain.length) :
    (Bytes.piece Wire.ciphertextChunkLen cipher i).length = Wire.ciphertextChunkLen ∧
      decryptBlock pair.privateKey (Bytes.piece Wire.ciphertextChunkLen cipher i)
        = .ok (Bytes.piece Wire.plaintextChunkLen plain i) := by
  obtain ⟨blocks, hblocks, rfl⟩ := sealBytes_eq_ok_iff.mp h
  have hpieces : i < (plaintextPieces plain).length := by
    rw [plaintextPieces, Bytes.length_pieces (by decide)]
    exact hi
  have hlen := hblocks.length_eq.symm
  have hblock : encryptBlock pair.publicKey (noise.drop (Wire.modulusLen * i))
      (Bytes.piece Wire.plaintextChunkLen plain i) = .ok blocks[i] := by
    have hget : (encryptions pair.publicKey noise (plaintextPieces plain))[i]?
        = (blocks.map Except.ok)[i]? := congrArg (·[i]?) hblocks
    rw [encryptions, List.getElem?_mapIdx, List.getElem?_eq_getElem hpieces, List.getElem?_map,
      List.getElem?_eq_getElem (hlen ▸ hpieces)] at hget
    simp only [plaintextPieces, Bytes.getElem_pieces] at hget
    exact Option.some.inj hget
  rw [Bytes.piece_flatten (by decide) hblocks.length_block i (hlen ▸ hpieces)]
  exact ⟨hblocks.length_block _ (List.getElem_mem _),
    decryptBlock_encryptBlock pair.size_eq hvalid (List.length_take_le _ _) hblock⟩

/-- Blocks that are opened each for itself, with up to 255 bytes behind them. -/
theorem openBytes_of_blocks {key : PrivateKey} {block part : Nat → Bytes} {places : List Nat}
    {extra : Bytes} (h : ∀ i ∈ places, (block i).length = Wire.ciphertextChunkLen ∧
      decryptBlock key (block i) = .ok (part i)) (hextra : extra.length < Wire.ciphertextChunkLen) :
    openBytes key (places.flatMap block ++ extra) = .ok (places.flatMap part) := by
  have hlen : ∀ b ∈ places.map block, b.length = Wire.ciphertextChunkLen := by
    intro b hb
    obtain ⟨i, hi, rfl⟩ := List.mem_map.mp hb
    exact (h i hi).1
  rw [openBytes, List.flatMap_def, cipherBlocks_append hlen hextra, openBlocks_eq_joinAll,
    joinAll_eq_ok_iff]
  refine ⟨places.map part, ?_, List.flatMap_def⟩
  rw [List.map_map, List.map_map]
  exact List.map_congr_left fun i hi => (h i hi).2

/-- **Blocks are told by their place, and by nothing else.**  A sealed plaintext has one block for
each piece, and any blocks of it, in any order and any number of times, open to the pieces at their
places. Any other row of bytes opens to what its blocks give, each for itself. -/
theorem openBytes_selection {pair : Keypair} (hvalid : pair.privateKey.Valid) (noise : Noise)
    (plain : Bytes) :
    (∃ cipher, sealBytes pair.publicKey noise plain = .ok cipher ∧
      cipher.length = Wire.ciphertextChunkLen * Wire.chunkCount plain.length ∧
      openBytes pair.privateKey cipher = .ok plain ∧
      ∀ (places : List Nat) (extra : Bytes), (∀ i ∈ places, i < Wire.chunkCount plain.length) →
        extra.length < Wire.ciphertextChunkLen →
          openBytes pair.privateKey
              (places.flatMap (Bytes.piece Wire.ciphertextChunkLen cipher) ++ extra)
            = .ok (places.flatMap (Bytes.piece Wire.plaintextChunkLen plain))) ∧
    -- The pieces are as many as it takes, and no more.
    (∀ len, Wire.chunkCount len = len ⌈/⌉ Wire.plaintextChunkLen) ∧
    -- A ciphertext of any origin opens to the decryptions of its whole blocks ...
    (∀ (key : PrivateKey) (cipher opened : Bytes), openBytes key cipher = .ok opened ↔
      ∃ parts : List Bytes, decryptions key cipher = parts.map .ok ∧ opened = parts.flatten) ∧
    -- ... unless one of them has none, and then the first such block says why.
    ∀ (key : PrivateKey) (cipher : Bytes) (e : CryptoError), openBytes key cipher = .error e ↔
      ∃ i < cipher.length / Wire.ciphertextChunkLen,
        decryptBlock key (Bytes.piece Wire.ciphertextChunkLen cipher i) = .error e ∧
        ∀ j < i, ∃ part,
          decryptBlock key (Bytes.piece Wire.ciphertextChunkLen cipher j) = .ok part := by
  refine ⟨?_, fun len => rfl, fun key cipher opened => openBytes_eq_ok_iff,
    fun key cipher e => openBytes_eq_error_iff⟩
  obtain ⟨cipher, hseal, hlen, hopen⟩ := sealBytes_spec hvalid noise plain
  refine ⟨cipher, hseal, hlen, ?_, fun places extra hplaces hextra => ?_⟩
  · have hwhole := hopen [] (by decide)
    rwa [List.append_nil] at hwhole
  · exact openBytes_of_blocks
      (fun i hi => decryptBlock_of_sealBytes hvalid hseal (hplaces i hi)) hextra

/-- A plaintext of two pieces: its second block, its first, its second again, and three bytes. -/
theorem openBytes_selection_pierpont :
    ∃ cipher, sealBytes Keypair.pierpont.publicKey (.numbered 0) (List.replicate 245 1 ++ [2, 2])
        = .ok cipher ∧
      openBytes Keypair.pierpont.privateKey
          ([1, 0, 1].flatMap (Bytes.piece Wire.ciphertextChunkLen cipher) ++ [7, 8, 9])
        = .ok ([2, 2] ++ List.replicate 245 1 ++ [2, 2]) := by
  obtain ⟨⟨cipher, hseal, -, -, hopen⟩, -, -, -⟩ := openBytes_selection Keypair.valid_pierpont
    (.numbered 0) (List.replicate 245 1 ++ [2, 2])
  have hpieces : [1, 0, 1].flatMap (Bytes.piece Wire.plaintextChunkLen
      (List.replicate 245 1 ++ [2, 2])) = [2, 2] ++ List.replicate 245 1 ++ [2, 2] := by
    decide +kernel
  refine ⟨cipher, hseal, ?_⟩
  rw [← hpieces]
  exact hopen [1, 0, 1] [7, 8, 9] (by decide +kernel) (by decide)

end Envelope

end TextTunnel
