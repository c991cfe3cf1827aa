import TextTunnel.Envelope
import TextTunnel.Proofs.Rsa.Blocks

/-!
# Envelopes come back

A byte string is cut into pieces, each is sealed as a block of 256 bytes, and the blocks are joined.
Cutting the ciphertext again gives the same blocks, also if up to 255 bytes follow them, so that the
pieces come back in their order.

* `Bytes.pieces_flatten`, `Bytes.flatten_pieces` -- cutting undoes joining, and joining cutting.
* `Bytes.pieces_take`, `Bytes.take_flatten` -- the first pieces, and the first blocks.
* `cipherBlocks_append` -- what is left behind the whole blocks does not matter.
* `sealBytes_spec` -- sealing gives a ciphertext of known length, and opening it the plaintext.
-/

namespace TextTunnel

/-! ## 1. Cutting and joining -/

namespace Bytes

theorem pieces_nil (size : Nat) : pieces size [] = [] := by
  rw [pieces, dif_pos (Or.inr List.length_nil)]

theorem pieces_of_ne_nil {size : Nat} (hsize : 0 < size) {bs : Bytes} (h : bs ≠ []) :
    pieces size bs = bs.take size :: pieces size (bs.drop size) := by
  have hlen : bs.length ≠ 0 := fun h0 => h (List.length_eq_zero_iff.mp h0)
  rw [pieces, dif_neg (by omega)]

theorem flatten_pieces {size : Nat} (hsize : 0 < size) (bs : Bytes) :
    (pieces size bs).flatten = bs := by
  induction bs using pieces.induct size with
  | case1 bs h =>
    have hnil : bs = [] := List.length_eq_zero_iff.mp (by omega)
    rw [hnil, pieces_nil]
    rfl
  | case2 bs h ih =>
    rw [pieces, dif_neg h, List.flatten_cons, ih, List.take_append_drop]

theorem length_le_of_mem_pieces {size : Nat} {bs piece : Bytes} (h : piece ∈ pieces size bs) :
    piece.length ≤ size := by
  induction bs using pieces.induct size with
  | case1 bs h0 =>
    rw [pieces, dif_pos h0] at h
    exact absurd h List.not_mem_nil
  | case2 bs h0 ih =>
    rw [pieces, dif_neg h0, List.mem_cons] at h
    rcases h with rfl | h
    · exact List.length_take_le _ _
    · exact ih h

theorem length_pieces {size : Nat} (hsize : 0 < size) (bs : Bytes) :
    (pieces size bs).length = (bs.length + (size - 1)) / size := by
  induction bs using pieces.induct size with
  | case1 bs h =>
    have hlen : bs.length = 0 := by omega
    rw [pieces, dif_pos h, hlen, List.length_nil, Nat.div_eq_of_lt (by omega)]
  | case2 bs h ih =>
    rw [pieces, dif_neg h, List.length_cons, ih, List.length_drop]
    by_cases hle : bs.length ≤ size
    · have h0 : bs.length - size + (size - 1) < size := by omega
      have h1 : bs.length + (size - 1) = (bs.length - 1) + size := by omega
      rw [Nat.div_eq_of_lt h0, h1, Nat.add_div_right _ hsize, Nat.div_eq_of_lt (by omega)]
    · have h1 : bs.length + (size - 1) = (bs.length - size + (size - 1)) + size := by omega
      rw [h1, Nat.add_div_right _ hsize]

theorem length_flatten {size : Nat} {blocks : List Bytes} (h : ∀ b ∈ blocks, b.length = size) :
    blocks.flatten.length = size * blocks.length := by
  induction blocks with
  | nil => simp
  | cons b blocks ih =>
    have hb := h b (List.mem_cons_self)
    have hrest := ih fun c hc => h c (List.mem_cons_of_mem b hc)
    rw [List.flatten_cons, List.length_append, hb, hrest, List.length_cons, Nat.mul_succ,
      Nat.add_comm]

/-- Blocks of one length are cut as they were joined. -/
theorem pieces_flatten {size : Nat} (hsize : 0 < size) {blocks : List Bytes}
    (h : ∀ b ∈ blocks, b.length = size) : pieces size blocks.flatten = blocks := by
  induction blocks with
  | nil => exact pieces_nil size
  | cons b blocks ih =>
    have hb := h b (List.mem_cons_self)
    have hne : b ++ blocks.flatten ≠ [] := by
      intro h0
      rw [(List.append_eq_nil_iff.mp h0).1, List.length_nil] at hb
      omega
    rw [List.flatten_cons, pieces_of_ne_nil hsize hne, List.take_left' hb, List.drop_left' hb,
      ih fun c hc => h c (List.mem_cons_of_mem b hc)]

/-- The first pieces are those of the first bytes. -/
theorem pieces_take {size : Nat} (hsize : 0 < size) (bs : Bytes) (n : Nat) :
    pieces size (bs.take (size * n)) = (pieces size bs).take n := by
  induction n generalizing bs with
  | zero => rw [Nat.mul_zero, List.take_zero, List.take_zero, pieces_nil]
  | succ n ih =>
    by_cases h : bs = []
    · rw [h, List.take_nil, pieces_nil, List.take_nil]
    · have hne : bs.take (size * (n + 1)) ≠ [] := by
        rw [Ne, List.take_eq_nil_iff]
        simp [h, Nat.ne_of_gt hsize]
      have hle : size ≤ size * (n + 1) := Nat.le_mul_of_pos_right size (Nat.succ_pos n)
      rw [pieces_of_ne_nil hsize hne, pieces_of_ne_nil hsize h, List.take_succ_cons,
        List.take_take, Nat.min_eq_left hle, List.drop_take, Nat.mul_succ, Nat.add_sub_cancel, ih]

/-- The first blocks are the first bytes of all blocks together. -/
theorem take_flatten {size : Nat} {blocks : List Bytes} (h : ∀ b ∈ blocks, b.length = size)
    (n : Nat) : blocks.flatten.take (size * n) = (blocks.take n).flatten := by
  induction blocks generalizing n with
  | nil => rw [List.take_nil, List.flatten_nil, List.take_nil]
  | cons b blocks ih =>
    have hb := h b List.mem_cons_self
    have hrest := ih fun c hc => h c (List.mem_cons_of_mem b hc)
    cases n with
    | zero => rfl
    | succ n =>
      rw [List.flatten_cons, List.take_succ_cons, List.flatten_cons, ← hrest n, Nat.mul_succ,
        Nat.add_comm, ← hb, List.take_length_add_append]

end Bytes

namespace Envelope

open Rsa

/-- Up to 255 bytes behind whole blocks are ignored. -/
theorem cipherBlocks_append {blocks : List Bytes} {extra : Bytes}
    (h : ∀ b ∈ blocks, b.length = Wire.ciphertextChunkLen)
    (hextra : extra.length < Wire.ciphertextChunkLen) :
    cipherBlocks (blocks.flatten ++ extra) = blocks := by
  have hlen := Bytes.length_flatten h
  have hwhole : Wire.wholeChunkLen (blocks.flatten ++ extra).length = blocks.flatten.length := by
    rw [Wire.wholeChunkLen, List.length_append, hlen, Nat.mul_add_mod, Nat.mod_eq_of_lt hextra,
      Nat.add_sub_cancel]
  rw [cipherBlocks, hwhole, List.take_left, Bytes.pieces_flatten (by decide) h]

/-! ## 2. Sealing and opening -/

/-- A row of blocks that a key opens to a row of pieces. -/
structure Seals (key : PrivateKey) (blocks pieces : List Bytes) : Prop where
  length_blocks : blocks.length = pieces.length
  length_block : ∀ b ∈ blocks, b.length = Wire.ciphertextChunkLen
  opens : openBlocks key blocks = .ok pieces.flatten

theorem Seals.cons {key : PrivateKey} {block piece : Bytes} {blocks pieces : List Bytes}
    (hlen : block.length = Wire.ciphertextChunkLen) (hopen : decryptBlock key block = .ok piece)
    (h : Seals key blocks pieces) : Seals key (block :: blocks) (piece :: pieces) where
  length_blocks := congrArg (· + 1) h.length_blocks
  length_block := fun b hb => (List.mem_cons.mp hb).elim (fun hb => hb ▸ hlen) (h.length_block b)
  opens := by
    rw [openBlocks, hopen, ok_bind, h.opens]
    rfl

/-- **Pieces are sealed one by one**, each with padding bytes of its own, and the blocks open to
them. -/
theorem sealPieces_spec {pair : Keypair} (hvalid : pair.privateKey.Valid) (noise : Noise)
    {pieces : List Bytes} (h : ∀ p ∈ pieces, p.length ≤ Wire.plaintextChunkLen) :
    ∃ blocks, sealPieces pair.publicKey noise pieces = .ok blocks.flatten ∧
      Seals pair.privateKey blocks pieces := by
  induction pieces generalizing noise with
  | nil => exact ⟨[], rfl, ⟨rfl, fun b hb => absurd hb List.not_mem_nil, rfl⟩⟩
  | cons piece pieces ih =>
    have hpiece := h piece (List.mem_cons_self)
    obtain ⟨blocks, hblocks, hseals⟩ :=
      ih (noise.drop Wire.modulusLen) fun p hp => h p (List.mem_cons_of_mem piece hp)
    have hblock := encryptBlock_eq_ok pair.size_eq noise hpiece
    refine ⟨_ :: blocks, ?_, hseals.cons (Bytes.length_ofNat _ _)
      (decryptBlock_encryptBlock pair.size_eq hvalid hpiece hblock)⟩
    rw [sealPieces, Keypair.publicKey, hblock, ok_bind]
    rw [Keypair.publicKey] at hblocks
    rw [hblocks]
    rfl

/-- **Envelopes come back.**  Sealing succeeds, one block for each piece, and the ciphertext opens
to the plaintext, also with up to 255 bytes behind it. -/
theorem sealBytes_spec {pair : Keypair} (hvalid : pair.privateKey.Valid) (noise : Noise)
    (plain : Bytes) :
    ∃ cipher, sealBytes pair.publicKey noise plain = .ok cipher ∧
      cipher.length = Wire.ciphertextChunkLen * Wire.chunkCount plain.length ∧
      ∀ extra, extra.length < Wire.ciphertextChunkLen →
        openBytes pair.privateKey (cipher ++ extra) = .ok plain := by
  have hpieces : ∀ p ∈ plaintextPieces plain, p.length ≤ Wire.plaintextChunkLen :=
    fun p hp => Bytes.length_le_of_mem_pieces hp
  obtain ⟨blocks, hseal, hseals⟩ := sealPieces_spec hvalid noise hpieces
  refine ⟨blocks.flatten, hseal, ?_, fun extra hextra => ?_⟩
  · rw [Bytes.length_flatten hseals.length_block, hseals.length_blocks,
      plaintextPieces, Bytes.length_pieces (by decide)]
    rfl
  · rw [openBytes, cipherBlocks_append hseals.length_block hextra, hseals.opens,
      plaintextPieces, Bytes.flatten_pieces (by decide)]

end Envelope

end TextTunnel
