import TextTunnel.Proofs.Envelope.Pieces
import TextTunnel.Proofs.Tunnel.RoundTrip
import TextTunnel.Proofs.Tunnel.Steps

/-!
# Envelopes that have been cut

A relay that limits the length of a message may deliver only the first characters of it. No layer of
an envelope counts what is missing: the text, the ciphertext and each of its blocks read well as far
as they go. But with the last character some bits of the last block are missing, so the last piece
of the compressed frame is gone, and decompression notices that.

* `Remains`, `remains_of_sealBytes` -- what the layers make of the front of a payload.
* `openPayload_front` -- there is no packet in it.
* `onText_front` -- the recipient drops a cut envelope whole.
-/

namespace TextTunnel.Tunnel

variable {σ : Type}

/-! ## 1. What is left of a payload -/

/-- Only the first `n` characters are left of the payload for a ciphertext. They decode to the first
bytes of the ciphertext, and these open to the first bytes of the compressed frame: so many as fit
the blocks that are left whole. In both cases it is not all of them. -/
structure Remains (pair : Rsa.Keypair) (compressed cipher : Bytes) (n : Nat) : Prop where
  decode : SafeText.decode (SafeText.front n (SafeText.encode cipher))
    = .ok (cipher.take (14 * n / 8))
  decoded_lt : 14 * n / 8 < cipher.length
  opens : Envelope.openBytes pair.privateKey (cipher.take (14 * n / 8))
    = .ok (compressed.take (Wire.plaintextChunkLen * (14 * n / 8 / Wire.ciphertextChunkLen)))
  opened_lt : Wire.plaintextChunkLen * (14 * n / 8 / Wire.ciphertextChunkLen) < compressed.length

section Front

variable {pair : Rsa.Keypair} {noise : Rsa.Noise} {frame compressed cipher : Bytes} {n : Nat}

theorem remains_of_sealBytes (hvalid : pair.privateKey.Valid)
    (hseal : Envelope.sealBytes pair.publicKey noise compressed = .ok cipher)
    (hn : n < (SafeText.encode cipher).length) : Remains pair compressed cipher n := by
  obtain ⟨hdecode, hlt⟩ := SafeText.decode_take cipher hn
  obtain ⟨blocks, hblocks, hcipher⟩ := Envelope.sealBytes_eq_ok_iff.mp hseal
  obtain ⟨cipher', hseal', hlen, -⟩ := Envelope.sealBytes_spec hvalid noise compressed
  obtain rfl := Except.ok.inj (hseal.symm.trans hseal')
  refine ⟨hdecode, hlt, ?_, Envelope.plaintext_lost (hlen ▸ hlt)⟩
  rw [hcipher]
  exact hblocks.opens_take rfl hvalid _

/-- There is no packet in the front of a payload, since what it opens to does not decompress. -/
theorem openPayload_front {receiver : Tunnel} (hown : receiver.keys.own = some pair)
    (hmember : Gzip.IsMember frame compressed) (h : Remains pair compressed cipher n) :
    ∃ e : Gzip.DecompressError,
      receiver.openPayload (SafeText.front n (SafeText.encode cipher))
        = .error (.decompress,
            .notDecompressed (SafeText.front n (SafeText.encode cipher)) e.message) := by
  have hcut : compressed.take (Wire.plaintextChunkLen * (14 * n / 8 / Wire.ciphertextChunkLen))
      ≠ compressed :=
    fun heq => Nat.not_le.mpr h.opened_lt (List.take_eq_self_iff _ |>.mp heq)
  obtain ⟨e, he⟩ := hmember.decompress_front (List.take_prefix _ _) hcut
    receiver.config.limits.maxDecompressedLen
  refine ⟨e, ?_⟩
  rw [openPayload, h.decode]
  simp only [ownPrivateKey_of_own hown, h.opens, he]

end Front

/-! ## 2. What the recipient does with it -/

/-- **An envelope that has been cut is dropped whole.**  Whatever packet has a frame, whatever the
key, the padding bytes and the two tunnels are, if the sender's compressor loses nothing: if any
number of characters is missing at the end of the payload, the holder of the key drops what is left
in decompression. Unless the tunnel takes it for an echo, that is all: no observer and no handler
gets to see anything. -/
theorem onText_front (sender receiver : Tunnel) (hlossless : sender.compressor.Lossless)
    {packet : Packet} {frame : Bytes} (hframe : sender.registry.encodeFrame packet = .ok frame)
    {pair : Rsa.Keypair} (hvalid : pair.privateKey.Valid) (hown : receiver.keys.own = some pair)
    (noise : Rsa.Noise) :
    ∃ compressed cipher, sender.compressor frame = .ok compressed ∧
      sender.sealPayload pair.publicKey noise packet = .ok (SafeText.encode cipher) ∧
      cipher.length = Wire.ciphertextChunkLen * Wire.chunkCount compressed.length ∧
      ∀ n < (SafeText.encode cipher).length,
        Remains pair compressed cipher n ∧
        ∃ e : Gzip.DecompressError, ∀ (now : Nat) (author : Peer) (s : TunnelState σ),
          let cut := SafeText.front n (SafeText.encode cipher)
          (author = receiver.self → (s.echo.take now cut).1 = false) →
          receiver.onText now (Wire.envelopeHeader ++ cut) author s
            = (.dropped .decompress,
                ({ s with echo := receiver.echoAfter now cut author s.echo }).logged
                  (.notDecompressed cut e.message)) := by
  obtain ⟨compressed, hcompress, hmember⟩ := hlossless frame
  obtain ⟨cipher, hseal, hlen, -⟩ := Envelope.sealBytes_spec hvalid noise compressed
  have hsealed :=
    sealPayload_eq_ok_iff.mpr ⟨frame, compressed, cipher, hframe, hcompress, hseal, rfl⟩
  refine ⟨compressed, cipher, hcompress, hsealed, hlen, fun n hn => ?_⟩
  have hremains := remains_of_sealBytes hvalid hseal hn
  obtain ⟨e, hopen⟩ := openPayload_front hown hmember hremains
  exact ⟨hremains, e, fun now author s hnew => onText_dropped hopen hnew⟩

/-- The greeting takes 147 characters, and ben drops it if the last one is missing. -/
theorem onText_front_greeting :
    ∃ cipher, (acquainted ann).sealPayload Rsa.Keypair.pierpont.publicKey (.numbered 0) greeting
        = .ok (SafeText.encode cipher) ∧ (SafeText.encode cipher).length = 147 ∧
      ((acquainted ben).onText 0
          (Wire.envelopeHeader ++ SafeText.front 146 (SafeText.encode cipher)) ann
          (⟨(acquainted ben).newEcho, [], ()⟩ : TunnelState Unit)).1 = .dropped .decompress := by
  obtain ⟨_, cipher, hcompress, hseal, hlen, hfront⟩ := onText_front (σ := Unit) (acquainted ann)
    (acquainted ben) Gzip.lossless_inMemory encodeFrame_greeting Rsa.Keypair.valid_pierpont rfl
    (.numbered 0)
  obtain rfl := Except.ok.inj hcompress
  have hchars : (SafeText.encode cipher).length = 147 := by
    rw [SafeText.length_encode, hlen, chunkCount_greetingFrame]
    rfl
  obtain ⟨-, e, hdrop⟩ := hfront 146 (by omega)
  refine ⟨cipher, hseal, hchars, ?_⟩
  rw [hdrop 0 ann _ fun hself => absurd hself (by decide)]

end TextTunnel.Tunnel
