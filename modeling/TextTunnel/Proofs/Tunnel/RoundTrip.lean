import TextTunnel.Proofs.Envelope.RoundTrip
import TextTunnel.Proofs.Gzip.RoundTrip
import TextTunnel.Proofs.Registry.RoundTrip
import TextTunnel.Proofs.SafeText.RoundTrip
import TextTunnel.Proofs.Tunnel.Steps

/-!
# Payloads come back

Sending frames a packet, compresses the frame, seals it and writes it as text; receiving undoes each
step in the opposite order. Every step has a round trip of its own, and here they are put together.

* `sealPayload_spec` -- sealing succeeds, and the holder of the key gets the compressed frame back.
* `openPayload_encode` -- what receiving makes of a ciphertext with a compressed frame in it.
* `prepare_eq_ok_iff`, `exists_prepare` -- what is handed to the relay, and that short packets are.
* `exists_prepare_of_sendPacket_ok` -- no packet is dropped quietly.
* `openPayload_sealPayload` -- the whole way, with bytes left over behind the ciphertext as well.

Of the sender's compressor it is only used that it loses nothing.
-/

namespace TextTunnel.Tunnel

/-! ## 1. Sealing and opening -/

section RoundTrip

variable {sender receiver : Tunnel} {packet : Packet} {frame compressed : Bytes}
  {pair : Rsa.Keypair}

/-- What it takes to have a payload, and what it consists of. -/
theorem sealPayload_eq_ok_iff {key : Rsa.PublicKey} {noise : Rsa.Noise} {payload : String} :
    sender.sealPayload key noise packet = .ok payload ↔
      ∃ frame compressed cipher, sender.registry.encodeFrame packet = .ok frame ∧
        sender.compressor frame = .ok compressed ∧
        Envelope.sealBytes key noise compressed = .ok cipher ∧
        payload = SafeText.encode cipher := by
  constructor
  · intro h
    rw [sealPayload] at h
    split at h
    · cases h
    · next frame hframe =>
      split at h
      · cases h
      · next compressed hcompress =>
        split at h
        · cases h
        · next cipher hseal =>
          exact ⟨frame, compressed, cipher, hframe, hcompress, hseal, (Except.ok.inj h).symm⟩
  · rintro ⟨frame, compressed, cipher, hframe, hcompress, hseal, rfl⟩
    rw [sealPayload, hframe]
    simp only [hcompress, hseal]

/-- What the sender's side does with a packet that has a frame. -/
theorem sealPayload_spec (hframe : sender.registry.encodeFrame packet = .ok frame)
    (hcompress : sender.compressor frame = .ok compressed) (hvalid : pair.privateKey.Valid)
    (noise : Rsa.Noise) :
    ∃ cipher, sender.sealPayload pair.publicKey noise packet = .ok (SafeText.encode cipher) ∧
      cipher.length = Wire.ciphertextChunkLen * Wire.chunkCount compressed.length ∧
      ∀ extra, extra.length < Wire.ciphertextChunkLen →
        Envelope.openBytes pair.privateKey (cipher ++ extra) = .ok compressed := by
  obtain ⟨cipher, hseal, hlen, hopen⟩ := Envelope.sealBytes_spec hvalid noise compressed
  have hsealed :=
    sealPayload_eq_ok_iff.mpr ⟨frame, compressed, cipher, hframe, hcompress, hseal, rfl⟩
  exact ⟨cipher, hsealed, hlen, hopen⟩

theorem ownPrivateKey_of_own (hown : receiver.keys.own = some pair) :
    receiver.keys.ownPrivateKey = some pair.privateKey := by
  rw [KeyRing.ownPrivateKey, hown]
  rfl

/-- What the receiver's side does with a ciphertext that holds a compressed frame: it gets the
packet if the frame fits the limit, and drops the message for its size if not. -/
theorem openPayload_encode {cipher : Bytes} (hbuilt : receiver.registry.Built)
    (hframe : receiver.registry.encodeFrame packet = .ok frame)
    (hmember : Gzip.IsMember frame compressed) (hown : receiver.keys.own = some pair)
    (hopen : Envelope.openBytes pair.privateKey cipher = .ok compressed) :
    receiver.openPayload (SafeText.encode cipher)
      = if receiver.config.limits.maxDecompressedLen < frame.length then
          .error (.decompress, .notDecompressed (SafeText.encode cipher)
            (Gzip.DecompressError.tooLarge receiver.config.limits.maxDecompressedLen).message)
        else .ok packet := by
  rw [openPayload, SafeText.decode_encode]
  simp only [ownPrivateKey_of_own hown, hopen, hmember.decompress_eq]
  split
  · next h =>
    split at h
    · obtain rfl := Except.error.inj h
      rw [if_pos ‹_›]
    · exact nomatch h
  · next h =>
    split at h
    · exact nomatch h
    · obtain rfl := Except.ok.inj h
      rw [if_neg ‹_›, Registry.decodeFrame_encodeFrame hbuilt hframe]

/-- A payload that was sealed for the receiver opens to the packet if its frame fits the limit. -/
theorem openPayload_of_sealPayload {noise : Rsa.Noise} {payload : String}
    (hlossless : sender.compressor.Lossless) (hbuilt : receiver.registry.Built)
    (hregistry : sender.registry = receiver.registry) (hown : receiver.keys.own = some pair)
    (hvalid : pair.privateKey.Valid)
    (hseal : sender.sealPayload pair.publicKey noise packet = .ok payload)
    (hlimit : ∀ frame, sender.registry.encodeFrame packet = .ok frame →
      frame.length ≤ receiver.config.limits.maxDecompressedLen) :
    receiver.openPayload payload = .ok packet := by
  obtain ⟨frame, -, -, hframe, -⟩ := sealPayload_eq_ok_iff.mp hseal
  obtain ⟨compressed, hcompress, hmember⟩ := hlossless frame
  obtain ⟨cipher, hseal', -, hopen⟩ := sealPayload_spec hframe hcompress hvalid noise
  obtain rfl := Except.ok.inj (hseal.symm.trans hseal')
  have hplain := hopen [] (by decide)
  rw [List.append_nil] at hplain
  rw [openPayload_encode hbuilt (hregistry ▸ hframe) hmember hown hplain,
    if_neg (Nat.not_lt.mpr (hlimit frame hframe))]

/-! ## 2. Relay commands -/

/-- What it takes to have a payload and a relay command for it. -/
theorem prepare_eq_ok_iff {t : Tunnel} {noise : Rsa.Noise} {recipient : Peer}
    {payload text : String} :
    t.prepare noise packet recipient = .ok (payload, text) ↔
      ∃ key, t.keys.publicKeyOf recipient = some key ∧
        t.sealPayload key noise packet = .ok payload ∧ text = t.address recipient payload ∧
        text.length ≤ t.config.relay.maxMessageLen := by
  constructor
  · intro h
    rw [prepare] at h
    split at h
    · cases h
    · next key hkey =>
      split at h
      · cases h
      · next payload' hseal =>
        dsimp only at h
        split at h
        · cases h
        · next hlen =>
          obtain ⟨rfl, rfl⟩ := Prod.mk.inj (Except.ok.inj h)
          exact ⟨key, hkey, hseal, rfl, Nat.not_lt.mp hlen⟩
  · rintro ⟨key, hkey, hseal, rfl, hlen⟩
    rw [prepare, hkey]
    simp only [hseal]
    rw [if_neg (Nat.not_lt.mpr hlen)]

/-- A compressor that loses nothing never fails. -/
theorem sealPayload_ne_abandoned {t : Tunnel} (hlossless : t.compressor.Lossless)
    {key : Rsa.PublicKey} {noise : Rsa.Noise} {reason : String} :
    t.sealPayload key noise packet ≠ .error (.abandoned reason) := by
  intro h
  rw [sealPayload] at h
  split at h
  · cases h
  · next frame hframe =>
    obtain ⟨member, hcompress, -⟩ := hlossless frame
    rw [hcompress] at h
    dsimp only at h
    split at h <;> cases h

theorem prepare_ne_abandoned {t : Tunnel} (hlossless : t.compressor.Lossless) {noise : Rsa.Noise}
    {recipient : Peer} {reason : String} :
    t.prepare noise packet recipient ≠ .error (.abandoned reason) := by
  intro h
  rw [prepare] at h
  split at h
  · cases h
  · split at h
    · next hseal =>
      cases h
      exact sealPayload_ne_abandoned hlossless hseal
    · dsimp only at h
      split at h <;> cases h

/-- So a sending that succeeds has handed something to the relay. -/
theorem exists_prepare_of_sendPacket_ok {σ : Type} {t : Tunnel} {relay : Relay σ}
    {noise : Rsa.Noise} {now : Nat} {recipient : Peer} {s : TunnelState σ}
    (hlossless : t.compressor.Lossless)
    (hok : (t.sendPacket relay noise now packet recipient s).1 = .ok ()) :
    ∃ payload, t.prepare noise packet recipient = .ok (payload, t.address recipient payload) := by
  cases hprepare : t.prepare noise packet recipient with
  | ok p =>
    obtain ⟨payload, text⟩ := p
    obtain ⟨-, -, -, rfl, -⟩ := prepare_eq_ok_iff.mp hprepare
    exact ⟨payload, rfl⟩
  | error setback =>
    cases setback with
    | refused e =>
      rw [sendPacket_of_prepare_refused relay now s hprepare] at hok
      cases hok
    | abandoned reason => exact absurd hprepare (prepare_ne_abandoned hlossless)

theorem length_address (t : Tunnel) (recipient : Peer) (payload : String) :
    (t.address recipient payload).length
      = t.config.relay.whisperCommand.length + recipient.name.length + payload.length + 9 := by
  have hheader : Wire.envelopeHeader.length = 7 := by decide
  have hspace : " ".length = 1 := by decide
  simp only [address, RelayCommand.write, String.length_append, hheader, hspace]
  omega

/-- A packet for a known recipient can be sent if its payload fits a relay message. -/
theorem exists_prepare {t : Tunnel} {recipient : Peer}
    (hkey : t.keys.publicKeyOf recipient = some pair.publicKey) (hvalid : pair.privateKey.Valid)
    (hframe : t.registry.encodeFrame packet = .ok frame)
    (hcompress : t.compressor frame = .ok compressed)
    (hfits : t.config.relay.whisperCommand.length + recipient.name.length
      + SafeText.encodedLen (Wire.ciphertextChunkLen * Wire.chunkCount compressed.length) + 9
        ≤ t.config.relay.maxMessageLen) (noise : Rsa.Noise) :
    ∃ payload, t.prepare noise packet recipient = .ok (payload, t.address recipient payload) := by
  obtain ⟨cipher, hseal, hlen, -⟩ := sealPayload_spec hframe hcompress hvalid noise
  refine ⟨_, prepare_eq_ok_iff.mpr ⟨_, hkey, hseal, rfl, ?_⟩⟩
  rw [length_address, SafeText.length_encode, hlen]
  exact hfits

end RoundTrip

/-! ## 3. Two participants who hold each other's key -/

def ann : Peer := ⟨"ann", ⟨List.replicate 16 1, rfl⟩⟩

def ben : Peer := ⟨"ben", ⟨List.replicate 16 2, rfl⟩⟩

/-- A participant with the usual settings who knows ann and ben, and an observer. -/
def acquainted (self : Peer) : Tunnel where
  config := {}
  self := self
  registry := .standard
  dispatcher := .empty
  keys := ⟨some .pierpont, [ann, ben].map fun p => (p.id, Rsa.Keypair.pierpont.publicKey)⟩
  feedback := .recorder
  observers := [.recorder]

/-- What ann says to ben. -/
def greeting : Packet := ⟨ann, .message "hello"⟩

/-- The frame of the greeting: its type, ann's name and id, and the text. -/
def greetingFrame : Bytes :=
  [0, 3, 97, 110, 110] ++ List.replicate 16 1 ++ [5, 104, 101, 108, 108, 111]

theorem encodeFrame_greeting : Registry.standard.encodeFrame greeting = .ok greetingFrame := by
  decide +kernel

/-- Compressed, it still fits one cipher block. -/
theorem chunkCount_greetingFrame : Wire.chunkCount (Gzip.compress greetingFrame).length = 1 := by
  have hpos := (Gzip.isMember_compress greetingFrame).length_pos
  have hle := Gzip.length_compress_le (show greetingFrame.length ≤ Gzip.maxStored by decide)
  rw [show greetingFrame.length = 27 by decide] at hle
  rw [Wire.chunkCount, Wire.plaintextChunkLen]
  generalize (Gzip.compress greetingFrame).length = len at hpos hle ⊢
  omega

/-- Ann can greet everybody with ben's id whose name is not too long. -/
theorem exists_prepare_greeting_to {recipient : Peer}
    (hkey : (acquainted ann).keys.publicKeyOf recipient = some Rsa.Keypair.pierpont.publicKey)
    (hname : recipient.name.length ≤ 99) (noise : Rsa.Noise) :
    ∃ payload, (acquainted ann).prepare noise greeting recipient
      = .ok (payload, (acquainted ann).address recipient payload) := by
  have hcompress : (acquainted ann).compressor greetingFrame = .ok (Gzip.compress greetingFrame) :=
    rfl
  refine exists_prepare hkey Rsa.Keypair.valid_pierpont encodeFrame_greeting hcompress ?_ noise
  have hcommand : (acquainted ann).config.relay.whisperCommand.length = 1 := by decide
  have hmax : (acquainted ann).config.relay.maxMessageLen = 256 := rfl
  have hlen : SafeText.encodedLen (Wire.ciphertextChunkLen * 1) = 147 := by decide
  rw [chunkCount_greetingFrame, hcommand, hmax, hlen]
  omega

theorem exists_prepare_greeting (noise : Rsa.Noise) :
    ∃ payload, (acquainted ann).prepare noise greeting ben
      = .ok (payload, (acquainted ann).address ben payload) :=
  exists_prepare_greeting_to rfl (by decide) noise

/-! ## 4. The whole way -/

/-- **Payloads come back.**  Whatever table was built, whatever packet it writes, whatever the key,
the padding bytes and the two tunnels are: if the sender's compressor loses nothing, sealing gives a
payload, and the holder of the key opens it to the packet if the frame fits its limit, and drops it
in decompression if not. Up to 255 bytes behind the ciphertext make no difference. -/
theorem openPayload_sealPayload {registry : Registry} (hbuilt : registry.Built) {packet : Packet}
    {frame : Bytes} (hframe : registry.encodeFrame packet = .ok frame) {pair : Rsa.Keypair}
    (hvalid : pair.privateKey.Valid) (noise : Rsa.Noise) (sender receiver : Tunnel)
    (hsender : sender.registry = registry) (hlossless : sender.compressor.Lossless)
    (hreceiver : receiver.registry = registry) (hown : receiver.keys.own = some pair) :
    ∃ cipher, sender.sealPayload pair.publicKey noise packet = .ok (SafeText.encode cipher) ∧
      ∀ extra, extra.length ≤ 255 →
        (frame.length ≤ receiver.config.limits.maxDecompressedLen →
          receiver.openPayload (SafeText.encode (cipher ++ extra)) = .ok packet) ∧
        (receiver.config.limits.maxDecompressedLen < frame.length →
          receiver.openPayload (SafeText.encode (cipher ++ extra))
            = .error (.decompress, .notDecompressed (SafeText.encode (cipher ++ extra))
                (Gzip.DecompressError.tooLarge
                  receiver.config.limits.maxDecompressedLen).message)) := by
  subst hsender
  obtain ⟨compressed, hcompress, hmember⟩ := hlossless frame
  obtain ⟨cipher, hseal, -, hopen⟩ := sealPayload_spec hframe hcompress hvalid noise
  rw [← hreceiver] at hbuilt hframe
  refine ⟨cipher, hseal, fun extra hextra => ?_⟩
  have hextra' : extra.length < Wire.ciphertextChunkLen := Nat.lt_succ_of_le hextra
  rw [openPayload_encode hbuilt hframe hmember hown (hopen extra hextra')]
  refine ⟨fun hle => ?_, fun hlt => ?_⟩
  · rw [if_neg (Nat.not_lt.mpr hle)]
  · rw [if_pos hlt]

/-- The greeting reaches ben with a byte left over, and not with a limit of four bytes. -/
theorem openPayload_sealPayload_greeting :
    (∃ cipher, (acquainted ann).sealPayload Rsa.Keypair.pierpont.publicKey (.numbered 0) greeting
        = .ok (SafeText.encode cipher) ∧
      (acquainted ben).openPayload (SafeText.encode (cipher ++ [7])) = .ok greeting) ∧
    ∃ cipher e, (acquainted ann).sealPayload Rsa.Keypair.pierpont.publicKey (.numbered 0) greeting
        = .ok (SafeText.encode cipher) ∧
      { acquainted ben with config := { limits := ⟨4⟩ } }.openPayload (SafeText.encode cipher)
        = .error (.decompress, e) := by
  constructor
  · obtain ⟨cipher, hseal, hopen⟩ := openPayload_sealPayload Registry.built_standard
      encodeFrame_greeting Rsa.Keypair.valid_pierpont (.numbered 0) (acquainted ann)
      (acquainted ben) rfl Gzip.lossless_inMemory rfl rfl
    exact ⟨cipher, hseal, (hopen [7] (by decide)).1 (by decide)⟩
  · obtain ⟨cipher, hseal, hopen⟩ := openPayload_sealPayload Registry.built_standard
      encodeFrame_greeting Rsa.Keypair.valid_pierpont (.numbered 0) (acquainted ann)
      { acquainted ben with config := { limits := ⟨4⟩ } } rfl Gzip.lossless_inMemory rfl rfl
    have herror := (hopen [] (by decide)).2 (by decide)
    rw [List.append_nil] at herror
    exact ⟨cipher, _, hseal, herror⟩

end TextTunnel.Tunnel
