import TextTunnel.Network.Basic
import TextTunnel.Proofs.Relay.Addressees
import TextTunnel.Proofs.Tunnel.AllOrNothing
import TextTunnel.Proofs.Tunnel.RoundTrip

/-!
# How long a relay command is

A tunnel builds a command before it knows whether the relay would take it, and then counts its
characters. The count follows from the length of the compressed frame alone, so it can be planned
for; and as a hub counts in the same way, it never refuses a command for its length that a tunnel
with the same limit, or a lower one, has let pass.

* `Tunnel.SealsTo` -- a packet that gets as far as a ciphertext.
* `Tunnel.SealsTo.length_address` -- the length of its command.
* `Tunnel.sendPacket_limit` -- which packets are refused for their length, and by whom.
-/

namespace TextTunnel

namespace Tunnel

variable {σ : Type} {t : Tunnel} {noise : Rsa.Noise} {packet : Packet} {recipient : Peer}
  {compressed cipher : Bytes}

/-! ## 1. Commands -/

/-- The packet has a frame, which is compressed to the first byte string, and that is encrypted for
the recipient to the second one. -/
def SealsTo (t : Tunnel) (noise : Rsa.Noise) (packet : Packet) (recipient : Peer)
    (compressed cipher : Bytes) : Prop :=
  ∃ key frame, t.keys.publicKeyOf recipient = some key ∧ t.registry.encodeFrame packet = .ok frame ∧
    t.compressor frame = .ok compressed ∧ Envelope.sealBytes key noise compressed = .ok cipher

/-- The command for a compressed frame of `L` bytes has the characters of the whisper command and of
the name, nine for the spaces and the header, and those of a payload for whole blocks. -/
theorem SealsTo.length_address (h : t.SealsTo noise packet recipient compressed cipher) :
    (t.address recipient (SafeText.encode cipher)).length
      = t.config.relay.whisperCommand.length + recipient.name.length + 9
        + SafeText.encodedLen (Wire.ciphertextChunkLen * Wire.chunkCount compressed.length) := by
  obtain ⟨key, frame, -, -, -, hseal⟩ := h
  obtain ⟨blocks, hblocks, rfl⟩ := Envelope.sealBytes_eq_ok_iff.mp hseal
  rw [Tunnel.length_address, SafeText.length_encode, hblocks.length_flatten]
  omega

/-- With a key of 2048 bits, a packet that has a frame gets that far. -/
theorem exists_sealsTo {key : Rsa.PublicKey} {frame : Bytes}
    (hkey : t.keys.publicKeyOf recipient = some key) (hsize : key.size = Wire.modulusLen)
    (hframe : t.registry.encodeFrame packet = .ok frame)
    (hcompress : t.compressor frame = .ok compressed) :
    ∃ cipher, t.SealsTo noise packet recipient compressed cipher := by
  obtain ⟨cipher, hseal⟩ := Envelope.exists_sealBytes hsize noise compressed
  exact ⟨cipher, key, frame, hkey, hframe, hcompress, hseal⟩

/-! ## 2. Who refuses them -/

/-- A command over the limit is not sent ... -/
theorem SealsTo.sendPacket_of_lt (h : t.SealsTo noise packet recipient compressed cipher)
    (hlen : t.config.relay.maxMessageLen < (t.address recipient (SafeText.encode cipher)).length)
    (relay : Relay σ) (now : Nat) (s : TunnelState σ) :
    t.sendPacket relay noise now packet recipient s
      = (.error (.messageTooLong (t.address recipient (SafeText.encode cipher)).length
          t.config.relay.maxMessageLen), s) := by
  obtain ⟨key, frame, hkey, hframe, hcompress, hseal⟩ := h
  obtain ⟨blocks, hblocks, rfl⟩ := Envelope.sealBytes_eq_ok_iff.mp hseal
  exact sendPacket_of_refused (.tooLong hkey hframe hcompress hblocks hlen) relay now s

/-- ... and every other one is passed to the relay. -/
theorem SealsTo.sendPacket_of_le (h : t.SealsTo noise packet recipient compressed cipher)
    (hlen : (t.address recipient (SafeText.encode cipher)).length ≤ t.config.relay.maxMessageLen)
    (relay : Relay σ) (now : Nat) (s : TunnelState (σ × List Handover)) :
    let text := t.address recipient (SafeText.encode cipher)
    let result := t.sendPacket relay.noted noise now packet recipient s
    ∃ seen : TunnelState σ, result.1 = (relay text seen).1.mapError .relay ∧
      result.2.world.2 = s.world.2 ++ [⟨text, seen.effects⟩] := by
  obtain ⟨key, frame, hkey, hframe, hcompress, hseal⟩ := h
  obtain ⟨blocks, hblocks, rfl⟩ := Envelope.sealBytes_eq_ok_iff.mp hseal
  obtain ⟨seen, -, -, hresult, hworld, -⟩ :=
    exists_seen_of_ready (.ready hkey hframe hcompress hblocks hlen) relay now s
  exact ⟨seen, hresult, congrArg Prod.snd hworld⟩

theorem mapError_relay_eq_error {α : Type} {answer : Except RelayError α} {e : TunnelError}
    (h : answer.mapError TunnelError.relay = .error e) :
    ∃ cause, e = .relay cause ∧ answer = .error cause := by
  cases answer with
  | error cause => exact ⟨cause, (Except.error.inj h).symm, rfl⟩
  | ok a => exact nomatch h

/-- What the sender is told comes from a stage before the relay, or from the relay. -/
theorem sendPacket_error_cases {relay : Relay σ} {now : Nat} {s : TunnelState σ}
    {e : TunnelError}
    (h : (t.sendPacket relay noise now packet recipient s).1 = .error e) :
    t.Prepares noise packet recipient (.refused e) ∨
      ∃ text seen cause, text.length ≤ t.config.relay.maxMessageLen ∧ seen.world = s.world ∧
        e = .relay cause ∧ (relay text seen).1 = .error cause := by
  obtain ⟨p, hp⟩ := t.exists_prepares noise packet recipient
  cases p with
  | refused e' =>
    rw [sendPacket_of_refused hp] at h
    obtain rfl := Except.error.inj h
    exact .inl hp
  | abandoned reason =>
    rw [sendPacket_of_abandoned hp] at h
    exact nomatch h
  | ready key compressed blocks =>
    rw [sendPacket_of_ready hp, settle_fst] at h
    obtain ⟨cause, rfl, hanswer⟩ := mapError_relay_eq_error h
    cases hp with
    | ready _ _ _ _ hlen =>
      exact .inr ⟨_, t.handedOver now packet recipient _ _ s, cause, hlen, rfl, rfl, hanswer⟩

/-- The stage that refuses a packet for its length comes behind encryption ... -/
theorem exists_sealsTo_of_refused {len max : Nat}
    (h : t.Prepares noise packet recipient (.refused (.messageTooLong len max))) :
    ∃ compressed cipher, t.SealsTo noise packet recipient compressed cipher := by
  generalize hend : Preparation.refused (.messageTooLong len max) = p at h
  cases h with
  | tooLong hkey hframe hcompress hblocks hlen =>
    exact ⟨_, _, _, _, hkey, hframe, hcompress,
      Envelope.sealBytes_eq_ok_iff.mpr ⟨_, hblocks, rfl⟩⟩
  | @noFrame _ e =>
    have hcause := Preparation.refused.inj hend
    cases e <;> exact nomatch hcause
  | _ => exact nomatch hend

/-- ... and no stage before the relay speaks for it. -/
theorem not_prepares_relay {cause : RelayError} :
    ¬ t.Prepares noise packet recipient (.refused (.relay cause)) := by
  intro h
  generalize hend : Preparation.refused (.relay cause) = p at h
  cases h with
  | @noFrame _ e =>
    have hcause := Preparation.refused.inj hend
    cases e <;> exact nomatch hcause
  | _ => exact nomatch hend

/-- Only a packet that gets as far as a ciphertext is refused for its length. -/
theorem exists_sealsTo_of_messageTooLong {relay : Relay σ} {now : Nat} {s : TunnelState σ}
    {len max : Nat} (h : (t.sendPacket relay noise now packet recipient s).1
      = .error (.messageTooLong len max)) :
    ∃ compressed cipher, t.SealsTo noise packet recipient compressed cipher := by
  rcases sendPacket_error_cases h with hrefused | ⟨_, _, _, _, _, hcause, _⟩
  · exact exists_sealsTo_of_refused hrefused
  · exact nomatch hcause

/-- A hub that takes commands as long as the tunnel sends does not refuse one for its length. -/
theorem sendPacket_ne_tooLong (t : Tunnel) (noise : Rsa.Noise) (packet : Packet)
    (recipient handle : Peer) (now : Nat) {s : TunnelState Backdrop}
    (hlimit : t.config.relay.maxMessageLen ≤ s.world.hub.maxMessageLen) (len max : Nat) :
    (t.sendPacket (Hub.relay handle) noise now packet recipient s).1
      ≠ .error (.relay (.tooLong len max)) := by
  intro h
  rcases sendPacket_error_cases h with
    hrefused | ⟨text, seen, cause, hlen, hworld, hcause, hanswer⟩
  · exact not_prepares_relay hrefused
  · obtain rfl := TunnelError.relay.inj hcause
    have hsend : (s.world.hub.send handle text).1 = .error (.tooLong len max) := hworld ▸ hanswer
    have hover := Hub.length_of_send_tooLong hsend
    omega

/-! ## 3. The limit -/

/-- **The limit is exact.**  Whatever the tunnel, its compressor, the packet and the recipient are,
and in whatever characters the whisper command and the name are written: the length of the command
is known from the length of the compressed frame, and the tunnel refuses the packet for its length
exactly if that is over the limit. Then nothing has happened; otherwise the relay gets this very
command, once. A hub with the same limit, or a higher one, never has to refuse one. -/
theorem sendPacket_limit (t : Tunnel) (noise : Rsa.Noise) (packet : Packet) (recipient : Peer) :
    let limit := t.config.relay.maxMessageLen
    -- With a key of 2048 bits, every compressed frame can be encrypted.
    (∀ key frame compressed, t.keys.publicKeyOf recipient = some key →
      key.size = Wire.modulusLen → t.registry.encodeFrame packet = .ok frame →
      t.compressor frame = .ok compressed →
      ∃ cipher, t.SealsTo noise packet recipient compressed cipher) ∧
    (∀ compressed cipher, t.SealsTo noise packet recipient compressed cipher →
      let text := t.config.relay.whisperCommand ++ " " ++ recipient.name ++ " "
        ++ (Wire.envelopeHeader ++ SafeText.encode cipher)
      text.length = t.config.relay.whisperCommand.length + recipient.name.length + 9
        + SafeText.encodedLen (256 * Wire.chunkCount compressed.length) ∧
      ∀ (relay : Relay σ) (now : Nat) (s : TunnelState (σ × List Handover)),
        let result := t.sendPacket relay.noted noise now packet recipient s
        (∀ len max, result.1 = .error (.messageTooLong len max) ↔
          limit < text.length ∧ len = text.length ∧ max = limit) ∧
        (limit < text.length → result.2 = s) ∧
        (text.length ≤ limit →
          ∃ effects, result.2.world.2 = s.world.2 ++ [⟨text, effects⟩])) ∧
    -- A packet that is not encrypted is not refused for its length.
    (∀ (relay : Relay σ) (now : Nat) (s : TunnelState σ) (len max : Nat),
      (t.sendPacket relay noise now packet recipient s).1
          = .error (.messageTooLong len max) →
        ∃ compressed cipher, t.SealsTo noise packet recipient compressed cipher) ∧
    ∀ (handle : Peer) (now : Nat) (s : TunnelState Backdrop) (len max : Nat),
      limit ≤ s.world.hub.maxMessageLen →
        (t.sendPacket (Hub.relay handle) noise now packet recipient s).1
          ≠ .error (.relay (.tooLong len max)) := by
  intro limit
  refine ⟨fun key frame compressed => exists_sealsTo, fun compressed cipher hseals => ?_,
    fun relay now s len max => exists_sealsTo_of_messageTooLong,
    fun handle now s len max hlimit =>
      t.sendPacket_ne_tooLong noise packet recipient handle now hlimit len max⟩
  intro text
  refine ⟨hseals.length_address, fun relay now s => ?_⟩
  intro result
  by_cases hlen : limit < text.length
  · have hresult : result = (.error (.messageTooLong text.length limit), s) :=
      hseals.sendPacket_of_lt hlen relay.noted now s
    rw [hresult]
    refine ⟨fun len max => ⟨?_, ?_⟩, fun _ => rfl, fun hle => absurd hle (Nat.not_le.mpr hlen)⟩
    · intro herror
      obtain ⟨rfl, rfl⟩ := TunnelError.messageTooLong.inj (Except.error.inj herror)
      exact ⟨hlen, rfl, rfl⟩
    · rintro ⟨-, rfl, rfl⟩
      rfl
  · obtain ⟨seen, hresult, hcalled⟩ :=
      hseals.sendPacket_of_le (Nat.not_lt.mp hlen) relay now s
    refine ⟨fun len max => ⟨fun herror => ?_, fun h => absurd h.1 hlen⟩,
      fun h => absurd h hlen, fun _ => ⟨_, hcalled⟩⟩
    obtain ⟨cause, hcause, -⟩ := mapError_relay_eq_error (hresult.symm.trans herror)
    exact nomatch hcause

/-- The greeting for ben takes 160 characters, so a limit of 159 is too low for it. -/
theorem sendPacket_limit_greeting :
    let strict := { acquainted ann with config := { relay := { maxMessageLen := 159 } } }
    let s : TunnelState (Unit × List Handover) := ⟨strict.newEcho, [], ⟨(), []⟩⟩
    let accepting : Relay Unit := fun _ s => (.ok (), s)
    (strict.sendPacket accepting.noted (.numbered 0) 0 greeting ben s).1
        = .error (.messageTooLong 160 159) ∧
      ∃ text effects, text.length = 160 ∧
        ((acquainted ann).sendPacket accepting.noted (.numbered 0) 0 greeting ben
          s).2.world.2 = [⟨text, effects⟩] := by
  intro strict s accepting
  constructor
  · obtain ⟨hseals, hlimit, -, -⟩ :=
      sendPacket_limit (σ := Unit) strict (.numbered 0) greeting ben
    obtain ⟨cipher, hcipher⟩ := hseals _ _ _ rfl Rsa.Keypair.pierpont.size_eq encodeFrame_greeting
      rfl
    obtain ⟨hlength, hresult⟩ := hlimit _ _ hcipher
    rw [chunkCount_greetingFrame] at hlength
    refine ((hresult accepting 0 s).1 160 159).mpr ?_
    rw [hlength]
    decide
  · obtain ⟨hseals, hlimit, -, -⟩ :=
      sendPacket_limit (σ := Unit) (acquainted ann) (.numbered 0) greeting ben
    obtain ⟨cipher, hcipher⟩ := hseals _ _ _ rfl Rsa.Keypair.pierpont.size_eq encodeFrame_greeting
      rfl
    obtain ⟨hlength, hresult⟩ := hlimit _ _ hcipher
    rw [chunkCount_greetingFrame] at hlength
    obtain ⟨effects, hcalled⟩ := (hresult accepting 0 s).2.2 (by rw [hlength]; decide)
    exact ⟨_, effects, hlength, hcalled⟩

end Tunnel

end TextTunnel
