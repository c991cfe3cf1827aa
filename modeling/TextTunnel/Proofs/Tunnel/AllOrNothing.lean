import TextTunnel.Proofs.Envelope.Pieces
import TextTunnel.Proofs.SafeText.RoundTrip
import TextTunnel.Proofs.Tunnel.Steps

/-!
# Sends are all or nothing

A packet passes through five stages before the relay gets anything: its recipient's key, its frame,
compression, encryption, and the limit for the length of a message. Each can stop it, and the first
one that does decides what the sender is told. Neither the relay nor an observer has seen anything
then.

* `Tunnel.Prepares` -- how far a packet gets, one rule for each end.
* `Relay.noted` -- the relay, and a note for each time that it is called, so that calls can be
  counted.
* `Tunnel.sendPacket_all_or_nothing` -- the relay is called once if the packet passes all stages, and
  otherwise nothing happens at all.

The tunnel's compressor is any whatever, also one that fails.
-/

namespace TextTunnel

variable {σ : Type} {t : Tunnel} {noise : Rsa.Noise} {packet : Packet} {recipient : Peer}

/-! ## 1. How far a packet gets -/

/-- How far a packet gets on its way to the relay. -/
inductive Preparation where
  /-- A stage fails, and the sender is told so. -/
  | refused (e : TunnelError)
  /-- The frame cannot be compressed, and the packet is dropped quietly. -/
  | abandoned (reason : String)
  /-- The command is ready: the compressed frame, encrypted with the key, is these blocks. -/
  | ready (key : Rsa.PublicKey) (compressed : Bytes) (blocks : List Bytes)

namespace Tunnel

/-- What becomes of a packet at the stages before the relay. In every rule all stages but the last
one that it names succeed. -/
inductive Prepares (t : Tunnel) (noise : Rsa.Noise) (packet : Packet) (recipient : Peer) :
    Preparation → Prop
  | noKey (hkey : t.keys.publicKeyOf recipient = none) :
    Prepares t noise packet recipient (.refused (.keyUnavailable recipient))
  | noFrame {key : Rsa.PublicKey} {e : PacketError}
      (hkey : t.keys.publicKeyOf recipient = some key)
      (hframe : t.registry.encodeFrame packet = .error e) :
    Prepares t noise packet recipient (.refused (.ofPacketError e))
  | incompressible {key : Rsa.PublicKey} {frame : Bytes} {reason : String}
      (hkey : t.keys.publicKeyOf recipient = some key)
      (hframe : t.registry.encodeFrame packet = .ok frame)
      (hcompress : t.compressor frame = .error reason) :
    Prepares t noise packet recipient (.abandoned reason)
  | notEncrypted {key : Rsa.PublicKey} {frame compressed : Bytes} {e : Rsa.CryptoError}
      (hkey : t.keys.publicKeyOf recipient = some key)
      (hframe : t.registry.encodeFrame packet = .ok frame)
      (hcompress : t.compressor frame = .ok compressed)
      (hfails : Envelope.FailsFirst key noise compressed e) :
    Prepares t noise packet recipient (.refused (.encryptionFailed e))
  | tooLong {key : Rsa.PublicKey} {frame compressed : Bytes} {blocks : List Bytes}
      (hkey : t.keys.publicKeyOf recipient = some key)
      (hframe : t.registry.encodeFrame packet = .ok frame)
      (hcompress : t.compressor frame = .ok compressed)
      (hblocks : Envelope.Encrypts key noise compressed blocks)
      (hlen : t.config.relay.maxMessageLen
        < (t.address recipient (SafeText.encode blocks.flatten)).length) :
    Prepares t noise packet recipient (.refused (.messageTooLong
      (t.address recipient (SafeText.encode blocks.flatten)).length t.config.relay.maxMessageLen))
  | ready {key : Rsa.PublicKey} {frame compressed : Bytes} {blocks : List Bytes}
      (hkey : t.keys.publicKeyOf recipient = some key)
      (hframe : t.registry.encodeFrame packet = .ok frame)
      (hcompress : t.compressor frame = .ok compressed)
      (hblocks : Envelope.Encrypts key noise compressed blocks)
      (hlen : (t.address recipient (SafeText.encode blocks.flatten)).length
        ≤ t.config.relay.maxMessageLen) :
    Prepares t noise packet recipient (.ready key compressed blocks)

/-- Every packet comes to one of these ends. -/
theorem exists_prepares (t : Tunnel) (noise : Rsa.Noise) (packet : Packet) (recipient : Peer) :
    ∃ p, t.Prepares noise packet recipient p := by
  cases hkey : t.keys.publicKeyOf recipient with
  | none => exact ⟨_, .noKey hkey⟩
  | some key =>
    cases hframe : t.registry.encodeFrame packet with
    | error e => exact ⟨_, .noFrame hkey hframe⟩
    | ok frame =>
      cases hcompress : t.compressor frame with
      | error reason => exact ⟨_, .incompressible hkey hframe hcompress⟩
      | ok compressed =>
        cases hseal : Envelope.sealBytes key noise compressed with
        | error e =>
          exact ⟨_, .notEncrypted hkey hframe hcompress (Envelope.sealBytes_eq_error_iff.mp hseal)⟩
        | ok cipher =>
          obtain ⟨blocks, hblocks, -⟩ := Envelope.sealBytes_eq_ok_iff.mp hseal
          by_cases hlen : t.config.relay.maxMessageLen
              < (t.address recipient (SafeText.encode blocks.flatten)).length
          · exact ⟨_, .tooLong hkey hframe hcompress hblocks hlen⟩
          · exact ⟨_, .ready hkey hframe hcompress hblocks (Nat.not_lt.mp hlen)⟩

/-- And to one only, because no stage can end in two ways. -/
theorem Prepares.unique {p q : Preparation} (hp : t.Prepares noise packet recipient p)
    (hq : t.Prepares noise packet recipient q) : q = p := by
  cases hp <;> cases hq <;>
    grind [Envelope.Encrypts.unique, Envelope.FailsFirst.unique, Envelope.FailsFirst.not_encrypts]

theorem Prepares.encrypts {key : Rsa.PublicKey} {compressed : Bytes} {blocks : List Bytes}
    (h : t.Prepares noise packet recipient (.ready key compressed blocks)) :
    Envelope.Encrypts key noise compressed blocks := by
  cases h with
  | ready _ _ _ hblocks _ => exact hblocks

/-! ## 2. What comes of it -/

theorem prepare_of_refused {e : TunnelError} (h : t.Prepares noise packet recipient (.refused e)) :
    t.prepare noise packet recipient = .error (.refused e) := by
  cases h with
  | noKey hkey => simp only [prepare, hkey]
  | noFrame hkey hframe => simp only [prepare, sealPayload, hkey, hframe]
  | notEncrypted hkey hframe hcompress hfails =>
    simp only [prepare, sealPayload, hkey, hframe, hcompress,
      Envelope.sealBytes_eq_error_iff.mpr hfails]
  | tooLong hkey hframe hcompress hblocks hlen =>
    simp only [prepare, sealPayload, hkey, hframe, hcompress,
      Envelope.sealBytes_eq_ok_iff.mpr ⟨_, hblocks, rfl⟩, if_pos hlen]

theorem prepare_of_abandoned {reason : String}
    (h : t.Prepares noise packet recipient (.abandoned reason)) :
    t.prepare noise packet recipient = .error (.abandoned reason) := by
  cases h with
  | incompressible hkey hframe hcompress =>
    simp only [prepare, sealPayload, hkey, hframe, hcompress]

theorem prepare_of_ready {key : Rsa.PublicKey} {compressed : Bytes} {blocks : List Bytes}
    (h : t.Prepares noise packet recipient (.ready key compressed blocks)) :
    t.prepare noise packet recipient = .ok (SafeText.encode blocks.flatten,
      t.address recipient (SafeText.encode blocks.flatten)) := by
  cases h with
  | ready hkey hframe hcompress hblocks hlen =>
    simp only [prepare, sealPayload, hkey, hframe, hcompress,
      Envelope.sealBytes_eq_ok_iff.mpr ⟨_, hblocks, rfl⟩, if_neg (Nat.not_lt.mpr hlen)]

theorem sendPacket_of_refused {e : TunnelError}
    (h : t.Prepares noise packet recipient (.refused e)) (relay : Relay σ) (now : Nat)
    (s : TunnelState σ) : t.sendPacket relay noise now packet recipient s = (.error e, s) :=
  sendPacket_of_prepare_refused relay now s (prepare_of_refused h)

theorem sendPacket_of_abandoned {reason : String}
    (h : t.Prepares noise packet recipient (.abandoned reason)) (relay : Relay σ) (now : Nat)
    (s : TunnelState σ) :
    t.sendPacket relay noise now packet recipient s
      = (.ok (), s.logged (.compressionFailed packet.kind reason)) :=
  sendPacket_of_prepare_abandoned relay now s (prepare_of_abandoned h)

/-- What is made of the relay's answer. -/
def settle (packet : Packet) (recipient : Peer) (payload text : String) :
    Except RelayError Unit × TunnelState σ → Except TunnelError Unit × TunnelState σ
  | (.error e, s) => (.error (.relay e), { s with echo := s.echo.forget payload })
  | (.ok (), s) => (.ok (), s.logged (.envelopeSent packet.kind recipient payload text.length))

theorem sendPacket_of_ready {key : Rsa.PublicKey} {compressed : Bytes} {blocks : List Bytes}
    (h : t.Prepares noise packet recipient (.ready key compressed blocks))
    (relay : Relay σ) (now : Nat) (s : TunnelState σ) :
    let payload := SafeText.encode blocks.flatten
    let text := t.address recipient payload
    t.sendPacket relay noise now packet recipient s
      = settle packet recipient payload text
          (relay text (t.handedOver now packet recipient payload text s)) := by
  rw [sendPacket_of_prepare_ok relay now s (prepare_of_ready h)]
  rfl

section Settle

variable (payload text : String) (answer : Except RelayError Unit × TunnelState σ)

theorem settle_fst :
    (settle packet recipient payload text answer).1 = answer.1.mapError .relay := by
  obtain ⟨_ | _, s⟩ := answer <;> rfl

theorem world_settle :
    (settle packet recipient payload text answer).2.world = answer.2.world := by
  obtain ⟨_ | _, s⟩ := answer <;> rfl

theorem calls_settle :
    calls (settle packet recipient payload text answer).2.effects = calls answer.2.effects := by
  obtain ⟨_ | _, s⟩ := answer
  · rfl
  · exact (calls_append _ _).trans (List.append_nil _)

end Settle

/-- Apart from the log, handing over means that the observers and then the relay are called. -/
theorem calls_handedOver (t : Tunnel) (now : Nat) (packet : Packet) (recipient : Peer)
    (payload text : String) (s : TunnelState σ) :
    calls (t.handedOver now packet recipient payload text s).effects
      = calls s.effects ++ (t.observers.map fun o => .observed o .outbound recipient packet)
        ++ [.relayed text] := by
  have hevicted : ∀ evicted : List String,
      calls (evicted.map fun p => .log (.echoEvicted p)) = [] := by
    intro evicted
    induction evicted with
    | nil => rfl
    | cons p evicted ih => simpa using ih
  simp [handedOver, remember, notify, TunnelState.emit, hevicted]

end Tunnel

/-! ## 3. Counting calls of the relay -/

/-- The state with another world behind the relay. -/
def TunnelState.withWorld {τ : Type} (s : TunnelState σ) (world : τ) : TunnelState τ :=
  ⟨s.echo, s.effects, world⟩

/-- A call of the relay: the text that it got, and all effects before. -/
structure Handover where
  text : String
  effects : List Effect

/-- The relay, with a note for each time that it is called. -/
def Relay.noted (relay : Relay σ) : Relay (σ × List Handover) := fun text s =>
  let (answer, s') := relay text (s.withWorld s.world.1)
  (answer, s'.withWorld (s'.world, s.world.2 ++ [⟨text, s.effects⟩]))

namespace Tunnel

/-- The notes change nothing else. -/
theorem sendPacket_noted (t : Tunnel) (relay : Relay σ) (noise : Rsa.Noise) (now : Nat)
    (packet : Packet) (recipient : Peer) (s : TunnelState (σ × List Handover)) :
    let noted := t.sendPacket relay.noted noise now packet recipient s
    t.sendPacket relay noise now packet recipient (s.withWorld s.world.1)
      = (noted.1, noted.2.withWorld noted.2.world.1) := by
  obtain ⟨p, hp⟩ := t.exists_prepares noise packet recipient
  cases p with
  | refused e =>
    rw [sendPacket_of_refused hp, sendPacket_of_refused hp]
  | abandoned reason =>
    rw [sendPacket_of_abandoned hp, sendPacket_of_abandoned hp]
    rfl
  | ready key compressed blocks =>
    rw [sendPacket_of_ready hp, sendPacket_of_ready hp]
    generalize SafeText.encode blocks.flatten = payload
    generalize t.address recipient payload = text
    have hseen : t.handedOver now packet recipient payload text (s.withWorld s.world.1)
        = (t.handedOver now packet recipient payload text s).withWorld s.world.1 := rfl
    have hworld : (t.handedOver now packet recipient payload text s).world = s.world := rfl
    rw [hseen]
    generalize t.handedOver now packet recipient payload text s = seen at hworld ⊢
    rw [Relay.noted, hworld]
    obtain ⟨_ | _, s'⟩ := relay text (seen.withWorld s.world.1)
    · rfl
    · rfl

/-! ## 4. All or nothing -/

/-- A packet that is ready is shown to the observers, and then the relay is called, once. -/
theorem exists_seen_of_ready {key : Rsa.PublicKey} {compressed : Bytes} {blocks : List Bytes}
    (h : t.Prepares noise packet recipient (.ready key compressed blocks))
    (relay : Relay σ) (now : Nat) (s : TunnelState (σ × List Handover)) :
    let text := t.address recipient (SafeText.encode blocks.flatten)
    let result := t.sendPacket relay.noted noise now packet recipient s
    ∃ seen : TunnelState σ, seen.world = s.world.1 ∧
      calls seen.effects = calls s.effects
        ++ (t.observers.map fun o => .observed o .outbound recipient packet) ++ [.relayed text] ∧
      result.1 = (relay text seen).1.mapError .relay ∧
      result.2.world = ((relay text seen).2.world, s.world.2 ++ [⟨text, seen.effects⟩]) ∧
      calls result.2.effects = calls (relay text seen).2.effects := by
  intro text result
  have hresult : result = _ := sendPacket_of_ready h relay.noted now s
  have hcalls := t.calls_handedOver now packet recipient (SafeText.encode blocks.flatten) text s
  have hworld : (t.handedOver now packet recipient (SafeText.encode blocks.flatten) text s).world
      = s.world := rfl
  -- What the relay sees is the state that the tunnel hands over, without the notes.
  generalize t.handedOver now packet recipient _ text s = seen at hresult hcalls hworld
  refine ⟨seen.withWorld s.world.1, rfl, hcalls, ?_, ?_, ?_⟩
  · rw [hresult, settle_fst, Relay.noted, hworld]
  · rw [hresult, world_settle, Relay.noted, hworld]
    rfl
  · rw [hresult, calls_settle, Relay.noted, hworld]
    rfl

/-- **Sends are all or nothing.**  Whatever the tunnel, its compressor and its state, the padding
bytes, the packet, the recipient and the relay are, the packet comes to exactly one end.

* If a stage refuses it, the sender gets the error of that stage, the first one that fails, and
  nothing at all has happened.
* If it cannot be compressed, the sender gets no error, and a line in the log is all that happens.
* If it is ready, the relay is called once, with the whisper that brings the recipient the envelope.
  Its payload is text for blocks of 256 bytes, which open to the compressed frame for whoever holds
  the private key.  Before that all observers see the packet, once, and nothing else is called.  The
  relay's answer is the sender's, and nothing is called behind it. -/
theorem sendPacket_all_or_nothing (t : Tunnel) (relay : Relay σ) (noise : Rsa.Noise) (now : Nat)
    (packet : Packet) (recipient : Peer) (s : TunnelState (σ × List Handover)) :
    let result := t.sendPacket relay.noted noise now packet recipient s
    ∃ p, t.Prepares noise packet recipient p ∧
      (∀ q, t.Prepares noise packet recipient q → q = p) ∧
      match p with
      | .refused e => result = (.error e, s)
      | .abandoned reason => result = (.ok (), s.logged (.compressionFailed packet.kind reason))
      | .ready key compressed blocks =>
        let payload := SafeText.encode blocks.flatten
        let text := t.config.relay.whisperCommand ++ " " ++ recipient.name ++ " "
          ++ (Wire.envelopeHeader ++ payload)
        SafeText.decode payload = .ok blocks.flatten ∧
        (∀ block ∈ blocks, block.length = 256) ∧
        (∀ pair : Rsa.Keypair, pair.publicKey = key → pair.privateKey.Valid →
          Envelope.openBytes pair.privateKey blocks.flatten = .ok compressed) ∧
        ∃ seen : TunnelState σ, seen.world = s.world.1 ∧
          calls seen.effects = calls s.effects
            ++ (t.observers.map fun o => .observed o .outbound recipient packet)
            ++ [.relayed text] ∧
          result.1 = (relay text seen).1.mapError .relay ∧
          result.2.world = ((relay text seen).2.world, s.world.2 ++ [⟨text, seen.effects⟩]) ∧
          calls result.2.effects = calls (relay text seen).2.effects := by
  intro result
  obtain ⟨p, hp⟩ := t.exists_prepares noise packet recipient
  refine ⟨p, hp, fun q hq => hp.unique hq, ?_⟩
  cases p with
  | refused e => exact sendPacket_of_refused hp relay.noted now s
  | abandoned reason => exact sendPacket_of_abandoned hp relay.noted now s
  | ready key compressed blocks =>
    have hblocks := hp.encrypts
    exact ⟨SafeText.decode_encode _, hblocks.length_block, fun pair => hblocks.opens,
      exists_seen_of_ready hp relay now s⟩

end Tunnel

end TextTunnel
