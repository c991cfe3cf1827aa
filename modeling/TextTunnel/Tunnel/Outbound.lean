import TextTunnel.Envelope
import TextTunnel.Relay.Command
import TextTunnel.SafeText
import TextTunnel.Tunnel.Basic

/-!
# Sending

A packet is framed, compressed, cut into pieces that are encrypted one by one, and written as text.
Behind the header, and with the recipient's name in front, that is one relay command.

* `Tunnel.sealPayload` -- the payload of a packet.
* `Tunnel.prepare` -- with the relay command around it.
* `Tunnel.sendPacket` -- hands the command to the relay. Every step must succeed before the next one
  is taken, so the relay sees a packet only if all of it could be built and fits the limit. A packet
  that cannot be compressed is dropped quietly.

The payload is remembered before the relay gets it, since its echo may arrive before the relay
returns; if the relay refuses it, it is forgotten again.
-/

namespace TextTunnel

/-- Why nothing is handed to the relay. -/
inductive Setback where
  /-- The sender is told. -/
  | refused (e : TunnelError)
  /-- The packet could not be compressed. Only the log says so. -/
  | abandoned (reason : String)
  deriving DecidableEq

namespace Tunnel

variable {σ : Type}

/-- The text behind the header of an envelope that carries the packet. -/
def sealPayload (t : Tunnel) (key : Rsa.PublicKey) (noise : Rsa.Noise) (packet : Packet) :
    Except Setback String :=
  match t.registry.encodeFrame packet with
  | .error e => .error (.refused (.ofPacketError e))
  | .ok frame =>
    match t.compressor frame with
    | .error reason => .error (.abandoned reason)
    | .ok compressed =>
      match Envelope.sealBytes key noise compressed with
      | .error e => .error (.refused (.encryptionFailed e))
      | .ok cipher => .ok (SafeText.encode cipher)

/-- The relay command that brings a payload to a recipient. -/
def address (t : Tunnel) (recipient : Peer) (payload : String) : String :=
  RelayCommand.write t.config.relay.whisperCommand recipient.name (Wire.envelopeHeader ++ payload)

/-- The payload and the relay command of a packet, if it can be sent at all. -/
def prepare (t : Tunnel) (noise : Rsa.Noise) (packet : Packet) (recipient : Peer) :
    Except Setback (String × String) :=
  match t.keys.publicKeyOf recipient with
  | none => .error (.refused (.keyUnavailable recipient))
  | some key =>
    match t.sealPayload key noise packet with
    | .error setback => .error setback
    | .ok payload =>
      let text := t.address recipient payload
      if t.config.relay.maxMessageLen < text.length then
        .error (.refused (.messageTooLong text.length t.config.relay.maxMessageLen))
      else .ok (payload, text)

/-- Remembers a payload that is about to be sent. -/
def remember (now : Nat) (payload : String) (s : TunnelState σ) : TunnelState σ :=
  let (evicted, echo) := s.echo.insert now payload
  { s with echo }.emit (evicted.map fun p => .log (.echoEvicted p))

/-- Encrypts a packet for a recipient and sends it through the relay, unless it cannot be
compressed. -/
def sendPacket (t : Tunnel) (relay : Relay σ) (noise : Rsa.Noise) (now : Nat) (packet : Packet)
    (recipient : Peer) (s : TunnelState σ) : Except TunnelError Unit × TunnelState σ :=
  match t.prepare noise packet recipient with
  | .error (.refused e) => (.error e, s)
  | .error (.abandoned reason) => (.ok (), s.logged (.compressionFailed packet.kind reason))
  | .ok (payload, text) =>
    let s := t.notify .outbound recipient packet s
    let s := remember now payload s
    match relay text (s.emit [.relayed text]) with
    | (.error e, s) => (.error (.relay e), { s with echo := s.echo.forget payload })
    | (.ok (), s) =>
      (.ok (), s.logged (.envelopeSent packet.kind recipient payload text.length))

end Tunnel

end TextTunnel
