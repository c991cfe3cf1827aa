import TextTunnel.Envelope
import TextTunnel.Gzip.Member
import TextTunnel.SafeText
import TextTunnel.Tunnel.Basic

/-!
# Receiving

Every message that the relay delivers passes through here: plain text, own envelopes that come back,
and envelopes for others. That an envelope cannot be decrypted is the normal case.

* `Tunnel.openPayload` -- the packet in a payload.
* `Tunnel.onText` -- what becomes of one message. Only a packet whose claimed author is the one that
  the relay reports reaches observers and handlers.
* `Tunnel.onMessages` -- what becomes of a row of messages.
-/

namespace TextTunnel.Tunnel

variable {σ : Type}

/-- The text behind the header, if the text starts with one. -/
def payload? (text : String) : Option String :=
  if Wire.envelopeHeader.toList.isPrefixOf text.toList then
    some (String.ofList (text.toList.drop Wire.envelopeHeader.length))
  else none

/-- The packet in a payload; or why there is none, with what goes into the log. -/
def openPayload (t : Tunnel) (payload : String) : Except (DropReason × Event) Packet :=
  match SafeText.decode payload with
  | .error e => .error (.textDecode, .payloadNotDecodable payload e.message)
  | .ok cipher =>
    match t.keys.ownPrivateKey with
    | none => .error (.keyUnavailable, .noPrivateKey payload)
    | some key =>
      match Envelope.openBytes key cipher with
      | .error e => .error (.decrypt, .notAddressed payload e.message)
      | .ok compressed =>
        match Gzip.decompress compressed t.config.limits.maxDecompressedLen with
        | .error e => .error (.decompress, .notDecompressed payload e.message)
        | .ok frame =>
          match t.registry.decodeFrame frame with
          | .error e => .error (.decode e, .packetRejected payload e.message)
          | .ok packet => .ok packet

/-- Hands an authenticated packet to its handler. -/
def dispatch (t : Tunnel) (payload : String) (packet : Packet) (s : TunnelState σ) :
    InboundOutcome × TunnelState σ :=
  let kind := packet.kind
  match t.dispatcher.dispatch packet with
  | some (h, .ok ()) =>
    (.dispatched kind,
      (s.emit [.handled h packet]).logged (.packetDispatched payload kind packet.sender))
  | some (h, .error e) =>
    let line := "Error handling " ++ kind.name ++ " from " ++ packet.sender.name ++ ": " ++ e.chain
    (.dispatched kind,
      ((s.emit [.handled h packet]).logged (.handlerFailed kind packet.sender e.text)).emit
        [.feedback t.feedback line])
  | none => (.unhandled kind, s.logged (.packetUnhandled kind packet.sender))

/-- What becomes of the envelope with the given payload, unless it is an own one. -/
def receive (t : Tunnel) (payload : String) (sender : Peer) (s : TunnelState σ) :
    InboundOutcome × TunnelState σ :=
  match t.openPayload payload with
  | .error (reason, e) => (.dropped reason, s.logged e)
  | .ok packet =>
    if packet.isAuthoredBy sender then
      t.dispatch payload packet (t.notify .inbound sender packet s)
    else
      (.dropped .senderMismatch, s.logged (.senderMismatch payload sender packet.sender))

/-- What becomes of a message that the relay reports as written by `sender`. -/
def onText (t : Tunnel) (now : Nat) (text : String) (sender : Peer) (s : TunnelState σ) :
    InboundOutcome × TunnelState σ :=
  match payload? text with
  | none => (.notTunnel, s)
  | some payload =>
    if sender = t.self then
      let (isEcho, echo) := s.echo.take now payload
      let s := { s with echo }
      if isEcho then (.echo, s.logged (.echoReceived payload)) else t.receive payload sender s
    else t.receive payload sender s

/-- The outcomes of messages, taken one after another. -/
def onMessages (t : Tunnel) (now : Nat) :
    List RelayMessage → TunnelState σ → List InboundOutcome × TunnelState σ
  | [], s => ([], s)
  | m :: ms, s =>
    let (outcome, s) := t.onText now m.text m.sender s
    let (outcomes, s) := onMessages t now ms s
    (outcome :: outcomes, s)

end TextTunnel.Tunnel
