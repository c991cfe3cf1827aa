import TextTunnel.Digest.Fingerprint
import TextTunnel.Packet.Json

/-!
# Log events

Everything that is worth a line in the log, as data. An event has a level, a message and named
fields; payloads and keys appear by their fingerprints only.
-/

namespace TextTunnel

/-- Which way a packet goes. -/
inductive PacketFlow where
  /-- About to be handed to the relay; the other side is the recipient. -/
  | outbound
  /-- Authenticated and about to be dispatched; the other side is the author. -/
  | inbound
  deriving DecidableEq, Repr

/-- The word for a direction. -/
def PacketFlow.name : PacketFlow → String
  | outbound => "Outbound"
  | inbound => "Inbound"

/-- How much an event matters. -/
inductive LogLevel where
  | trace
  | debug
  | info
  | warn
  deriving DecidableEq, Repr

/-- The word for a level. -/
def LogLevel.name : LogLevel → String
  | trace => "TRACE"
  | debug => "DEBUG"
  | info => "INFO"
  | warn => "WARN"

/-- Something that happened. -/
inductive Event where
  /-- A key ring was made with an own key pair. -/
  | ownKeyInstalled (fingerprint : String)
  /-- A contact's key was recorded. -/
  | peerKeyRecorded (peer : Uuid) (fingerprint : String)
  /-- A participant joined the relay. -/
  | joinedRelay (peer : Peer)
  /-- A message was for somebody who does not receive any more. -/
  | messageDiscarded (peer : Peer)
  /-- A handler took the place of another one. -/
  | handlerReplaced (kind : PacketKind)
  /-- An envelope was handed to the relay. -/
  | envelopeSent (kind : PacketKind) (recipient : Peer) (payload : String) (chars : Nat)
  /-- A frame could not be compressed, so nothing was sent. -/
  | compressionFailed (kind : PacketKind) (error : String)
  /-- A payload was forgotten to make room. -/
  | echoEvicted (payload : String)
  /-- An own envelope came back. -/
  | echoReceived (payload : String)
  /-- A payload is no text-safe text. -/
  | payloadNotDecodable (payload error : String)
  /-- There is no key to decrypt a payload with. -/
  | noPrivateKey (payload : String)
  /-- A payload is not encrypted for this key. -/
  | notAddressed (payload error : String)
  /-- A decrypted payload does not decompress. -/
  | notDecompressed (payload error : String)
  /-- A decompressed payload is no packet. -/
  | packetRejected (payload error : String)
  /-- A packet claims another author than the relay reports. -/
  | senderMismatch (payload : String) (reported claimed : Peer)
  /-- A handler has taken a packet. -/
  | packetDispatched (payload : String) (kind : PacketKind) (sender : Peer)
  /-- A handler has failed on a packet. -/
  | handlerFailed (kind : PacketKind) (sender : Peer) (error : String)
  /-- Nobody handles a packet. -/
  | packetUnhandled (kind : PacketKind) (sender : Peer)
  /-- A logging observer saw a packet. -/
  | packetObserved (flow : PacketFlow) (peer : Peer) (packet : Packet)
  /-- The local user was told something. -/
  | feedbackGiven (line : String)
  /-- The receiving loop has ended. -/
  | inboxFinished (peer : Peer) (dispatched dropped echoes : Nat)
  deriving DecidableEq

namespace Event

/-- How much the event matters. -/
def level : Event → LogLevel
  | echoReceived _ => .trace
  | compressionFailed _ _ => .warn
  | packetRejected _ _ => .warn
  | senderMismatch _ _ _ => .warn
  | handlerFailed _ _ _ => .warn
  | packetObserved _ _ _ => .info
  | feedbackGiven _ => .info
  | _ => .debug

/-- The message of the event. -/
def message : Event → String
  | ownKeyInstalled _ => "own keypair installed"
  | peerKeyRecorded _ _ => "peer public key recorded"
  | joinedRelay _ => "joined loopback relay"
  | messageDiscarded _ => "inbox closed, message discarded"
  | handlerReplaced _ => "packet handler replaced"
  | envelopeSent _ _ _ _ => "envelope sent"
  | compressionFailed _ _ => "compression failed, packet not sent"
  | echoEvicted _ => "echo filter full, evicted oldest entry"
  | echoReceived _ => "own envelope echoed back"
  | payloadNotDecodable _ _ => "envelope payload not decodable"
  | noPrivateKey _ => "no local private key, envelope skipped"
  | notAddressed _ _ => "envelope not addressed to us"
  | notDecompressed _ _ => "envelope did not decompress"
  | packetRejected _ _ => "packet rejected"
  | senderMismatch _ _ _ => "packet sender does not match relay author, dropped"
  | packetDispatched _ _ _ => "packet dispatched"
  | handlerFailed _ _ _ => "packet handler failed"
  | packetUnhandled _ _ => "no handler for packet"
  | packetObserved _ _ _ => "packet"
  | feedbackGiven _ => "tunnel feedback"
  | inboxFinished _ _ _ _ => "relay inbox closed"

/-- The field that names a payload. -/
def payloadField (payload : String) : String × String :=
  ("fingerprint", Digest.fingerprint payload)

/-- The fields of the event. -/
def fields : Event → List (String × String)
  | ownKeyInstalled fingerprint => [("fingerprint", fingerprint)]
  | peerKeyRecorded peer fingerprint => [("peer", peer.toString), ("fingerprint", fingerprint)]
  | joinedRelay peer => [("peer", peer.toString)]
  | messageDiscarded peer => [("peer", peer.toString)]
  | handlerReplaced kind => [("kind", kind.name)]
  | envelopeSent kind recipient payload chars =>
    [("kind", kind.name), ("recipient", recipient.toString), payloadField payload,
      ("chars", toString chars)]
  | compressionFailed kind error => [("kind", kind.name), ("error", error)]
  | echoEvicted payload => [payloadField payload]
  | echoReceived payload => [payloadField payload]
  | payloadNotDecodable payload error => [payloadField payload, ("error", error)]
  | noPrivateKey payload => [payloadField payload]
  | notAddressed payload error => [payloadField payload, ("error", error)]
  | notDecompressed payload error => [payloadField payload, ("error", error)]
  | packetRejected payload error => [payloadField payload, ("error", error)]
  | senderMismatch payload reported claimed =>
    [payloadField payload, ("reported", reported.toString), ("claimed", claimed.name),
      ("claimed_id", claimed.id.toString)]
  | packetDispatched payload kind sender =>
    [payloadField payload, ("kind", kind.name), ("sender", sender.toString)]
  | handlerFailed kind sender error =>
    [("kind", kind.name), ("sender", sender.toString), ("error", error)]
  | packetUnhandled kind sender => [("kind", kind.name), ("sender", sender.toString)]
  | packetObserved flow peer packet =>
    [("flow", flow.name), ("peer", peer.toString), ("kind", packet.kind.name),
      ("packet", packet.toJson)]
  | feedbackGiven line => [("feedback", line)]
  | inboxFinished peer dispatched dropped echoes =>
    [("peer", peer.toString), ("dispatched", toString dispatched), ("dropped", toString dropped),
      ("echoes", toString echoes)]

/-- Whether the event shows the fingerprint of a key. -/
def showsKey : Event → Bool
  | ownKeyInstalled _ => true
  | peerKeyRecorded _ _ => true
  | _ => false

end Event

end TextTunnel
