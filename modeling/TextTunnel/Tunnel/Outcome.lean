import TextTunnel.Packet.Error
import TextTunnel.Relay.Message
import TextTunnel.Rsa

/-!
# Failures and outcomes

A packet that cannot be sent is an error, because the caller has asked for it. A message that leads
to nothing is not: every participant sees all messages, and most of them are for others.
-/

namespace TextTunnel

/-- Why a packet was not sent. -/
inductive TunnelError where
  /-- The recipient's key is not known. -/
  | keyUnavailable (recipient : Peer)
  /-- The packet's variant is not registered. -/
  | unknownPacketType (kind : PacketKind)
  /-- The packet does not fit its layout. -/
  | encode (cause : PacketError)
  /-- The packet cannot be encrypted with the recipient's key. -/
  | encryptionFailed (cause : Rsa.CryptoError)
  /-- The relay message is over the limit, in characters. -/
  | messageTooLong (len max : Nat)
  /-- The relay has refused the message. -/
  | relay (cause : RelayError)
  deriving DecidableEq

namespace TunnelError

/-- The wording of the error. -/
def message : TunnelError → String
  | keyUnavailable recipient => "no public key known for " ++ recipient.toString
  | unknownPacketType kind => "packet type " ++ kind.name ++ " is not registered"
  | encode cause => "packet could not be encoded: " ++ cause.message
  | encryptionFailed cause => "encryption failed: " ++ cause.message
  | messageTooLong len max =>
    "relay message is " ++ toString len ++ " characters, limit is " ++ toString max
  | relay cause => "relay send failed: " ++ cause.message

/-- A packet error as a reason for not sending. -/
def ofPacketError : PacketError → TunnelError
  | .unregisteredKind kind => .unknownPacketType kind
  | e => .encode e

end TunnelError

/-- Why a message with an envelope was dropped. -/
inductive DropReason where
  | textDecode
  | keyUnavailable
  | decrypt
  | decompress
  | decode (cause : PacketError)
  | senderMismatch
  deriving DecidableEq, Repr

/-- The wording of the reason. -/
def DropReason.message : DropReason → String
  | textDecode => "payload is not valid relay-safe text"
  | keyUnavailable => "no local private key"
  | decrypt => "payload does not decrypt with the local key"
  | decompress => "payload does not decompress"
  | decode cause => "packet rejected: " ++ cause.message
  | senderMismatch => "packet claims a sender the relay did not report"

/-- What became of one message. -/
inductive InboundOutcome where
  /-- There is no envelope in it. -/
  | notTunnel
  /-- It is an own envelope that came back. -/
  | echo
  | dropped (reason : DropReason)
  /-- The packet went to its handler. -/
  | dispatched (kind : PacketKind)
  /-- The packet has no handler. -/
  | unhandled (kind : PacketKind)
  deriving DecidableEq, Repr

/-- Whether the message was meant for this tunnel and should not be shown as text. -/
def InboundOutcome.isHandled : InboundOutcome → Bool
  | echo => true
  | dispatched _ => true
  | unhandled _ => true
  | notTunnel => false
  | dropped _ => false

end TextTunnel
