import TextTunnel.Peer

/-!
# Relay messages

What a relay delivers, and why it refuses a text. There is no acknowledgement: a text that is not
refused was accepted, and nothing more is known.
-/

namespace TextTunnel

/-- A text that was delivered, with the author that the relay vouches for. -/
structure RelayMessage where
  text : String
  sender : Peer
  deriving DecidableEq

/-- Why a relay refuses a text. -/
inductive RelayError where
  /-- The sender is no participant. -/
  | disconnected
  /-- The recipient is no participant. -/
  | unknownRecipient (name : String)
  /-- The text is over the limit, in characters. -/
  | tooLong (len max : Nat)
  deriving DecidableEq, Repr

/-- The wording of the error. -/
def RelayError.message : RelayError → String
  | disconnected => "not connected to the relay"
  | unknownRecipient name => "no relay participant named " ++ name
  | tooLong len max =>
    "relay refused a " ++ toString len ++ "-character message, limit is " ++ toString max

end TextTunnel
