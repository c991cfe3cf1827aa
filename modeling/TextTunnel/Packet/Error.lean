import TextTunnel.Packet.Basic
import TextTunnel.Text.Quoted

/-!
# Packet errors

Why bytes are no packet, a packet has no bytes, or a registration is refused.
-/

namespace TextTunnel

/-- A two-digit lowercase hexadecimal number for a byte. -/
private def byteText (b : UInt8) : String :=
  "0x" ++ Bytes.toHex [b]

/-- What is wrong with a packet's body, read or written. -/
inductive Malformed where
  /-- The bytes end before the layout is complete. -/
  | truncated
  /-- Bytes are left behind the body. -/
  | trailingBytes (count : Nat)
  /-- Five bytes of a number all announce another one. -/
  | varIntTooLong
  /-- A truth value that is neither zero nor one. -/
  | invalidBool (byte : UInt8)
  /-- The bytes of a string are not UTF-8. -/
  | invalidUtf8
  /-- A string is longer than its field allows. -/
  | stringTooLong (len max : Nat)
  /-- A game id that names no game. -/
  | unknownGame (id : String)
  /-- A number outside its field's range. -/
  | outOfRange (field : String) (value : Int)
  deriving DecidableEq, Repr

namespace Malformed

/-- The wording of the reason. -/
def message : Malformed → String
  | truncated => "body ends before the layout is complete"
  | trailingBytes n => toString n ++ " bytes left unread after the body"
  | varIntTooLong => "varint longer than 5 bytes"
  | invalidBool b => "boolean byte " ++ byteText b ++ " is neither 0 nor 1"
  | invalidUtf8 => "string is not valid UTF-8"
  | stringTooLong len max => "string of " ++ toString len ++ " exceeds limit " ++ toString max
  | unknownGame id => "unknown game id " ++ Text.quotedString id
  | outOfRange field value => "field " ++ field ++ " = " ++ toString value ++ " is out of range"

end Malformed

/-- Why a packet could not be read, written or registered. -/
inductive PacketError where
  /-- No variant is registered under this id. -/
  | unknownPacketType (id : UInt32)
  /-- The variant is not registered. -/
  | unregisteredKind (kind : PacketKind)
  /-- The body does not fit its layout. -/
  | malformed (reason : Malformed)
  /-- The id is taken. -/
  | duplicateTypeId (id : UInt32)
  /-- The variant is registered already. -/
  | duplicateKind (kind : PacketKind)
  deriving DecidableEq, Repr

namespace PacketError

/-- The wording of the error. -/
def message : PacketError → String
  | unknownPacketType id => "unknown packet type id " ++ toString id
  | unregisteredKind kind => "packet kind " ++ kind.name ++ " is not registered"
  | malformed reason => "malformed packet: " ++ reason.message
  | duplicateTypeId id => "packet type id " ++ toString id ++ " is already registered"
  | duplicateKind kind => "packet kind " ++ kind.name ++ " is already registered"

end PacketError

end TextTunnel
