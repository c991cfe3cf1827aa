import TextTunnel.Wire

/-!
# Configuration

Five settings in three sections, each with a default.
-/

namespace TextTunnel

/-- What the relay allows and understands. -/
structure RelayConfig where
  /-- Longest relay message, in characters, including the addressing in front. -/
  maxMessageLen : Nat := Wire.defaultMaxMessageLen
  /-- Relay command that delivers a message to one recipient. -/
  whisperCommand : String := Wire.defaultWhisperCommand
  deriving DecidableEq, Repr

/-- How sent envelopes are remembered. -/
structure EchoConfig where
  /-- Seconds for which a sent envelope is remembered while its echo has not come. -/
  windowSecs : Nat := Wire.defaultEchoWindowSecs
  /-- Most envelopes remembered at once; the oldest is forgotten first. -/
  capacity : Nat := Wire.defaultEchoCapacity
  deriving DecidableEq, Repr

/-- Limits on what is received. -/
structure LimitsConfig where
  /-- Longest decompressed packet, in bytes. -/
  maxDecompressedLen : Nat := Wire.defaultMaxDecompressedLen
  deriving DecidableEq, Repr

/-- All settings. -/
structure Config where
  relay : RelayConfig := {}
  echo : EchoConfig := {}
  limits : LimitsConfig := {}
  deriving DecidableEq, Repr

end TextTunnel
