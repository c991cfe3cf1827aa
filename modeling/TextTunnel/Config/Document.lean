import TextTunnel.Config.Basic
import TextTunnel.Toml.Document

/-!
# The configuration file

The file has a table for each section. What is missing keeps its default, and what is unknown is
ignored; a known setting of the wrong kind makes the whole file unusable.

A section may also be an array of its settings in order, of which the last ones may be missing. A
date in place of a section has none of the known settings, so all of them keep their defaults.

* `Config.ofToml?`, `Config.toToml` -- the two directions, on text.
-/

namespace TextTunnel

open Toml (Value)

namespace Config

/-! ## 1. Reading -/

/-- The settings of a section by name, those that are there. -/
def settings? (names : List String) : Value → Option (List (Option Value))
  | .table entries => some (names.map fun name => Toml.lookup name entries)
  | .array items => some (names.zipIdx.map fun (_, i) => items[i]?)
  | .datetime _ => some (names.map fun _ => none)
  | _ => none

/-- A setting that may be missing. -/
def orDefault {α : Type} (read : Value → Option α) (default : α) : Option Value → Option α
  | none => some default
  | some v => read v

/-- A number that is not negative. -/
def natural? (v : Value) : Option Nat := do
  let i ← v.integer?
  if 0 ≤ i then some i.toNat else none

/-- The section `relay`. -/
def relay? (v : Value) : Option RelayConfig := do
  match ← settings? ["max_message_len", "whisper_command"] v with
  | [len, command] =>
    let maxMessageLen ← orDefault natural? Wire.defaultMaxMessageLen len
    let whisperCommand ← orDefault Value.string? Wire.defaultWhisperCommand command
    return { maxMessageLen, whisperCommand }
  | _ => none

/-- The section `echo`. -/
def echo? (v : Value) : Option EchoConfig := do
  match ← settings? ["window_secs", "capacity"] v with
  | [secs, capacity] =>
    let windowSecs ← orDefault natural? Wire.defaultEchoWindowSecs secs
    let capacity ← orDefault natural? Wire.defaultEchoCapacity capacity
    return { windowSecs, capacity }
  | _ => none

/-- The section `limits`. -/
def limits? (v : Value) : Option LimitsConfig := do
  match ← settings? ["max_decompressed_len"] v with
  | [len] =>
    let maxDecompressedLen ← orDefault natural? Wire.defaultMaxDecompressedLen len
    return { maxDecompressedLen }
  | _ => none

/-- A configuration from the entries of a document. -/
def ofEntries? (entries : List (String × Value)) : Option Config := do
  let relay ← orDefault relay? {} (Toml.lookup "relay" entries)
  let echo ← orDefault echo? {} (Toml.lookup "echo" entries)
  let limits ← orDefault limits? {} (Toml.lookup "limits" entries)
  return { relay, echo, limits }

/-- A configuration from the text of a file. -/
def ofToml? (text : String) : Option Config := do
  let entries ← Toml.ofString? text
  ofEntries? entries

/-! ## 2. Writing -/

/-- One character of a string in quotes. -/
def tomlChar (c : Char) : List Char :=
  if c = '"' ∨ c = '\\' then ['\\', c]
  else if c = '\n' then ['\\', 'n']
  else if c = '\r' then ['\\', 'r']
  else if c.toNat < 0x20 ∧ c ≠ '\t' ∨ c.toNat = 0x7F then
    '\\' :: 'u' :: '0' :: '0' :: Bytes.hexOfByte (UInt8.ofNat c.toNat)
  else [c]

/-- A text in quotes. -/
def tomlString (s : String) : String :=
  "\"" ++ String.ofList (s.toList.flatMap tomlChar) ++ "\""

/-- The text of a configuration file with all settings. -/
def toToml (c : Config) : String :=
  "[relay]\n"
    ++ "max_message_len = " ++ toString c.relay.maxMessageLen ++ "\n"
    ++ "whisper_command = " ++ tomlString c.relay.whisperCommand ++ "\n"
    ++ "\n[echo]\n"
    ++ "window_secs = " ++ toString c.echo.windowSecs ++ "\n"
    ++ "capacity = " ++ toString c.echo.capacity ++ "\n"
    ++ "\n[limits]\n"
    ++ "max_decompressed_len = " ++ toString c.limits.maxDecompressedLen ++ "\n"

end Config

end TextTunnel
