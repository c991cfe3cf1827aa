import TextTunnel.Config.Basic
import TextTunnel.Files.Tree

/-!
# Environment variables

Variables override single settings and say where the configuration file is.

* `Config.override` -- each setting has a variable. A number that cannot be read is ignored.
* `Config.filePath` -- the file that `RELAYTUN_CONFIG` names, else `relaytun/config.toml` in the
  user's configuration directory.
-/

namespace TextTunnel

/-- The variables that are set. -/
abbrev Environment := String → Option String

namespace Config

/-! ## 1. Overrides -/

/-- A number of 64 bits: decimal digits, possibly behind a plus sign. -/
def number? (s : String) : Option Nat :=
  let digits := match s.toList with
    | '+' :: cs => cs
    | cs => cs
  if digits.isEmpty ∨ digits.any (fun c => !Text.isDigit c) then none
  else
    let n := Text.decimal digits
    if n < UInt64.size then some n else none

/-- The number in a variable. -/
def numberIn (env : Environment) (name : String) : Option Nat := do
  let s ← env name
  number? s

/-- A configuration with the settings that the environment overrides. -/
def override (env : Environment) (c : Config) : Config where
  relay :=
    { maxMessageLen := (numberIn env "RELAYTUN_RELAY__MAX_MESSAGE_LEN").getD c.relay.maxMessageLen
      whisperCommand := (env "RELAYTUN_RELAY__WHISPER_COMMAND").getD c.relay.whisperCommand }
  echo :=
    { windowSecs := (numberIn env "RELAYTUN_ECHO__WINDOW_SECS").getD c.echo.windowSecs
      capacity := (numberIn env "RELAYTUN_ECHO__CAPACITY").getD c.echo.capacity }
  limits :=
    { maxDecompressedLen :=
        (numberIn env "RELAYTUN_LIMITS__MAX_DECOMPRESSED_LEN").getD c.limits.maxDecompressedLen }

/-! ## 2. Places -/

/-- The user's home directory. -/
def homeDir (env : Environment) : String :=
  (env "HOME").getD "/tmp"

/-- The directory of the program's configuration. -/
def dirPath (env : Environment) : String :=
  FileTree.joinPath
    ((env "XDG_CONFIG_HOME").getD (FileTree.joinPath (homeDir env) ".config")) "relaytun"

/-- The configuration file. -/
def filePath (env : Environment) : String :=
  (env "RELAYTUN_CONFIG").getD (FileTree.joinPath (dirPath env) "config.toml")

end Config

end TextTunnel
