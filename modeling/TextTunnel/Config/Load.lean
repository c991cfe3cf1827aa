import TextTunnel.Config.Document
import TextTunnel.Config.Environment

/-!
# Loading the configuration

* `Config.load` -- the file if it exists, else the defaults, then the environment's overrides.
* `Config.writeDefault` -- writes the defaults where the file belongs, unless something is there.
-/

namespace TextTunnel

/-- Why a configuration cannot be loaded or written. -/
inductive ConfigError where
  | readFailed (path : String) (cause : FileError)
  | parseFailed (path : String)
  | writeFailed (path : String) (cause : FileError)
  deriving DecidableEq, Repr

/-- The wording of the error. -/
def ConfigError.message : ConfigError → String
  | readFailed path cause => "failed to read " ++ path ++ ": " ++ cause.message
  | parseFailed path => "failed to parse " ++ path
  | writeFailed path cause => "failed to write " ++ path ++ ": " ++ cause.message

namespace Config

/-- The configuration in one file. -/
def fromFile (t : FileTree) (path : String) : Except ConfigError Config :=
  match t.readText path with
  | .error e => .error (.readFailed path e)
  | .ok text =>
    match ofToml? text with
    | some c => .ok c
    | none => .error (.parseFailed path)

/-- The configuration in effect. -/
def load (env : Environment) (t : FileTree) : Except ConfigError Config := do
  let path := filePath env
  let c ← if t.exists? path then fromFile t path else .ok {}
  return c.override env

/-- Makes the directories above a path that names one. -/
def makeParents (t : FileTree) (path : String) : Except FileError Unit × FileTree :=
  match FileTree.parentPath? path with
  | none => (.ok (), t)
  | some parent => t.makeDirs parent

/-- Writes a file and the directories above it. Directories that have been made stay, also if the
file cannot be written. -/
def writeFile (t : FileTree) (path text : String) : Except FileError Unit × FileTree :=
  match makeParents t path with
  | (.error e, t) => (.error e, t)
  | (.ok (), t) =>
    match t.write path text.toUTF8.toList with
    | .error e => (.error e, t)
    | .ok t => (.ok (), t)

/-- Writes the defaults unless the file exists. Answers with its path, and with the files as they
are afterwards. -/
def writeDefault (env : Environment) (t : FileTree) : Except ConfigError String × FileTree :=
  let path := filePath env
  if t.exists? path then (.ok path, t)
  else
    match writeFile t path (toToml {}) with
    | (.ok (), t) => (.ok path, t)
    | (.error e, t) => (.error (.writeFailed path e), t)

end Config

end TextTunnel
