import TextTunnel.Bytes

/-!
# A tree of files

What a program can see of a file system: directories and files under names, and a working directory
for relative paths. There are no links and no permissions.

A path is text with slashes. It is followed from left to right: empty parts and `.` stay where they
are, `..` goes up, and each of them needs a directory to stand in. So a slash behind a name asks for
a directory.

* `FileTree.resolve` -- where a path leads.
* `FileTree.readText`, `FileTree.write`, `FileTree.makeDirs` -- the operations.
* `FileTree.joinPath`, `FileTree.parentPath?` -- paths as text.
-/

namespace TextTunnel

/-- Why an operation on files fails. -/
inductive FileError where
  | notFound
  | notADirectory
  | isADirectory
  | alreadyExists
  /-- The content is not UTF-8 text. -/
  | notText
  deriving DecidableEq, Repr

/-- The wording of the error. -/
def FileError.message : FileError → String
  | notFound => "No such file or directory"
  | notADirectory => "Not a directory"
  | isADirectory => "Is a directory"
  | alreadyExists => "File exists"
  | notText => "stream did not contain valid UTF-8"

/-- What stands at a place. -/
inductive FileEntry where
  | directory
  | file (content : Bytes)
  deriving DecidableEq

/-- Files and directories by place, a place being the names from the root down, and the working
directory. The root itself needs no entry. -/
structure FileTree where
  entries : List (List String × FileEntry)
  workingDir : List String

namespace FileTree

/-! ## 1. Paths as text -/

/-- The parts of a text between slashes. -/
def splitSlashes : List Char → List (List Char)
  | [] => [[]]
  | c :: cs =>
    if c = '/' then [] :: splitSlashes cs
    else
      match splitSlashes cs with
      | [] => [[c]]
      | part :: parts => (c :: part) :: parts

/-- The parts of a path. -/
def pathParts (path : String) : List String :=
  (splitSlashes path.toList).map String.ofList

/-- Whether a path starts at the root. -/
def isAbsolute (path : String) : Bool :=
  path.toList.head? == some '/'

/-- A relative path behind a base. -/
def joinPath (base path : String) : String :=
  if base.isEmpty ∨ base.toList.getLast? = some '/' then base ++ path else base ++ "/" ++ path

/-- The parts of a path that matter to its text: empty parts are left out, and so is `.` unless it
comes first. -/
def lexicalParts (path : String) : List String :=
  match (pathParts path).filter (· != "") with
  | [] => []
  | p :: ps => (if p == "." && isAbsolute path then [] else [p]) ++ ps.filter (· != ".")

/-- The path without its last part, unless it has none. -/
def parentPath? (path : String) : Option String :=
  match lexicalParts path with
  | [] => none
  | parts =>
    some ((if isAbsolute path then "/" else "") ++ String.intercalate "/" parts.dropLast)

/-! ## 2. Places -/

/-- What stands at a place. -/
def entryAt (t : FileTree) (place : List String) : Option FileEntry :=
  if place.isEmpty then some .directory
  else (t.entries.find? fun e => e.1 == place).map (·.2)

/-- Puts an entry at a place. -/
def putAt (t : FileTree) (place : List String) (e : FileEntry) : FileTree :=
  { t with entries := (place, e) :: t.entries.filter fun e => e.1 != place }

/-- Follows the parts of a path from a place. -/
def follow (t : FileTree) (place : List String) : List String → Except FileError (List String)
  | [] => .ok place
  | part :: parts =>
    match t.entryAt place with
    | none => .error .notFound
    | some (.file _) => .error .notADirectory
    | some .directory =>
      if part == "" || part == "." then follow t place parts
      else if part == ".." then follow t place.dropLast parts
      else
        let next := place ++ [part]
        if (t.entryAt next).isSome then follow t next parts else .error .notFound

/-- Where a path starts. -/
def start (t : FileTree) (path : String) : List String :=
  if isAbsolute path then [] else t.workingDir

/-- Where a path leads, if something stands there. -/
def resolve (t : FileTree) (path : String) : Except FileError (List String) :=
  if path.isEmpty then .error .notFound else t.follow (t.start path) (pathParts path)

/-- What a path leads to. -/
def lookUp (t : FileTree) (path : String) : Except FileError FileEntry := do
  let place ← t.resolve path
  match t.entryAt place with
  | some e => .ok e
  | none => .error .notFound

/-- Whether a path leads to something. -/
def exists? (t : FileTree) (path : String) : Bool :=
  match t.lookUp path with
  | .ok _ => true
  | .error _ => false

/-- Whether a path leads to a directory. -/
def isDirectory (t : FileTree) (path : String) : Bool :=
  match t.lookUp path with
  | .ok .directory => true
  | _ => false

/-- Where a path leads whose last part is a name that need not be taken yet. -/
def newPlace (t : FileTree) (path : String) : Except FileError (List String) :=
  if path.isEmpty then .error .notFound
  else do
    let parts := pathParts path
    let name := parts.getLast?.getD ""
    let parent ← t.follow (t.start path) parts.dropLast
    match t.entryAt parent with
    | none => .error .notFound
    | some (.file _) => .error .notADirectory
    | some .directory =>
      if name == "" || name == "." || name == ".." then .error .isADirectory
      else .ok (parent ++ [name])

/-! ## 3. Operations -/

/-- The text of a file. -/
def readText (t : FileTree) (path : String) : Except FileError String := do
  match ← t.lookUp path with
  | .directory => .error .isADirectory
  | .file content =>
    match String.fromUTF8? (ByteArray.mk content.toArray) with
    | some s => .ok s
    | none => .error .notText

/-- Writes a file, new or in place of an old one. -/
def write (t : FileTree) (path : String) (content : Bytes) : Except FileError FileTree := do
  let place ← t.newPlace path
  match t.entryAt place with
  | some .directory => .error .isADirectory
  | _ => .ok (t.putAt place (.file content))

/-- Makes one directory. -/
def makeDir (t : FileTree) (path : String) : Except FileError FileTree :=
  match t.newPlace path with
  | .error .isADirectory => .error .alreadyExists
  | .error e => .error e
  | .ok place =>
    if (t.entryAt place).isSome then .error .alreadyExists else .ok (t.putAt place .directory)

/-- Makes one directory, unless a directory is there already. -/
def ensureDir (t : FileTree) (path : String) : Except FileError Unit × FileTree :=
  match t.makeDir path with
  | .ok t => (.ok (), t)
  | .error e => (if t.isDirectory path then .ok () else .error e, t)

/-- Makes a directory, and first those above it if they are missing; each level takes one from
`fuel`. What has been made stays, also if something above or below it fails. -/
def makeDirsFrom : Nat → FileTree → String → Except FileError Unit × FileTree
  | 0, t, _ => (.error .notFound, t)
  | fuel + 1, t, path =>
    if path.isEmpty then (.ok (), t)
    else
      match t.makeDir path with
      | .error .notFound =>
        match parentPath? path with
        | none => (.error .notFound, t)
        | some parent =>
          match makeDirsFrom fuel t parent with
          | (.ok (), t) => t.ensureDir path
          | (.error e, t) => (.error e, t)
      | _ => t.ensureDir path

/-- Makes a directory and those above it that are missing. -/
def makeDirs (t : FileTree) (path : String) : Except FileError Unit × FileTree :=
  makeDirsFrom (path.length + 1) t path

end FileTree

end TextTunnel
