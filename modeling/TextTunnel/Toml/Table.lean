import TextTunnel.Toml.Value

/-!
# Tables that are being filled

A document names the places of its values piece by piece: a header opens a table, a dotted key goes
down from it, and a table that is named only on the way to another one comes into being by that.
No value may be given twice, and no table may be filled in two ways:

* a header does not open a table again that a header has opened or dotted keys have made;
* a dotted key does not enter a table that a header has opened, and its last table has to be one
  that dotted keys have made;
* a value in braces or brackets is complete.

A row of tables, made by double brackets, stands for its last table on the way down.

* `Builder.openTable`, `Builder.openRow` -- the two headers.
* `Builder.define` -- a key and its value.
-/

namespace TextTunnel.Toml

/-- What has made a table. -/
inductive Origin where
  /-- A header of its own. -/
  | header
  /-- The header of a table below it. -/
  | passage
  /-- Dotted keys. -/
  | dotted
  deriving DecidableEq

/-- What stands at a name: a value, a table, or a row of tables. -/
inductive Node where
  | value (v : Value)
  | table (origin : Origin) (entries : List (String × Node))
  | row (tables : List (List (String × Node)))

/-- The entries of a table. -/
abbrev Entries := List (String × Node)

namespace Node

mutual

/-- A node as a value. -/
def toValue : Node → Value
  | .value v => v
  | .table _ entries => .table (entriesToValues entries)
  | .row tables => .array (rowToValues tables)

/-- Entries as named values. -/
def entriesToValues : List (String × Node) → List (String × Value)
  | [] => []
  | (name, n) :: rest => (name, n.toValue) :: entriesToValues rest

/-- A row of tables as values. -/
def rowToValues : List (List (String × Node)) → List Value
  | [] => []
  | entries :: rest => .table (entriesToValues entries) :: rowToValues rest

end

end Node

namespace Entries

/-- The node with the given name. -/
def find (name : String) (entries : Entries) : Option Node :=
  (entries.find? fun e => e.1 == name).map (·.2)

/-- Replaces the node with the given name, or adds it at the end. -/
def put (name : String) (n : Node) : Entries → Entries
  | [] => [(name, n)]
  | (k, m) :: rest => if k == name then (k, n) :: rest else (k, m) :: put name n rest

/-- Goes down along names and changes the entries at the end. `making` is the origin of the tables
that come into being on the way; the change is told the origin of the table it changes. -/
def descend (making : Origin) (change : Origin → Entries → Option Entries) :
    List String → Origin → Entries → Option Entries
  | [], origin, entries => change origin entries
  | name :: path, _, entries =>
    match find name entries with
    | none => do
      let sub ← descend making change path making []
      return put name (.table making sub) entries
    | some (.value _) => none
    | some (.table origin sub) =>
      if making = .dotted ∧ origin = .header then none
      else do
        let sub ← descend making change path origin sub
        return put name (.table origin sub) entries
    | some (.row tables) => do
      let sub ← descend making change path .header (tables.getLast?.getD [])
      return put name (.row (tables.dropLast ++ [sub])) entries

/-- Adds a value under a new name at the end of a dotted key, whose other names are `path`. -/
def defineAt (path : List String) (name : String) (v : Value) (entries : Entries) :
    Option Entries :=
  descend .dotted
    (fun origin entries =>
      if !path.isEmpty && origin != .dotted then none
      else if (find name entries).isSome then none
      else some (put name (.value v) entries))
    path .header entries

/-- Opens a table by its header. -/
def openTable (name : String) (entries : Entries) : Option Entries :=
  match find name entries with
  | none => some (put name (.table .header []) entries)
  | some (.table .passage sub) => some (put name (.table .header sub) entries)
  | some _ => none

/-- Opens the next table of a row. -/
def openRow (name : String) (entries : Entries) : Option Entries :=
  match find name entries with
  | none => some (put name (.row [[]]) entries)
  | some (.row tables) => some (put name (.row (tables ++ [[]])) entries)
  | some _ => none

end Entries

/-- A document that is being read: all entries, and the names of the table that is open. -/
structure Builder where
  root : Entries
  path : List String

namespace Builder

/-- Nothing has been read, and the document itself is open. -/
def empty : Builder := ⟨[], []⟩

/-- Opens a table or a row at the end of a path. -/
def openAt (openLast : String → Entries → Option Entries) (b : Builder) (path : List String) :
    Option Builder :=
  match path.getLast? with
  | none => none
  | some name => do
    let root ← Entries.descend .passage (fun _ => openLast name) path.dropLast .header b.root
    return ⟨root, path⟩

/-- The header of a table. -/
def openTable (b : Builder) (path : List String) : Option Builder :=
  b.openAt Entries.openTable path

/-- The header of a table in a row. -/
def openRow (b : Builder) (path : List String) : Option Builder :=
  b.openAt Entries.openRow path

/-- A key and its value in the table that is open. -/
def define (b : Builder) (key : List String) (v : Value) : Option Builder :=
  match key.getLast? with
  | none => none
  | some name => do
    let root ← Entries.descend .passage (fun _ => Entries.defineAt key.dropLast name v) b.path .header
      b.root
    return { b with root }

end Builder

end TextTunnel.Toml
