import TextTunnel.Toml.Number
import TextTunnel.Toml.Table

/-!
# Reading TOML

A document is a row of lines: blank ones, comments, headers, and keys with values. Arrays may run
over several lines; tables in braces may not, and have no comma behind the last entry.

* `ofString?` -- the entries of a whole document. A byte order mark in front of it is skipped.

Readers of values call each other as deep as values nest, which is limited; a bound on the number
of calls follows from the length of the text.
-/

namespace TextTunnel.Toml

open TextTunnel.Text

/-! ## 1. Values -/

/-- A value that is a word, a string or a number. -/
def scalarValue? (cs : List Char) : Option (Value × List Char) :=
  match cs with
  | [] => none
  | c :: _ =>
    if c = '"' ∨ c = '\'' then (fun r => (.string r.1, r.2)) <$> string? cs
    else if c = 't' then (fun r => (.boolean true, r)) <$> afterWord? ['t', 'r', 'u', 'e'] cs
    else if c = 'f' then (fun r => (.boolean false, r)) <$> afterWord? ['f', 'a', 'l', 's', 'e'] cs
    else numeric? cs

/-- Adds a key and its value to the entries of a table in braces. -/
def addEntry (key : List String) (v : Value) (entries : Entries) : Option Entries :=
  match key.getLast? with
  | none => none
  | some name => Entries.defineAt key.dropLast name v entries

mutual

/-- A value at the front of the text; `room` more levels may nest. -/
def value? : Nat → Nat → List Char → Option (Value × List Char)
  | 0, _, _ => none
  | fuel + 1, room, cs =>
    match cs with
    | '[' :: cs => if room = 0 then none else items? fuel (room - 1) [] cs
    | '\x7b' :: cs =>
      if room = 0 then none
      else
        match blank cs with
        | '\x7d' :: cs => some (.table [], cs)
        | cs => entries? fuel (room - 1) [] cs
    | cs => scalarValue? cs

/-- The rest of an array, behind the items `done`, the latest first. -/
def items? : Nat → Nat → List Value → List Char → Option (Value × List Char)
  | 0, _, _, _ => none
  | fuel + 1, room, done, cs =>
    match betweenItems (cs.length + 1) cs with
    | none => none
    | some (']' :: cs) => some (.array done.reverse, cs)
    | some cs =>
      match value? fuel room cs with
      | none => none
      | some (v, cs) =>
        match betweenItems (cs.length + 1) cs with
        | some (']' :: cs) => some (.array (v :: done).reverse, cs)
        | some (',' :: cs) => items? fuel room (v :: done) cs
        | _ => none

/-- The rest of a table in braces, from a key on, behind the entries `done`. -/
def entries? : Nat → Nat → Entries → List Char → Option (Value × List Char)
  | 0, _, _, _ => none
  | fuel + 1, room, done, cs =>
    match key? cs with
    | some (key, '=' :: cs) =>
      match value? fuel room (blank cs) with
      | none => none
      | some (v, cs) =>
        match addEntry key v done with
        | none => none
        | some done =>
          match blank cs with
          | '\x7d' :: cs => some (.table (Node.entriesToValues done), cs)
          | ',' :: cs => entries? fuel room done cs
          | _ => none
    | _ => none

end

/-! ## 2. Lines -/

/-- A header, behind its first bracket. -/
def header? (b : Builder) (cs : List Char) : Option (Builder × List Char) :=
  match cs with
  | '[' :: cs => do
    let (path, cs) ← key? cs
    match cs with
    | ']' :: ']' :: cs => return (← b.openRow path, cs)
    | _ => none
  | cs => do
    let (path, cs) ← key? cs
    match cs with
    | ']' :: cs => return (← b.openTable path, cs)
    | _ => none

/-- A key and its value. -/
def pair? (b : Builder) (cs : List Char) : Option (Builder × List Char) := do
  let (key, cs) ← key? cs
  match cs with
  | '=' :: cs =>
    let (v, cs) ← value? (2 * cs.length + 2) maxDepth (blank cs)
    return (← b.define key v, cs)
  | _ => none

/-- Reads lines until the text ends. -/
def lines : Nat → Builder → List Char → Option Builder
  | 0, _, _ => none
  | fuel + 1, b, cs =>
    match blank cs with
    | [] => some b
    | '[' :: cs => do
      let (b, cs) ← header? b cs
      let cs ← lineEnd? cs
      lines fuel b cs
    | cs =>
      match lineEnd? cs with
      | some cs => lines fuel b cs
      | none => do
        let (b, cs) ← pair? b cs
        let cs ← lineEnd? cs
        lines fuel b cs

/-- Skips a byte order mark. -/
def skipMark : List Char → List Char
  | '\uFEFF' :: cs => cs
  | cs => cs

/-- The entries of a document. -/
def ofChars? (cs : List Char) : Option (List (String × Value)) := do
  let b ← lines (cs.length + 1) Builder.empty (skipMark cs)
  return Node.entriesToValues b.root

/-- The entries of a document. -/
def ofString? (s : String) : Option (List (String × Value)) :=
  ofChars? s.toList

end TextTunnel.Toml
