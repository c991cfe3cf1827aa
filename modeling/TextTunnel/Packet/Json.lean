import TextTunnel.Packet.Basic
import TextTunnel.Json.Read
import TextTunnel.Json.Write

/-!
# Packets as JSON

A packet is written as an object of two members: `type`, the tag of its variant, and `data`, an
object of its fields in a fixed order.

Reading is more generous. Members come in any order and unknown ones are skipped, as long as no known
one is missing or repeated; the packet, or its data, may also be an array of the values in the fixed
order; and a tag may also be written as an object with the tag as its only member and `null` in it.

When `data` stands before `type` it has to be kept until the variant is known. Then the whole of it
must be representable, also what is skipped afterwards, and a tag in it may hold an empty object in
place of `null`.

* `Packet.toJson`, `Packet.ofJson?` -- the two directions, on text.
-/

namespace TextTunnel

open Json (Tree)

namespace Packet

/-! ## 1. Writing -/

/-- The fields of a content, with their names. -/
def contentMembers : Content → List (String × Tree)
  | .message text => [("message", .ofText text)]
  | .startTwoPlayerGame accept game => [("accept", .bool accept), ("game", .ofText game.tag)]
  | .putTicTacToeMark x y => [("x", .ofInteger x.toNat), ("y", .ofInteger y.toNat)]
  | .putConnectFourPiece x => [("x", .ofInteger x.toInt)]

/-- All fields of a packet, with their names. -/
def dataMembers (p : Packet) : List (String × Tree) :=
  ("sender", .ofText p.sender.name) :: ("sender_id", .ofText p.sender.id.toString)
    :: contentMembers p.content

/-- An object with the given members. -/
def objectOf (members : List (String × Tree)) : Tree :=
  .object (members.map fun (name, t) => (Json.unitsOf name, t))

/-- A packet as a document. -/
def toTree (p : Packet) : Tree :=
  objectOf [("type", .ofText p.kind.tag), ("data", objectOf p.dataMembers)]

/-- A packet as compact JSON text. -/
def toJson (p : Packet) : String :=
  p.toTree.compact

/-! ## 2. Objects and arrays of fields -/

/-- The members of an object by name, if each name has its characters. -/
def namedMembers? (members : List (List Json.StringUnit × Tree)) : Option (List (String × Tree)) :=
  members.mapM fun (name, t) => do
    let name ← Json.textOf? name
    return (name, t)

/-- The value of the only member with the given name. -/
def onlyMember? (name : String) (members : List (String × Tree)) : Option Tree :=
  match members.filter fun m => m.1 == name with
  | [(_, t)] => some t
  | _ => none

/-- The values of the named fields, from an object or from an array of as many. -/
def fields? (names : List String) : Tree → Option (List Tree)
  | .array items => if items.length = names.length then some items else none
  | .object members => do
    let members ← namedMembers? members
    names.mapM fun name => onlyMember? name members
  | _ => none

/-- Whether a document can stand for the nothing that a tag carries. -/
def isEmptyContent (kept : Bool) : Tree → Bool
  | .null => true
  | .object [] => kept
  | _ => false

/-- A tag: a string, or an object whose only member it names. -/
def tag? (kept : Bool) : Tree → Option String
  | .string units => Json.textOf? units
  | .object [(name, t)] => if isEmptyContent kept t then Json.textOf? name else none
  | _ => none

/-! ## 3. Field values -/

/-- An id, in any of its text forms. -/
def uuid? (t : Tree) : Option Uuid := do
  let s ← t.text?
  Uuid.ofString? s

/-- An integer from 0 to 255. -/
def byte? (t : Tree) : Option UInt8 := do
  let i ← t.integer?
  if 0 ≤ i ∧ i < 256 then some (UInt8.ofNat i.toNat) else none

/-- A signed 32-bit integer. -/
def signed? (t : Tree) : Option Int32 := do
  let i ← t.integer?
  if -0x80000000 ≤ i ∧ i < 0x80000000 then some (Int32.ofInt i) else none

/-- A game, by its tag. -/
def game? (kept : Bool) (t : Tree) : Option Game := do
  let s ← tag? kept t
  Game.ofTag? s

/-- The names of a variant's own fields, in order. -/
def contentNames : PacketKind → List String
  | .message => ["message"]
  | .startTwoPlayerGame => ["accept", "game"]
  | .putTicTacToeMark => ["x", "y"]
  | .putConnectFourPiece => ["x"]

/-- A content from the values of its fields. -/
def content? (kept : Bool) : PacketKind → List Tree → Option Content
  | .message, [text] => .message <$> text.text?
  | .startTwoPlayerGame, [accept, game] => do
    let accept ← accept.bool?
    let game ← game? kept game
    return .startTwoPlayerGame accept game
  | .putTicTacToeMark, [x, y] => do
    let x ← byte? x
    let y ← byte? y
    return .putTicTacToeMark x y
  | .putConnectFourPiece, [x] => .putConnectFourPiece <$> signed? x
  | _, _ => none

/-- A packet of the given variant from its data. -/
def data? (kept : Bool) (kind : PacketKind) (t : Tree) : Option Packet := do
  let values ← fields? ("sender" :: "sender_id" :: contentNames kind) t
  match values with
  | name :: id :: values =>
    let name ← name.text?
    let id ← uuid? id
    let content ← content? kept kind values
    return ⟨⟨name, id⟩, content⟩
  | _ => none

/-! ## 4. Whole packets -/

/-- The variant that a tag names. -/
def kind? (t : Tree) : Option PacketKind := do
  let s ← tag? false t
  PacketKind.ofTag? s

/-- How deep data may nest that is kept: one level less than a document, which is around it. -/
def keptDepth : Nat := 126

/-- A packet from the members that say what it is, in the order in which they stand. -/
def relevant? : List (String × Tree) → Option Packet
  | [("type", t), ("data", d)] => do
    let kind ← kind? t
    data? false kind d
  | [("data", d), ("type", t)] => do
    let kind ← kind? t
    if d.representable keptDepth then data? true kind d else none
  | _ => none

/-- A packet from a document. -/
def ofTree? : Tree → Option Packet
  | .array [t, d] => relevant? [("type", t), ("data", d)]
  | .object members => do
    let members ← namedMembers? members
    relevant? (members.filter fun m => m.1 == "type" || m.1 == "data")
  | _ => none

/-- A packet from JSON text. -/
def ofJson? (s : String) : Option Packet := do
  let t ← Tree.ofString? s
  ofTree? t

end Packet

end TextTunnel
