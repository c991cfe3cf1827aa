import TextTunnel.Field.Read

/-!
# Rows of fields

A body is a row of fields, written one behind another into one byte string. A reader takes them off
again and is told only their types, so each field must show by itself where it ends.

* `FieldType` -- the types of fields, with what a field of each type holds, and how it is written
  and read.
* `FieldEntry.put`, `FieldEntry.putAll` -- fields are put behind what has been written; one that is
  refused leaves that as it was.
* `FieldEntry.accepted` -- the fields that were not refused, as the answers tell.
* `Reader.row` -- a row of fields of the given types.
-/

namespace TextTunnel

/-! ## 1. Types of fields -/

/-- The type of a field. That of a string has the limit of its characters. -/
inductive FieldType where
  | varint
  | varintSigned
  | byte
  | bool
  | uuid
  | string (maxChars : Nat)
  deriving DecidableEq, Repr

namespace FieldType

/-- What a field holds. -/
def Value : FieldType → Type
  | varint => UInt32
  | varintSigned => Int32
  | byte => UInt8
  | bool => Bool
  | uuid => Uuid
  | string _ => String

/-- The written form of a field. Only strings can be refused. -/
def write : (type : FieldType) → type.Value → Except PacketError Bytes
  | varint, n => .ok (Field.varint n)
  | varintSigned, n => .ok (Field.varintSigned n)
  | byte, b => .ok [b]
  | bool, b => .ok (Field.bool b)
  | uuid, u => .ok (Field.uuid u)
  | string maxChars, s => Field.string maxChars s

/-- Takes a field of the type off the front. -/
def read : (type : FieldType) → Reader type.Value
  | varint => Reader.varint
  | varintSigned => Reader.varintSigned
  | byte => Reader.byte
  | bool => Reader.bool
  | uuid => Reader.uuid
  | string maxChars => Reader.string maxChars

end FieldType

/-! ## 2. Writing a row -/

/-- A field: a type, and a value of it. -/
structure FieldEntry where
  type : FieldType
  value : type.Value

namespace FieldEntry

/-- Puts a field behind what has been written. -/
def put (written : Bytes) (e : FieldEntry) : Except PacketError Unit × Bytes :=
  match e.type.write e.value with
  | .ok bs => (.ok (), written ++ bs)
  | .error err => (.error err, written)

/-- Puts fields behind what has been written, one after another, whatever becomes of each. -/
def putAll (written : Bytes) : List FieldEntry → List (Except PacketError Unit) × Bytes
  | [] => ([], written)
  | e :: es =>
    let first := e.put written
    let others := putAll first.2 es
    (first.1 :: others.1, others.2)

/-- The fields that were not refused, as the answers tell. -/
def accepted (es : List FieldEntry) (answers : List (Except PacketError Unit)) :
    List FieldEntry :=
  ((es.zip answers).filter fun p => p.2.isOk).map (·.1)

end FieldEntry

/-! ## 3. Reading a row -/

/-- Fields of the given types, one after another. -/
def Reader.row : List FieldType → Reader (List FieldEntry)
  | [] => pure []
  | type :: types => do
    let value ← type.read
    let others ← row types
    pure (⟨type, value⟩ :: others)

end TextTunnel
