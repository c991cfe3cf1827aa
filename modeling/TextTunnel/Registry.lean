import TextTunnel.Packet.Layout

/-!
# The packet registry

A registry assigns a type id and a codec to each packet variant it knows. A *frame* is the type id
as a varint, then the body. Both ends of a tunnel need the same table.

An encoder is given what has been written before it is called: nothing for a body alone, and the
type id for a frame. It may be any function of that. The encoders of the layouts write behind it.

* `Registry.register` -- refused when the id is taken, and else when the variant is.
* `Registry.encode`, `Registry.decode` -- a body alone.
* `Registry.encodeFrame`, `Registry.decodeFrame` -- a frame. Decoding takes exactly one packet: what
  is left over is an error.
-/

namespace TextTunnel

/-- How one variant is written and read. -/
structure Codec where
  /-- What has been written when the encoder is done with a packet, given what was written before. -/
  encode : Packet → Bytes → Except PacketError Bytes
  decode : Reader Packet

namespace Codec

/-- The encoder of one variant's layout; a packet of another variant is refused. -/
def encodeBody (layout : PacketKind) (p : Packet) (written : Bytes) : Except PacketError Bytes :=
  if p.kind = layout then p.writeBody written else .error (.unregisteredKind p.kind)

/-- A codec that writes the layout of one variant and reads that of another. -/
def ofLayouts (encodeKind decodeKind : PacketKind) : Codec :=
  ⟨encodeBody encodeKind, Packet.readBody decodeKind⟩

/-- The codec of a variant's own layout. -/
def ofKind (kind : PacketKind) : Codec :=
  ofLayouts kind kind

end Codec

/-- One line of the table. -/
structure Registration where
  typeId : UInt32
  kind : PacketKind
  codec : Codec

/-- The registered variants, in the order of registration. -/
structure Registry where
  entries : List Registration

namespace Registry

/-- No variant is registered. -/
def empty : Registry := ⟨[]⟩

/-- The line for a type id. -/
def byId? (r : Registry) (id : UInt32) : Option Registration :=
  r.entries.find? fun e => e.typeId == id

/-- The line for a variant. -/
def byKind? (r : Registry) (kind : PacketKind) : Option Registration :=
  r.entries.find? fun e => e.kind == kind

/-- The type id of a variant. -/
def typeId (r : Registry) (kind : PacketKind) : Option UInt32 :=
  (r.byKind? kind).map (·.typeId)

/-- The variant under a type id. -/
def kind (r : Registry) (id : UInt32) : Option PacketKind :=
  (r.byId? id).map (·.kind)

/-! ## 1. Registering -/

/-- Adds a variant under an id that is still free. -/
def register (r : Registry) (id : UInt32) (kind : PacketKind) (codec : Codec) :
    Except PacketError Registry :=
  if (r.byId? id).isSome then .error (.duplicateTypeId id)
  else if (r.byKind? kind).isSome then .error (.duplicateKind kind)
  else .ok ⟨r.entries ++ [⟨id, kind, codec⟩]⟩

/-- Adds a variant with its own layout. -/
def registerBody (r : Registry) (id : UInt32) (kind : PacketKind) : Except PacketError Registry :=
  r.register id kind (Codec.ofKind kind)

/-- The table that all peers use unless they agree on another one: ids 0 to 3. -/
def standard : Registry :=
  ⟨[⟨0, .message, Codec.ofKind .message⟩,
    ⟨1, .startTwoPlayerGame, Codec.ofKind .startTwoPlayerGame⟩,
    ⟨2, .putTicTacToeMark, Codec.ofKind .putTicTacToeMark⟩,
    ⟨3, .putConnectFourPiece, Codec.ofKind .putConnectFourPiece⟩]⟩

/-! ## 2. Bodies and frames -/

/-- The line for a packet's variant, which has to be there to write it. -/
def entryFor (r : Registry) (kind : PacketKind) : Except PacketError Registration :=
  match r.byKind? kind with
  | some e => .ok e
  | none => .error (.unregisteredKind kind)

/-- The body of a packet. -/
def encode (r : Registry) (p : Packet) : Except PacketError Bytes := do
  let e ← r.entryFor p.kind
  e.codec.encode p []

/-- The packet with the given body. -/
def decode (r : Registry) (id : UInt32) (body : Bytes) : Except PacketError Packet :=
  match r.byId? id with
  | some e => e.codec.decode.readAll body
  | none => .error (.unknownPacketType id)

/-- The frame of a packet. -/
def encodeFrame (r : Registry) (p : Packet) : Except PacketError Bytes := do
  let e ← r.entryFor p.kind
  e.codec.encode p (Field.varint e.typeId)

/-- Reads a type id and the body that belongs to it. -/
def readFrame (r : Registry) : Reader Packet := do
  let id ← Reader.varint
  match r.byId? id with
  | some e => e.codec.decode
  | none => Reader.fail (.unknownPacketType id)

/-- The packet with the given frame. -/
def decodeFrame (r : Registry) (frame : Bytes) : Except PacketError Packet :=
  r.readFrame.readAll frame

/-! ## 3. Showing the table -/

/-- The ids and the variants' names, in the order of the ids. -/
def listing (r : Registry) : List (UInt32 × String) :=
  (r.entries.map fun e => (e.typeId, e.kind.name)).mergeSort fun a b => a.1 ≤ b.1

/-- The table as text: each id with the variant's name in quotes. -/
def debugText (r : Registry) : String :=
  let lines := r.listing.map fun (id, name) => toString id ++ ": " ++ Text.quotedString name
  "\x7b" ++ String.intercalate ", " lines ++ "\x7d"

end Registry

end TextTunnel
