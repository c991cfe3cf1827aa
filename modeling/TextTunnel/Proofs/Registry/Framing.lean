import TextTunnel.Proofs.Registry.Frames

/-!
# A frame is a type id and a body

A registry writes and reads bodies alone, and whole frames. Both ways of writing look for the
variant's line and run its encoder, on nothing for a body and behind the id for a frame; both ways of
reading look for the id's line, run its decoder and refuse what is left; but each is written out for
itself. Here they are compared, in any registry, whatever codecs stand in it: a line may well write
the layout of one variant and read that of another.

A decoder may be any function of the bytes that are left, and the ways of reading agree all the same.
An encoder sees what has been written before it, so the ways of writing agree if it writes behind
that and does not look at it, as the layouts' encoders do. One that looks can tell a frame from a
body.

* `AppendsFor`, `appendsFor_of_layouts` -- encoders that write behind what is there.
* `encodeFrame_of_encode`, `encodeFrame_eq_error_iff` -- with them, writing a frame is writing the
  body behind the id of the variant.
* `decodeFrame_eq` -- reading a frame is reading an id, and then the rest as a body under it.
* `decode_of_line`, `decode_of_leftover`, `decode_of_free` -- what a body is under an id.
* `frames_agree` -- the comparison, with all errors; `encoder_sees_typeId` -- an encoder that looks.
-/

namespace TextTunnel

/-! ## 1. Reading a whole byte string -/

namespace Reader

variable {α β : Type}

/-- What a whole byte string is, told from what the reader makes of its front. -/
theorem readAll_eq (r : Reader α) (input : Bytes) :
    r.readAll input =
      match r input with
      | (.ok a, []) => .ok a
      | (.ok _, rest) => .error (.malformed (.trailingBytes rest.length))
      | (.error e, _) => .error e := by
  unfold readAll
  rw [bind_apply]
  rcases r input with ⟨e | a, rest⟩
  · rfl
  · cases rest <;> rfl

/-- The second of two readers decides what the rest is. -/
theorem readAll_bind (r : Reader α) (f : α → Reader β) (input : Bytes) :
    (r >>= f).readAll input =
      match r input with
      | (.ok a, rest) => (f a).readAll rest
      | (.error e, _) => .error e := by
  rw [readAll_eq, bind_apply]
  rcases r input with ⟨e | a, rest⟩
  · rfl
  · exact (readAll_eq (f a) rest).symm

end Reader

/-- The encoder of a layout writes behind what is there. -/
theorem Codec.appends_encodeBody (layout : PacketKind) (p : Packet) :
    Appends (encodeBody layout p) := by
  by_cases hkind : p.kind = layout
  · have hbody : encodeBody layout p = p.writeBody := funext fun _ => if_pos hkind
    rw [hbody]
    exact p.appends_writeBody
  · have hrefuses : encodeBody layout p = fun _ => .error (.unregisteredKind p.kind) :=
      funext fun _ => if_neg hkind
    rw [hrefuses]
    exact appends_error _

namespace Registry

variable (r : Registry)

/-! ## 2. Writing -/

/-- The encoder of the packet's line, if there is one, writes the packet behind what is there. -/
def AppendsFor (p : Packet) : Prop :=
  ∀ e, r.byKind? p.kind = some e → Appends (e.codec.encode p)

/-- The layouts' encoders do, also in lines of other variants. -/
theorem appendsFor_of_layouts
    (h : ∀ e ∈ r.entries, ∃ kind kind', e.codec = Codec.ofLayouts kind kind') (p : Packet) :
    r.AppendsFor p := by
  intro e he
  obtain ⟨kind, kind', hcodec⟩ := h e (List.mem_of_find?_eq_some he)
  rw [hcodec]
  exact Codec.appends_encodeBody kind p

variable {r} {p : Packet} (happends : r.AppendsFor p)
include happends

/-- A packet that has a body is of a variant with an id, and its frame is the id and the body. -/
theorem encodeFrame_of_encode {body : Bytes} (h : r.encode p = .ok body) :
    ∃ id, r.typeId p.kind = some id ∧ r.encodeFrame p = .ok (Field.varint id ++ body) := by
  unfold encode entryFor at h
  unfold encodeFrame entryFor typeId
  cases hline : r.byKind? p.kind with
  | none =>
    rw [hline] at h
    cases h
  | some e =>
    rw [hline] at h
    exact ⟨e.typeId, rfl, (happends e hline).eq_ok_iff.mpr ⟨body, h, rfl⟩⟩

/-- A packet has no frame for the reason for which it has no body. -/
theorem encodeFrame_eq_error_iff {e : PacketError} :
    r.encodeFrame p = .error e ↔ r.encode p = .error e := by
  unfold encodeFrame encode entryFor
  cases hline : r.byKind? p.kind with
  | none => rfl
  | some line => exact (happends line hline).eq_error_iff

omit happends
variable (r)

/-! ## 3. Reading -/

/-- **Reading a frame** is reading an id, in any of the forms that a number has, and then the rest as
a body under this id. -/
theorem decodeFrame_eq (frame : Bytes) :
    r.decodeFrame frame =
      match Reader.varint frame with
      | (.ok id, body) => r.decode id body
      | (.error e, _) => .error e := by
  unfold decodeFrame readFrame
  rw [Reader.readAll_bind]
  rcases Reader.varint frame with ⟨e | id, body⟩
  · rfl
  · dsimp only
    unfold decode
    cases r.byId? id with
    | none => rfl
    | some line => rfl

theorem decodeFrame_varint (id : UInt32) (body : Bytes) :
    r.decodeFrame (Field.varint id ++ body) = r.decode id body := by
  rw [decodeFrame_eq, (exact_varint id).reads]

/-- Under an id that is not in use there is no body at all. -/
theorem decode_of_free {id : UInt32} (h : r.kind id = none) (body : Bytes) :
    r.decode id body = .error (.unknownPacketType id) := by
  have hline : r.byId? id = none := by simpa [kind] using h
  unfold decode
  rw [hline]

/-- The line under an id decides what a body is. -/
theorem decode_of_line {id : UInt32} {e : Registration} (h : r.byId? id = some e) (body : Bytes) :
    r.decode id body = e.codec.decode.readAll body := by
  unfold decode
  rw [h]

/-- What the decoder leaves is counted, byte by byte. -/
theorem decode_of_leftover {id : UInt32} {e : Registration} (h : r.byId? id = some e)
    {body rest : Bytes} {p : Packet} (hread : e.codec.decode body = (.ok p, rest))
    (hne : rest ≠ []) : r.decode id body = .error (.malformed (.trailingBytes rest.length)) := by
  rw [r.decode_of_line h, Reader.readAll_eq, hread]
  cases rest with
  | nil => exact absurd rfl hne
  | cons b rest => rfl

/-! ## 4. The comparison -/

/-- **Frames and bodies agree**, in any registry, whatever its lines are, as far as its encoders
write behind what is there. Those of the layouts do, whichever variants they stand for.

* A packet that has a body has a frame then: the id of its variant as a number, and that body.
* A packet that has no body has no frame either, for the same reason, and the other way round.
* Behind any id as a number, any bytes at all are the frame of what they are as a body under that
  id, with any decoder: the same packet, or no packet for the same reason.
* In particular nothing is a body under an id that is not in use, and bytes that a decoder leaves
  are counted alike. -/
theorem frames_agree :
    ((∀ e ∈ r.entries, ∃ kind kind', e.codec = Codec.ofLayouts kind kind') →
      ∀ p, r.AppendsFor p) ∧
    (∀ p body, r.AppendsFor p → r.encode p = .ok body →
      ∃ id, r.typeId p.kind = some id ∧ r.encodeFrame p = .ok (Field.varint id ++ body)) ∧
    (∀ p e, r.AppendsFor p → (r.encodeFrame p = .error e ↔ r.encode p = .error e)) ∧
    (∀ id body, r.decodeFrame (Field.varint id ++ body) = r.decode id body) ∧
    (∀ id body, r.kind id = none →
      r.decode id body = .error (.unknownPacketType id) ∧
        r.decodeFrame (Field.varint id ++ body) = .error (.unknownPacketType id)) ∧
    ∀ id e body p rest, r.byId? id = some e → e.codec.decode body = (.ok p, rest) → rest ≠ [] →
      r.decode id body = .error (.malformed (.trailingBytes rest.length)) ∧
        r.decodeFrame (Field.varint id ++ body)
          = .error (.malformed (.trailingBytes rest.length)) := by
  refine ⟨r.appendsFor_of_layouts, fun p body happends h => encodeFrame_of_encode happends h,
    fun p e happends => encodeFrame_eq_error_iff happends, r.decodeFrame_varint, ?_, ?_⟩
  · intro id body h
    rw [decodeFrame_varint]
    exact ⟨r.decode_of_free h body, r.decode_of_free h body⟩
  · intro id e body p rest hline hread hne
    rw [decodeFrame_varint]
    exact ⟨r.decode_of_leftover hline hread hne, r.decode_of_leftover hline hread hne⟩

/-- Lines that write messages and read moves: one for moves, and one for messages. -/
def crossedLines : Registry :=
  ⟨[⟨300, .putConnectFourPiece, Codec.ofLayouts .message .putConnectFourPiece⟩,
    ⟨7, .message, Codec.ofLayouts .message .putConnectFourPiece⟩]⟩

/-- What Zoë says. -/
def zoesWord : Packet :=
  ⟨(zoesMove 6).sender, .message "!"⟩

/-- Her name and id, and the text. -/
def zoesWordBody : Bytes :=
  [4, 90, 111, 195, 171] ++ List.replicate 16 9 ++ [1, 33]

/-- Zoë's word has a body and a frame. Her move cannot be written by those lines, neither alone nor
as a frame; with two bytes behind it, it is too long either way. -/
theorem frames_agree_crossedLines :
    (crossedLines.encode zoesWord = .ok zoesWordBody ∧
      crossedLines.encodeFrame zoesWord = .ok (Field.varint 7 ++ zoesWordBody)) ∧
    (crossedLines.encode (zoesMove 6) = .error (.unregisteredKind .putConnectFourPiece) ∧
      crossedLines.encodeFrame (zoesMove 6) = .error (.unregisteredKind .putConnectFourPiece)) ∧
    crossedLines.decode 300 (zoesFrame.drop 2 ++ [0, 0])
        = .error (.malformed (.trailingBytes 2)) ∧
      crossedLines.decodeFrame (Field.varint 300 ++ (zoesFrame.drop 2 ++ [0, 0]))
        = .error (.malformed (.trailingBytes 2)) := by
  obtain ⟨hlayouts, hframe, herror, -, -, hleft⟩ := frames_agree crossedLines
  have happends := hlayouts (by simp [crossedLines, Codec.ofLayouts])
  have hword : crossedLines.encode zoesWord = .ok zoesWordBody := by decide +kernel
  have hmove : crossedLines.encode (zoesMove 6)
      = .error (.unregisteredKind .putConnectFourPiece) := by decide
  have hread : (Codec.ofLayouts .message .putConnectFourPiece).decode (zoesFrame.drop 2 ++ [0, 0])
      = (.ok (zoesMove 6), [0, 0]) := by
    decide +kernel
  obtain ⟨id, hid, hwritten⟩ := hframe zoesWord zoesWordBody (happends zoesWord) hword
  obtain rfl : 7 = id := Option.some.inj hid
  exact ⟨⟨hword, hwritten⟩, ⟨hmove, (herror _ _ (happends (zoesMove 6))).mpr hmove⟩,
    hleft 300 _ _ _ _ rfl hread (by decide)⟩

/-- A codec whose encoder writes a one where nothing has been written, and a two where something
has. -/
def curiousCodec : Codec :=
  ⟨fun _ written => .ok (written ++ [if written.isEmpty then 1 else 2]), Packet.readBody .message⟩

/-- **An encoder that looks sees the type id.**  The codec can be registered like any other, and the
frame of a packet is not its body behind the id. -/
theorem encoder_sees_typeId :
    Registry.empty.register 300 .message curiousCodec = .ok ⟨[⟨300, .message, curiousCodec⟩]⟩ ∧
      Registry.typeId ⟨[⟨300, .message, curiousCodec⟩]⟩ zoesWord.kind = some 300 ∧
      Registry.encode ⟨[⟨300, .message, curiousCodec⟩]⟩ zoesWord = .ok [1] ∧
      Registry.encodeFrame ⟨[⟨300, .message, curiousCodec⟩]⟩ zoesWord
        = .ok (Field.varint 300 ++ [2]) ∧
      Registry.encodeFrame ⟨[⟨300, .message, curiousCodec⟩]⟩ zoesWord
        ≠ .ok (Field.varint 300 ++ [1]) := by
  have hframe : Registry.encodeFrame ⟨[⟨300, .message, curiousCodec⟩]⟩ zoesWord
      = .ok (Field.varint 300 ++ [2]) := by decide +kernel
  refine ⟨rfl, rfl, rfl, hframe, fun h => ?_⟩
  rw [hframe, Except.ok.injEq, List.append_cancel_left_eq] at h
  exact absurd h (by decide)

end Registry

end TextTunnel
