import TextTunnel.Proofs.Except
import TextTunnel.Proofs.Field.RoundTrip
import TextTunnel.Registry

/-!
# Frames come back

A registry that was built by registering variants with their own layouts, one after another, finds
each of its lines by the type id as well as by the variant, and every line holds the codec of its
own variant. So the frame that it writes for a packet is read as that packet.

* `Registry.Built` -- built from the empty registry by successful registrations.
* `Appends`, `Packet.appends_writeBody` -- writing behind what is there, whatever it is.
* `Packet.exact_body` -- the body of each variant.
* `encodeFrame_eq_ok_iff`, `encode_eq_ok_iff`, `decode_of_typeId` -- what a built registry does with
  a variant that it has.
* `exact_frame`, `decodeFrame_encodeFrame` -- frames.
-/

namespace TextTunnel

/-! ## 1. Writing behind what is there -/

/-- The writer puts the same bytes behind anything that has been written, or refuses for the same
reason. -/
def Appends (write : Bytes → Except PacketError Bytes) : Prop :=
  ∀ written, write written = (write []).map (written ++ ·)

section Appends

variable {f g : Bytes → Except PacketError Bytes}

theorem appends_bytes (bs : Bytes) : Appends fun written => .ok (written ++ bs) :=
  fun _ => rfl

theorem appends_putString (maxChars : Nat) (s : String) : Appends (Field.putString maxChars s) := by
  intro written
  rw [Field.putString, Field.putString]
  cases Field.string maxChars s <;> rfl

theorem appends_error (e : PacketError) : Appends fun _ => .error e :=
  fun _ => rfl

/-- One writer after another. -/
theorem Appends.bind (hf : Appends f) (hg : Appends g) :
    Appends fun written => f written >>= g := by
  intro written
  dsimp only
  rw [hf written]
  cases f [] with
  | error e => rfl
  | ok bs =>
    change g (written ++ bs) = (g bs).map (written ++ ·)
    rw [hg (written ++ bs), hg bs]
    cases g [] with
    | error e => rfl
    | ok bs' => exact congrArg Except.ok (List.append_assoc written bs bs')

/-- A check in front of a writer. -/
theorem Appends.check (hf : Appends f) (x : Except PacketError Unit) :
    Appends fun written => x >>= fun _ => f written := by
  cases x with
  | error e => exact appends_error e
  | ok u => exact hf

/-- What is written behind something else, told from what is written alone. -/
theorem Appends.eq_ok_iff (hf : Appends f) {written all : Bytes} :
    f written = .ok all ↔ ∃ bs, f [] = .ok bs ∧ all = written ++ bs := by
  rw [hf written]
  cases f [] with
  | error e =>
    constructor
    · intro h
      cases h
    · rintro ⟨_, h, -⟩
      cases h
  | ok bs =>
    constructor
    · intro h
      exact ⟨bs, rfl, (Except.ok.inj h).symm⟩
    · rintro ⟨bs', hbs, rfl⟩
      obtain rfl := Except.ok.inj hbs
      rfl

theorem Appends.eq_error_iff (hf : Appends f) {written : Bytes} {e : PacketError} :
    f written = .error e ↔ f [] = .error e := by
  rw [hf written]
  cases f [] with
  | error e' => rfl
  | ok bs =>
    constructor
    · intro h
      cases h
    · intro h
      cases h

end Appends

theorem appends_writeAuthor (author : Peer) : Appends (writeAuthor author) :=
  (appends_putString Wire.maxSenderChars author.name).bind (appends_bytes (Field.uuid author.id))

namespace Packet

/-- **Bodies are appended**, in all four layouts. -/
theorem appends_writeBody (p : Packet) : Appends p.writeBody := by
  obtain ⟨sender, content⟩ := p
  have hauthor := appends_writeAuthor sender
  cases content with
  | message text => exact hauthor.bind (appends_putString Wire.maxMessageChars text)
  | startTwoPlayerGame accept game =>
    have haccept := hauthor.bind (appends_bytes (Field.bool accept))
    have hall := haccept.bind (appends_putString Wire.maxIdChars game.id)
    intro written
    have h := hall written
    simp only [bind_assoc] at h
    exact h
  | putTicTacToeMark x y => exact (hauthor.bind (appends_bytes [x, y])).check (checkTicTacToe x y)
  | putConnectFourPiece x =>
    exact (hauthor.bind (appends_bytes (Field.varintSigned x))).check (checkConnectFour x)

end Packet

/-! ## 2. Bodies -/

namespace Packet

theorem exact_author {author : Peer} {bs : Bytes} (h : writeAuthor author [] = .ok bs) :
    Exact readAuthor bs author := by
  obtain ⟨name, hname, hbs⟩ := bind_eq_ok.mp h
  obtain ⟨own, hown, hname⟩ := bind_eq_ok.mp hname
  obtain rfl := Except.ok.inj hname
  obtain rfl := Except.ok.inj hbs
  exact (exact_string (by decide) hown).bind ((exact_uuid author.id).bind_pure rfl)

/-- The body of a content comes back behind its author. -/
theorem exact_content {p : Packet} {bs : Bytes} (h : p.writeBody [] = .ok bs) :
    ∃ author own, bs = author ++ own ∧ writeAuthor p.sender [] = .ok author ∧
      Exact (readContent p.kind) own p.content := by
  obtain ⟨sender, content⟩ := p
  cases content with
  | message text =>
    obtain ⟨author, ha, h⟩ := bind_eq_ok.mp h
    obtain ⟨own, ho, h⟩ := bind_eq_ok.mp h
    obtain rfl := Except.ok.inj h
    exact ⟨author, own, rfl, ha, (exact_string (by decide) ho).bind_pure rfl⟩
  | startTwoPlayerGame accept game =>
    obtain ⟨author, ha, h⟩ := bind_eq_ok.mp h
    obtain ⟨id, hid, h⟩ := bind_eq_ok.mp h
    obtain rfl := Except.ok.inj h
    refine ⟨author, _, List.append_assoc .., ha, (exact_bool accept).bind ?_⟩
    refine (exact_string (by decide) hid).bind_pure ?_
    rw [Game.ofId?_id]
  | putTicTacToeMark x y =>
    obtain ⟨⟨⟩, hc, h⟩ := bind_eq_ok.mp h
    obtain ⟨author, ha, h⟩ := bind_eq_ok.mp h
    obtain rfl := Except.ok.inj h
    refine ⟨author, _, rfl, ha, ?_⟩
    refine Exact.cons ((exact_byte y).bind_pure ?_)
    rw [hc]
    rfl
  | putConnectFourPiece x =>
    obtain ⟨⟨⟩, hc, h⟩ := bind_eq_ok.mp h
    obtain ⟨author, ha, h⟩ := bind_eq_ok.mp h
    obtain rfl := Except.ok.inj h
    refine ⟨author, _, rfl, ha, (exact_varintSigned x).bind_pure ?_⟩
    rw [hc]
    rfl

/-- **Bodies come back**, for all four layouts. -/
theorem exact_body {p : Packet} {bs : Bytes} (h : p.writeBody [] = .ok bs) :
    Exact (readBody p.kind) bs p := by
  obtain ⟨author, own, rfl, ha, hown⟩ := exact_content h
  exact (exact_author ha).bind (hown.bind_pure rfl)

end Packet

/-! ## 3. Built registries -/

namespace Registry

/-- Built from the empty registry by successful registrations of variants with their own layouts. -/
inductive Built : Registry → Prop where
  | empty : Built .empty
  | step {r r' : Registry} (id : UInt32) (kind : PacketKind) :
      Built r → r.registerBody id kind = .ok r' → Built r'

/-- The usual table is built. -/
theorem built_standard : Built standard := by
  have h1 : Built ⟨standard.entries.take 1⟩ := .step 0 .message .empty rfl
  have h2 : Built ⟨standard.entries.take 2⟩ := .step 1 .startTwoPlayerGame h1 rfl
  have h3 : Built ⟨standard.entries.take 3⟩ := .step 2 .putTicTacToeMark h2 rfl
  exact .step 3 .putConnectFourPiece h3 rfl

/-- What a successful registration does: the id and the variant were free, and the line stands at
the end. -/
theorem registerBody_ok {r r' : Registry} {id : UInt32} {kind : PacketKind}
    (h : r.registerBody id kind = .ok r') :
    r.byId? id = none ∧ r.byKind? kind = none ∧
      r'.entries = r.entries ++ [⟨id, kind, Codec.ofKind kind⟩] := by
  rw [registerBody, register] at h
  split at h
  · exact absurd h (by simp)
  · next hid =>
    split at h
    · exact absurd h (by simp)
    · next hkind =>
      obtain rfl := Except.ok.inj h
      exact ⟨by simpa using hid, by simpa using hkind, rfl⟩

/-- **The invariant of a built registry**: each line has the codec of its variant and is the one
that is found under its id and under its variant. -/
theorem Built.entry {r : Registry} (h : r.Built) :
    ∀ e ∈ r.entries, e.codec = Codec.ofKind e.kind ∧ r.byId? e.typeId = some e ∧
      r.byKind? e.kind = some e := by
  induction h with
  | empty => exact fun e he => absurd he (List.not_mem_nil)
  | @step r _ id kind _ hr ih =>
    obtain ⟨hid, hkind, hentries⟩ := registerBody_ok hr
    intro e he
    rw [hentries, List.mem_append, List.mem_singleton] at he
    rw [byId?, byKind?, hentries, List.find?_append, List.find?_append]
    rcases he with he | rfl
    · obtain ⟨hcodec, hfind, hfindKind⟩ := ih e he
      rw [byId?] at hfind
      rw [byKind?] at hfindKind
      exact ⟨hcodec, by rw [hfind]; rfl, by rw [hfindKind]; rfl⟩
    · rw [byId?] at hid
      rw [byKind?] at hkind
      refine ⟨rfl, ?_, ?_⟩
      · rw [hid]
        simp
      · rw [hkind]
        simp

/-- **The line of a registered variant** is found by the variant and by its id, and holds the
variant's own codec. -/
theorem Built.line {r : Registry} (h : r.Built) {kind : PacketKind} {id : UInt32}
    (hid : r.typeId kind = some id) :
    r.entryFor kind = .ok ⟨id, kind, Codec.ofKind kind⟩ ∧
      r.byId? id = some ⟨id, kind, Codec.ofKind kind⟩ := by
  obtain ⟨⟨id, kind', codec⟩, hfind, rfl⟩ := Option.map_eq_some_iff.mp hid
  have hkind : kind' = kind := by simpa using List.find?_some hfind
  subst hkind
  obtain ⟨hcodec, hbyId, -⟩ := h.entry _ (List.mem_of_find?_eq_some hfind)
  dsimp only at hcodec hbyId
  subst hcodec
  exact ⟨by rw [entryFor, hfind], hbyId⟩

/-- **The line under an id** belongs to a variant that has this id. -/
theorem Built.line_of_id {r : Registry} (h : r.Built) {id : UInt32} {e : Registration}
    (hid : r.byId? id = some e) :
    r.typeId e.kind = some id ∧ e.codec = Codec.ofKind e.kind := by
  obtain ⟨hcodec, -, hkind⟩ := h.entry e (List.mem_of_find?_eq_some hid)
  have htype : e.typeId = id := by simpa using List.find?_some hid
  refine ⟨?_, hcodec⟩
  rw [typeId, hkind, Option.map_some, htype]

theorem Built.entryFor_eq_ok_iff {r : Registry} (h : r.Built) {kind : PacketKind}
    {e : Registration} :
    r.entryFor kind = .ok e ↔
      ∃ id, r.typeId kind = some id ∧ e = ⟨id, kind, Codec.ofKind kind⟩ := by
  constructor
  · intro he
    cases hid : r.typeId kind with
    | some id => exact ⟨id, rfl, Except.ok.inj (he.symm.trans (h.line hid).1)⟩
    | none =>
      rw [entryFor, Option.map_eq_none_iff.mp hid] at he
      exact nomatch he
  · rintro ⟨id, hid, rfl⟩
    exact (h.line hid).1

/-! ## 4. Frames -/

theorem encode_ofKind (p : Packet) : (Codec.ofKind p.kind).encode p = p.writeBody :=
  funext fun _ => if_pos rfl

section Built

variable {r : Registry} (hr : r.Built) {p : Packet}
include hr

/-- The body of a packet of a registered variant. -/
theorem encode_eq_ok_iff {body : Bytes} :
    r.encode p = .ok body ↔ ∃ id, r.typeId p.kind = some id ∧ p.writeBody [] = .ok body := by
  rw [encode, bind_eq_ok]
  constructor
  · rintro ⟨e, he, hbody⟩
    obtain ⟨id, hid, rfl⟩ := hr.entryFor_eq_ok_iff.mp he
    exact ⟨id, hid, encode_ofKind p ▸ hbody⟩
  · rintro ⟨id, hid, hbody⟩
    exact ⟨_, (hr.line hid).1, (encode_ofKind p).symm ▸ hbody⟩

/-- The frame of a packet: the id of its variant, then its body. -/
theorem encodeFrame_eq_ok_iff {frame : Bytes} :
    r.encodeFrame p = .ok frame ↔ ∃ id body, r.typeId p.kind = some id ∧
      p.writeBody [] = .ok body ∧ frame = Field.varint id ++ body := by
  rw [encodeFrame, bind_eq_ok]
  constructor
  · rintro ⟨e, he, hframe⟩
    obtain ⟨id, hid, rfl⟩ := hr.entryFor_eq_ok_iff.mp he
    obtain ⟨body, hbody, rfl⟩ := p.appends_writeBody.eq_ok_iff.mp (encode_ofKind p ▸ hframe)
    exact ⟨id, body, hid, hbody, rfl⟩
  · rintro ⟨id, body, hid, hbody, rfl⟩
    have hframe : p.writeBody (Field.varint id) = .ok (Field.varint id ++ body) :=
      p.appends_writeBody.eq_ok_iff.mpr ⟨body, hbody, rfl⟩
    exact ⟨_, (hr.line hid).1, (encode_ofKind p).symm ▸ hframe⟩

/-- The bytes under the id of a registered variant are read in the variant's own layout. -/
theorem decode_of_typeId {kind : PacketKind} {id : UInt32} (hid : r.typeId kind = some id)
    (body : Bytes) : r.decode id body = (Packet.readBody kind).readAll body := by
  rw [decode, (hr.line hid).2]
  rfl

theorem exact_frame {frame : Bytes} (h : r.encodeFrame p = .ok frame) :
    Exact r.readFrame frame p := by
  obtain ⟨id, body, hid, hbody, rfl⟩ := (encodeFrame_eq_ok_iff hr).mp h
  refine (exact_varint id).bind ?_
  rw [(hr.line hid).2]
  exact Packet.exact_body hbody

/-- **Frames come back**, in every built registry and for every packet that it writes. -/
theorem decodeFrame_encodeFrame {frame : Bytes} (h : r.encodeFrame p = .ok frame) :
    r.decodeFrame frame = .ok p :=
  (exact_frame hr h).readAll

end Built

end Registry

end TextTunnel
