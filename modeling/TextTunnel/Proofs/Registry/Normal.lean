import TextTunnel.Proofs.Field.Accepted
import TextTunnel.Proofs.Registry.Frames

/-!
# Frames that are read can be written again

A frame that comes from somebody else need not be one that a registry would write: its numbers may
be padded, or have bits for which there is no place. But whatever is read from it is a packet within
the limits, so it has a frame of its own, the *normal* one, and this is never longer.

* `Packet.rewritable_author`, `Packet.readContent_accepts`, `Packet.readBody_accepts` -- what the
  readers of the layouts accept can be written.
* `Registry.reframe` -- reads a frame and writes the packet again.
* `Registry.decodeFrame_normalises` -- reading, writing and reading again.
-/

namespace TextTunnel

/-! ## 1. Layouts -/

namespace Packet

theorem rewritable_author : Rewritable readAuthor fun author => writeAuthor author [] := by
  intro input author rest h
  obtain ⟨name, mid, hname, hbody⟩ := Reader.bind_eq_ok.mp h
  obtain ⟨id, rest', hid, hend⟩ := Reader.bind_eq_ok.mp hbody
  obtain ⟨rfl, rfl⟩ := Reader.pure_eq_ok.mp hend
  obtain ⟨nameBytes, hwrite, hnameLen⟩ := rewritable_string _ hname
  obtain ⟨idBytes, hidBytes, hidLen⟩ := rewritable_uuid hid
  obtain rfl := Except.ok.inj hidBytes
  refine ⟨nameBytes ++ Field.uuid id, ?_, ?_⟩
  · simp only [writeAuthor, Field.putString, hwrite, ok_bind]
    rfl
  · rw [List.length_append]
    omega

/-- A game that an id names has that id. -/
theorem id_of_ofId? {id : String} {game : Game} (h : Game.ofId? id = some game) : game.id = id := by
  simpa using List.find?_some h

/-- **The content of one variant.**  What is read in a variant's layout is of that variant, and
behind any author it can be written in no more bytes. -/
theorem readContent_accepts {kind : PacketKind} {input rest : Bytes} {content : Content}
    (h : readContent kind input = (.ok content, rest)) :
    content.kind = kind ∧ ∀ sender author, writeAuthor sender [] = .ok author →
      ∃ own, (⟨sender, content⟩ : Packet).writeBody [] = .ok (author ++ own) ∧
        own.length + rest.length ≤ input.length := by
  cases kind with
  | message =>
    obtain ⟨text, mid, htext, hend⟩ := Reader.bind_eq_ok.mp h
    obtain ⟨rfl, rfl⟩ := Reader.pure_eq_ok.mp hend
    obtain ⟨own, hown, hlen⟩ := rewritable_string _ htext
    refine ⟨rfl, fun sender author hauthor => ⟨own, ?_, hlen⟩⟩
    simp only [writeBody, Field.putString, hauthor, hown, ok_bind]
    rfl
  | startTwoPlayerGame =>
    obtain ⟨accept, mid, haccept, hbody⟩ := Reader.bind_eq_ok.mp h
    obtain ⟨id, rest', hid, hend⟩ := Reader.bind_eq_ok.mp hbody
    obtain ⟨acceptBytes, hacceptBytes, hacceptLen⟩ := rewritable_bool haccept
    obtain rfl := Except.ok.inj hacceptBytes
    obtain ⟨idBytes, hidBytes, hidLen⟩ := rewritable_string _ hid
    cases hgame : Game.ofId? id with
    | none => simp [hgame] at hend
    | some game =>
      rw [hgame] at hend
      obtain ⟨rfl, rfl⟩ := Reader.pure_eq_ok.mp hend
      refine ⟨rfl, fun sender author hauthor => ⟨Field.bool accept ++ idBytes, ?_, ?_⟩⟩
      · simp only [writeBody, Field.putString, hauthor, id_of_ofId? hgame, hidBytes, ok_bind]
        exact congrArg Except.ok (List.append_assoc ..)
      · rw [List.length_append]
        omega
  | putTicTacToeMark =>
    obtain ⟨x, mid, hx, hbody⟩ := Reader.bind_eq_ok.mp h
    obtain ⟨y, mid', hy, hcheck⟩ := Reader.bind_eq_ok.mp hbody
    obtain ⟨⟨⟩, rest', hfits, hend⟩ := Reader.bind_eq_ok.mp hcheck
    obtain ⟨hok, rfl⟩ := Reader.ofExcept_eq_ok.mp hfits
    obtain ⟨rfl, rfl⟩ := Reader.pure_eq_ok.mp hend
    refine ⟨rfl, fun sender author hauthor => ⟨[x, y], ?_, ?_⟩⟩
    · simp only [writeBody, hauthor, hok, ok_bind]
      rfl
    · rw [byte_accepts hx, byte_accepts hy]
      simp only [List.length_cons, List.length_nil]
      omega
  | putConnectFourPiece =>
    obtain ⟨x, mid, hx, hcheck⟩ := Reader.bind_eq_ok.mp h
    obtain ⟨⟨⟩, rest', hfits, hend⟩ := Reader.bind_eq_ok.mp hcheck
    obtain ⟨hok, rfl⟩ := Reader.ofExcept_eq_ok.mp hfits
    obtain ⟨rfl, rfl⟩ := Reader.pure_eq_ok.mp hend
    obtain ⟨own, hown, hlen⟩ := rewritable_varintSigned hx
    obtain rfl := Except.ok.inj hown
    refine ⟨rfl, fun sender author hauthor => ⟨_, ?_, hlen⟩⟩
    simp only [writeBody, hauthor, hok, ok_bind]
    rfl

/-- **Bodies.**  What is read in a variant's layout is a packet of that variant, which can be written
in no more bytes. -/
theorem readBody_accepts {kind : PacketKind} {input rest : Bytes} {p : Packet}
    (h : readBody kind input = (.ok p, rest)) :
    p.kind = kind ∧ ∃ bs, p.writeBody [] = .ok bs ∧ bs.length + rest.length ≤ input.length := by
  obtain ⟨sender, mid, hsender, hbody⟩ := Reader.bind_eq_ok.mp h
  obtain ⟨content, rest', hcontent, hend⟩ := Reader.bind_eq_ok.mp hbody
  obtain ⟨rfl, rfl⟩ := Reader.pure_eq_ok.mp hend
  obtain ⟨author, hauthor, hauthorLen⟩ := rewritable_author hsender
  obtain ⟨hkind, hwrite⟩ := readContent_accepts hcontent
  obtain ⟨own, hown, hownLen⟩ := hwrite sender author hauthor
  refine ⟨hkind, author ++ own, hown, ?_⟩
  rw [List.length_append]
  omega

end Packet

/-! ## 2. Frames -/

namespace Registry

/-- Reads a frame and writes the packet in it again. -/
def reframe (r : Registry) (frame : Bytes) : Except PacketError Bytes := do
  let p ← r.decodeFrame frame
  r.encodeFrame p

/-- A frame that is read has a packet of a registered variant, which has a frame that is not
longer. -/
theorem exists_encodeFrame {r : Registry} (hr : r.Built) {frame : Bytes} {p : Packet}
    (h : r.decodeFrame frame = .ok p) :
    ∃ normal, r.encodeFrame p = .ok normal ∧ normal.length ≤ frame.length := by
  obtain ⟨id, mid, hid, hbody⟩ := Reader.bind_eq_ok.mp (Reader.readAll_eq_ok.mp h)
  obtain ⟨idBytes, hidBytes, hidLen⟩ := rewritable_varint hid
  obtain rfl := Except.ok.inj hidBytes
  cases he : r.byId? id with
  | none => simp [he] at hbody
  | some e =>
    obtain ⟨htype, hcodec⟩ := hr.line_of_id he
    rw [he] at hbody
    simp only [hcodec] at hbody
    obtain ⟨hkind, body, hwrite, hlen⟩ := Packet.readBody_accepts hbody
    rw [← hkind] at htype
    refine ⟨Field.varint id ++ body, ?_, ?_⟩
    · exact (encodeFrame_eq_ok_iff hr).mpr ⟨id, body, htype, hwrite, rfl⟩
    · rw [List.length_append]
      simp only [List.length_nil] at hlen
      omega

/-- **Reading normalises.**  Whatever bytes a built registry reads a packet from, padded and
overflowing numbers included: the packet is within all its limits, and it has a frame, which is not
longer than those bytes and is read as the same packet. So writing again what was read gives the
normal frame, and doing it once more changes nothing. -/
theorem decodeFrame_normalises {r : Registry} (hr : r.Built) {frame : Bytes} {p : Packet}
    (h : r.decodeFrame frame = .ok p) :
    p.Fits ∧ ∃ normal, r.encodeFrame p = .ok normal ∧ normal.length ≤ frame.length ∧
      r.decodeFrame normal = .ok p ∧ r.reframe frame = .ok normal ∧
      r.reframe normal = .ok normal := by
  obtain ⟨normal, hnormal, hlen⟩ := exists_encodeFrame hr h
  have hagain := decodeFrame_encodeFrame hr hnormal
  have hfits : p.Fits := by
    obtain ⟨_, body, -, hbody, -⟩ := (encodeFrame_eq_ok_iff hr).mp hnormal
    exact Packet.exists_writeBody_iff.mp ⟨body, hbody⟩
  refine ⟨hfits, normal, hnormal, hlen, hagain, ?_, ?_⟩
  · rw [reframe, h, ok_bind, hnormal]
  · rw [reframe, hagain, ok_bind, hnormal]

/-- Zoë's move with every number longer than it has to be: the id and the length of the name are
padded, and the column has bits behind the thirty-second. -/
def paddedFrame : Bytes :=
  [172, 130, 0] ++ [132, 128, 0, 90, 111, 195, 171] ++ List.replicate 16 9
    ++ [134, 128, 128, 128, 112]

/-- Her move is read from the padded frame, and written again as the short one. -/
theorem decodeFrame_normalises_paddedFrame :
    onlyConnectFour.decodeFrame paddedFrame = .ok (zoesMove 6) ∧ (zoesMove 6).Fits ∧
      onlyConnectFour.reframe paddedFrame = .ok zoesFrame ∧
      onlyConnectFour.reframe zoesFrame = .ok zoesFrame := by
  have hread : onlyConnectFour.decodeFrame paddedFrame = .ok (zoesMove 6) := by decide +kernel
  obtain ⟨hfits, normal, hnormal, -, -, hframe, hnormalFrame⟩ :=
    decodeFrame_normalises built_onlyConnectFour hread
  obtain rfl := Except.ok.inj (hnormal.symm.trans encodeFrame_zoesMove)
  exact ⟨hread, hfits, hframe, hnormalFrame⟩

end Registry

end TextTunnel
