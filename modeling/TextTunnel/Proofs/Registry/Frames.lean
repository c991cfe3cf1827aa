import Mathlib.Control.Monad.Basic
import TextTunnel.Proofs.Registry.RoundTrip

/-!
# Which packets have frames, and which bytes are frames

A packet has a frame if its variant is registered and every part of it is within its limit, and for
no other reason. A frame has no byte too many: cut anywhere, it is too short, and with anything
behind it, it is too long.

* `Packet.Fits` -- the limits.
* `Packet.exists_writeBody_iff` -- a packet has a body exactly if it is within them.
* `Registry.encodeFrame_domain` -- which packets have frames, that they come back, and that no two
  packets share one.
* `Registry.decode_exact_layout` -- frames and bodies that have been cut or made longer.
-/

namespace TextTunnel

/-! ## 1. Limits -/

/-- The variant's own fields are within their limits. A game has a short name always. -/
def Content.Fits : Content → Prop
  | .message text => text.length ≤ 256
  | .startTwoPlayerGame _ _ => True
  | .putTicTacToeMark x y => x.toNat < 3 ∧ y.toNat < 3
  | .putConnectFourPiece x => 0 ≤ x.toInt ∧ x.toInt < 7

/-- The author's name and the variant's own fields are within their limits; a text is measured in
characters. -/
def Packet.Fits (p : Packet) : Prop :=
  p.sender.name.length ≤ 64 ∧ p.content.Fits

theorem checkTicTacToe_eq_ok_iff {x y : UInt8} :
    checkTicTacToe x y = .ok () ↔ x.toNat < 3 ∧ y.toNat < 3 := by
  rw [checkTicTacToe, Wire.ticTacToeSize]
  split
  · next h => simp; omega
  · next h =>
    split
    · next h' => simp; omega
    · next h' => simp; omega

theorem checkConnectFour_eq_ok_iff {x : Int32} :
    checkConnectFour x = .ok () ↔ 0 ≤ x.toInt ∧ x.toInt < 7 := by
  rw [checkConnectFour, Wire.connectFourWidth]
  split
  · next h => simpa using h
  · next h => simpa using h

theorem exists_putString_iff {maxChars : Nat} {s : String} {written : Bytes} :
    (∃ bs, Field.putString maxChars s written = .ok bs) ↔ s.length ≤ maxChars := by
  simp only [Field.putString, exists_bind_eq_ok, exists_pure_eq_ok, and_true, exists_string_iff]

namespace Packet

theorem exists_writeAuthor_iff {author : Peer} :
    (∃ bs, writeAuthor author [] = .ok bs) ↔ author.name.length ≤ 64 := by
  simp only [writeAuthor, exists_bind_eq_ok, exists_pure_eq_ok, and_true, exists_putString_iff,
    Wire.maxSenderChars]

/-- **A packet has a body exactly if it is within its limits.** -/
theorem exists_writeBody_iff {p : Packet} : (∃ bs, p.writeBody [] = .ok bs) ↔ p.Fits := by
  obtain ⟨sender, content⟩ := p
  rw [Fits, ← exists_writeAuthor_iff]
  cases content with
  | message text =>
    simp only [writeBody, exists_bind_eq_ok, exists_putString_iff, exists_and_right]
    rfl
  | startTwoPlayerGame accept game =>
    have hid : game.id.length ≤ Wire.maxIdChars := by cases game <;> decide
    simp only [writeBody, exists_bind_eq_ok, exists_putString_iff, and_true, hid, Content.Fits]
  | putTicTacToeMark x y =>
    simp only [writeBody, exists_check_bind_eq_ok, exists_bind_eq_ok, exists_pure_eq_ok, and_true,
      checkTicTacToe_eq_ok_iff, Content.Fits]
    exact and_comm
  | putConnectFourPiece x =>
    simp only [writeBody, exists_check_bind_eq_ok, exists_bind_eq_ok, exists_pure_eq_ok, and_true,
      checkConnectFour_eq_ok_iff, Content.Fits]
    exact and_comm

end Packet

/-! ## 2. Packets that have frames -/

namespace Registry

/-- One variant only, under an id of two bytes. -/
def onlyConnectFour : Registry :=
  ⟨[⟨300, .putConnectFourPiece, Codec.ofKind .putConnectFourPiece⟩]⟩

theorem built_onlyConnectFour : onlyConnectFour.Built :=
  .step 300 .putConnectFourPiece .empty rfl

/-- A move by somebody whose name is longer in bytes than in characters. -/
def zoesMove (x : Int32) : Packet :=
  ⟨⟨"Zoë", ⟨List.replicate 16 9, rfl⟩⟩, .putConnectFourPiece x⟩

/-- The frame of her move to the last column: the id, her name and id, and the column. -/
def zoesFrame : Bytes :=
  [172, 2] ++ [4, 90, 111, 195, 171] ++ List.replicate 16 9 ++ [6]

theorem encodeFrame_zoesMove : onlyConnectFour.encodeFrame (zoesMove 6) = .ok zoesFrame := by
  decide +kernel

/-- **Which packets have frames.**  In the usual registry, and in every other one that is built from
nothing by registering variants with their own layouts under whatever ids, a packet has a frame
exactly if its variant is registered and the packet is within its limits. The frame is read as that
packet, whatever the texts and ids in it are, and so no other packet has the same frame. -/
theorem encodeFrame_domain :
    Registry.standard.Built ∧ ∀ r : Registry, r.Built →
      (∀ p, (∃ frame, r.encodeFrame p = .ok frame) ↔
        (r.typeId p.kind).isSome = true ∧ p.Fits) ∧
      (∀ p frame, r.encodeFrame p = .ok frame → r.decodeFrame frame = .ok p) ∧
      (∀ p q frame, r.encodeFrame p = .ok frame → r.encodeFrame q = .ok frame → p = q) := by
  refine ⟨built_standard, fun r hr => ⟨fun p => ?_, fun p frame h => ?_, fun p q frame hp hq => ?_⟩⟩
  · rw [← Packet.exists_writeBody_iff, Option.isSome_iff_exists]
    simp only [encodeFrame_eq_ok_iff hr]
    constructor
    · rintro ⟨frame, id, body, hid, hbody, -⟩
      exact ⟨⟨id, hid⟩, body, hbody⟩
    · rintro ⟨⟨id, hid⟩, body, hbody⟩
      exact ⟨_, id, body, hid, hbody, rfl⟩
  · exact decodeFrame_encodeFrame hr h
  · have hp' := decodeFrame_encodeFrame hr hp
    have hq' := decodeFrame_encodeFrame hr hq
    exact Except.ok.inj (hp'.symm.trans hq')

/-- The last column has a frame under an id of two bytes, and the column behind it has none. -/
theorem encodeFrame_domain_zoesMove :
    (onlyConnectFour.encodeFrame (zoesMove 6) = .ok zoesFrame ∧
      onlyConnectFour.decodeFrame zoesFrame = .ok (zoesMove 6)) ∧
    ¬ ∃ frame, onlyConnectFour.encodeFrame (zoesMove 7) = .ok frame := by
  obtain ⟨hdomain, hdecode, -⟩ := encodeFrame_domain.2 onlyConnectFour built_onlyConnectFour
  refine ⟨⟨encodeFrame_zoesMove, hdecode _ _ encodeFrame_zoesMove⟩, fun h => ?_⟩
  obtain ⟨-, -, -, hx⟩ := (hdomain (zoesMove 7)).mp h
  exact absurd hx (by decide)

/-! ## 3. Frames that have been cut or made longer -/

/-- **Frames and bodies are exact.**  A frame that has been cut anywhere, inside a number, a text or
an id as well as between them, is refused because it ends too early, and for no other reason. A
frame with anything behind it is refused because of the bytes that are left, all of them. The same
holds of the body alone, read under the variant's id. -/
theorem decode_exact_layout {r : Registry} (hr : r.Built) {p : Packet} {frame : Bytes}
    (h : r.encodeFrame p = .ok frame) :
    (∀ front, front <+: frame → front ≠ frame →
      r.decodeFrame front = .error (.malformed .truncated)) ∧
    (∀ rest, rest ≠ [] →
      r.decodeFrame (frame ++ rest) = .error (.malformed (.trailingBytes rest.length))) ∧
    ∃ id body, r.typeId p.kind = some id ∧ r.encode p = .ok body ∧
      (∀ front, front <+: body → front ≠ body →
        r.decode id front = .error (.malformed .truncated)) ∧
      (∀ rest, rest ≠ [] →
        r.decode id (body ++ rest) = .error (.malformed (.trailingBytes rest.length))) := by
  have hframe := exact_frame hr h
  obtain ⟨id, body, hid, hwrite, -⟩ := (encodeFrame_eq_ok_iff hr).mp h
  have hbody := Packet.exact_body hwrite
  refine ⟨fun _ hfront hne => hframe.readAll_front hfront hne,
    fun _ hne => hframe.readAll_append hne, id, body, hid,
    (encode_eq_ok_iff hr).mpr ⟨id, hid, hwrite⟩, fun front hfront hne => ?_, fun rest hne => ?_⟩
  · rw [decode_of_typeId hr hid]
    exact hbody.readAll_front hfront hne
  · rw [decode_of_typeId hr hid]
    exact hbody.readAll_append hne

/-- A frame that ends inside a letter of two bytes, and one with two more bytes. -/
theorem decode_exact_layout_zoesMove :
    onlyConnectFour.decodeFrame (zoesFrame.take 6) = .error (.malformed .truncated) ∧
      onlyConnectFour.decodeFrame (zoesFrame ++ [0, 0])
        = .error (.malformed (.trailingBytes 2)) := by
  obtain ⟨hfront, hrest, -⟩ := decode_exact_layout built_onlyConnectFour encodeFrame_zoesMove
  exact ⟨hfront _ (List.take_prefix 6 zoesFrame) (by decide), hrest [0, 0] (by decide)⟩

end Registry

end TextTunnel
