import TextTunnel.Packet.Json
import TextTunnel.Proofs.Json.RoundTrip
import TextTunnel.Proofs.Uuid
import Mathlib.Data.List.Permutation

/-!
# Packets come back from JSON

Every packet comes back from its JSON text, also the packets that the wire has no line for: any text
in a name and a message, any id, any byte and any signed number. The text may have blanks between its
tokens, and the members of its two objects may stand in any order; in particular the data may come
before the tag that says how to read it, and is kept until then.

* `IsDocument`, `IsText` -- the documents and the texts of a packet.
* `IsDocument.ofTree?`, `IsText.ofJson?` -- each of them is read as the packet.
* `reprint?` -- reading a text and writing the packet again.
* `json_roundTrip` -- reading undoes writing.
-/

namespace TextTunnel

open Json (Tree)

namespace Packet

/-! ## 1. The documents of a packet -/

/-- The documents of a packet: the members of both objects in any order. -/
def IsDocument (p : Packet) (t : Tree) : Prop :=
  ∃ inner, inner.Perm p.dataMembers ∧
    ∃ outer, outer.Perm [("type", .ofText p.kind.tag), ("data", objectOf inner)] ∧ t = objectOf outer

/-- The texts of a packet: those of its documents. -/
def IsText (p : Packet) (s : String) : Prop :=
  ∃ t, p.IsDocument t ∧ t.IsText s

theorem isDocument_toTree (p : Packet) : p.IsDocument p.toTree :=
  ⟨p.dataMembers, .refl _, _, .refl _, rfl⟩

theorem isText_toJson (p : Packet) : p.IsText p.toJson :=
  ⟨p.toTree, p.isDocument_toTree, p.toTree.isText_compact⟩

/-! ## 2. Values -/

/-- A value that follows the grammar, and can be kept at any depth once it has been read. -/
structure Leaf (t : Tree) : Prop where
  valid : t.Valid
  kept : ∀ room, t.asRead.representable room = true

theorem leaf_ofText (s : String) : Leaf (.ofText s) where
  valid _ hu := Json.valid_of_mem_unitsOf hu
  kept room := by
    have htext := Json.textOf?_asRead_unitsOf s
    rw [Json.textOf?, Option.map_eq_map, Option.map_eq_some_iff] at htext
    obtain ⟨cs, hcs, -⟩ := htext
    show (Json.charsOf? _).isSome = true
    rw [hcs]
    rfl

theorem leaf_bool (b : Bool) : Leaf (.bool b) where
  valid := trivial
  kept _ := rfl

theorem leaf_ofInteger {i : Int} (h : i.natAbs < Nat.pow 2 53) : Leaf (.ofInteger i) where
  valid := Json.valid_integer i
  kept _ := Json.fits_integer h

@[simp] theorem text?_asRead_ofText (s : String) : (Tree.ofText s).asRead.text? = some s :=
  Json.textOf?_asRead_unitsOf s

@[simp] theorem tag?_asRead_ofText (kept : Bool) (s : String) :
    tag? kept (Tree.ofText s).asRead = some s :=
  Json.textOf?_asRead_unitsOf s

@[simp] theorem integer?_asRead_ofInteger (i : Int) : (Tree.ofInteger i).asRead.integer? = some i :=
  Json.integer?_ofInteger i

/-! ## 3. Objects -/

/-- A row of readings that all succeed. -/
theorem mapM_map_eq_some {α β γ : Type} {l : List α} {g : α → β} {f : β → Option γ} {value : α → γ}
    (hall : ∀ a ∈ l, f (g a) = some (value a)) : (l.map g).mapM f = some (l.map value) := by
  induction l with
  | nil => rfl
  | cons a l ih =>
    rw [List.map_cons, List.mapM_cons, hall a (by simp), ih fun b hb => hall b (by simp [hb])]
    rfl

theorem valid_objectOf {ms : List (String × Tree)} (h : ∀ m ∈ ms, m.2.Valid) :
    (objectOf ms).Valid := by
  show Json.membersValid _
  rw [Json.membersValid_iff]
  intro m hm
  obtain ⟨m, hmem, rfl⟩ := List.mem_map.mp hm
  exact ⟨fun u hu => Json.valid_of_mem_unitsOf hu, h m hmem⟩

/-- The members of an object as they are read again. -/
def readMembers (ms : List (String × Tree)) : List (String × Tree) :=
  ms.map fun m => (m.1, m.2.asRead)

theorem asRead_objectOf (ms : List (String × Tree)) :
    (objectOf ms).asRead
      = .object (ms.map fun m => ((Json.unitsOf m.1).map Json.StringUnit.asRead, m.2.asRead)) := by
  rw [objectOf, Tree.asRead, Json.membersAsRead_eq_map, List.map_map]
  rfl

/-- The names of an object come back. -/
theorem namedMembers?_map (ms : List (String × Tree)) :
    namedMembers? (ms.map fun m => ((Json.unitsOf m.1).map Json.StringUnit.asRead, m.2.asRead))
      = some (readMembers ms) := by
  refine mapM_map_eq_some fun m _ => ?_
  simp only [Json.textOf?_asRead_unitsOf]
  rfl

theorem representable_objectOf {ms : List (String × Tree)} (h : ∀ m ∈ ms, Leaf m.2) (room : Nat) :
    (objectOf ms).asRead.representable (room + 1) = true := by
  rw [asRead_objectOf]
  show Json.membersRepresentable room _ = true
  induction ms with
  | nil => rfl
  | cons m ms ih =>
    rw [List.map_cons, Json.membersRepresentable, ih fun m hm => h m (by simp [hm]),
      (h m (by simp)).kept room, Bool.and_true, Bool.and_true]
    exact (leaf_ofText m.1).kept 0

/-- Among members of different names, each is the only one of its name. -/
theorem filter_name_eq {ms : List (String × Tree)} (h : (ms.map Prod.fst).Nodup)
    {m : String × Tree} (hm : m ∈ ms) : ms.filter (fun x => x.1 == m.1) = [m] := by
  induction ms with
  | nil => cases hm
  | cons x ms ih =>
    rw [List.map_cons, List.nodup_cons] at h
    rcases List.mem_cons.mp hm with rfl | hm
    · have hnone : ms.filter (fun x => x.1 == m.1) = [] := by
        rw [List.filter_eq_nil_iff]
        intro x hx heq
        exact h.1 (List.mem_map.mpr ⟨x, hx, by simpa using heq⟩)
      rw [List.filter_cons_of_pos (by simp), hnone]
    · have hne : x.1 ≠ m.1 := fun heq => h.1 (List.mem_map.mpr ⟨m, hm, heq.symm⟩)
      rw [List.filter_cons_of_neg (by simpa using hne), ih h.2 hm]

theorem onlyMember?_of_mem {ms : List (String × Tree)} (h : (ms.map Prod.fst).Nodup)
    {m : String × Tree} (hm : m ∈ ms) : onlyMember? m.1 ms = some m.2 := by
  rw [onlyMember?, filter_name_eq h hm]

/-- **The order of members** is lost: their values come in the order in which they are asked for. -/
theorem fields?_objectOf {ms wanted : List (String × Tree)} (h : ms.Perm wanted)
    (hnames : (wanted.map Prod.fst).Nodup) :
    fields? (wanted.map Prod.fst) (objectOf ms).asRead
      = some (wanted.map fun m => m.2.asRead) := by
  have hnodup : ((readMembers ms).map Prod.fst).Nodup := by
    rw [readMembers, List.map_map]
    exact (h.map Prod.fst).nodup_iff.mpr hnames
  rw [asRead_objectOf, fields?, namedMembers?_map]
  simp only [Option.bind_eq_bind, Option.bind_some]
  refine mapM_map_eq_some fun m hm => ?_
  exact onlyMember?_of_mem hnodup (List.mem_map.mpr ⟨m, h.mem_iff.mpr hm, rfl⟩)

/-! ## 4. Fields -/

theorem map_fst_dataMembers (p : Packet) :
    p.dataMembers.map Prod.fst = "sender" :: "sender_id" :: contentNames p.kind := by
  obtain ⟨sender, content⟩ := p
  cases content <;> rfl

theorem nodup_dataMembers (p : Packet) : (p.dataMembers.map Prod.fst).Nodup := by
  rw [map_fst_dataMembers]
  cases p.kind <;> decide

theorem leaf_dataMembers (p : Packet) : ∀ m ∈ p.dataMembers, Leaf m.2 := by
  obtain ⟨sender, content⟩ := p
  rw [dataMembers, List.forall_mem_cons, List.forall_mem_cons]
  refine ⟨leaf_ofText _, leaf_ofText _, ?_⟩
  cases content with
  | message text => simpa [contentMembers] using leaf_ofText text
  | startTwoPlayerGame accept game =>
    simpa [contentMembers] using And.intro (leaf_bool accept) (leaf_ofText game.tag)
  | putTicTacToeMark x y =>
    have hbyte : ∀ b : UInt8, Leaf (.ofInteger b.toNat) := by
      intro b
      have := b.toNat_lt
      exact leaf_ofInteger (Nat.lt_trans this (by decide))
    simpa [contentMembers] using And.intro (hbyte x) (hbyte y)
  | putConnectFourPiece x =>
    have hlow := x.le_toInt
    have hhigh := x.toInt_lt
    have hx : x.toInt.natAbs < Nat.pow 2 32 := by
      show _ < 4294967296
      omega
    simpa [contentMembers] using leaf_ofInteger (Nat.lt_trans hx (by decide))

theorem byte?_asRead_ofInteger (x : UInt8) : byte? (Tree.ofInteger x.toNat).asRead = some x := by
  have hlt := x.toNat_lt
  rw [byte?, integer?_asRead_ofInteger]
  simp only [Option.bind_eq_bind, Option.bind_some, Int.toNat_natCast, UInt8.ofNat_toNat]
  exact if_pos (by omega)

theorem signed?_asRead_ofInteger (x : Int32) : signed? (Tree.ofInteger x.toInt).asRead = some x := by
  have hlow := x.le_toInt
  have hhigh := x.toInt_lt
  rw [signed?, integer?_asRead_ofInteger]
  simp only [Option.bind_eq_bind, Option.bind_some, Int32.ofInt_toInt]
  exact if_pos (by omega)

theorem game?_asRead_ofText (kept : Bool) (g : Game) :
    game? kept (Tree.ofText g.tag).asRead = some g := by
  simp [game?]

/-- **A content** comes back from the values of its fields. -/
theorem content?_contentMembers (kept : Bool) (c : Content) :
    content? kept c.kind ((contentMembers c).map fun m => m.2.asRead) = some c := by
  cases c with
  | message text =>
    show Content.message <$> (Tree.ofText text).asRead.text? = _
    rw [text?_asRead_ofText]
    rfl
  | startTwoPlayerGame accept game =>
    show (do
      let a ← some accept
      let g ← game? kept (Tree.ofText game.tag).asRead
      return Content.startTwoPlayerGame a g) = _
    rw [game?_asRead_ofText]
    rfl
  | putTicTacToeMark x y =>
    show (do
      let x ← byte? (Tree.ofInteger x.toNat).asRead
      let y ← byte? (Tree.ofInteger y.toNat).asRead
      return Content.putTicTacToeMark x y) = _
    rw [byte?_asRead_ofInteger, byte?_asRead_ofInteger]
    rfl
  | putConnectFourPiece x =>
    show Content.putConnectFourPiece <$> signed? (Tree.ofInteger x.toInt).asRead = _
    rw [signed?_asRead_ofInteger]
    rfl

/-- **A packet** comes back from its data, whether the data has been kept or not. -/
theorem data?_objectOf (kept : Bool) {p : Packet} {inner : List (String × Tree)}
    (h : inner.Perm p.dataMembers) : data? kept p.kind (objectOf inner).asRead = some p := by
  rw [data?, ← map_fst_dataMembers, fields?_objectOf h p.nodup_dataMembers]
  obtain ⟨⟨name, id⟩, content⟩ := p
  have hid : uuid? (Tree.ofText id.toString).asRead = some id := by simp [uuid?]
  simp only [dataMembers, List.map_cons, Option.bind_eq_bind, Option.bind_some,
    text?_asRead_ofText, hid, kind, content?_contentMembers]
  rfl

/-! ## 5. Whole packets -/

theorem kind?_asRead_ofText (k : PacketKind) : kind? (Tree.ofText k.tag).asRead = some k := by
  simp [kind?]

/-- **Each document of a packet** is read as that packet. -/
theorem IsDocument.ofTree? {p : Packet} {t : Tree} (h : p.IsDocument t) :
    ofTree? t.asRead = some p := by
  obtain ⟨inner, hinner, outer, houter, rfl⟩ := h
  have hdata := fun kept => data?_objectOf kept hinner
  have hkept : (objectOf inner).asRead.representable keptDepth = true :=
    representable_objectOf (fun m hm => p.leaf_dataMembers m (hinner.mem_iff.mp hm)) 125
  rw [asRead_objectOf, Packet.ofTree?, namedMembers?_map]
  rcases List.perm_pair.mp houter with rfl | rfl
  · show (do
      let k ← kind? (Tree.ofText p.kind.tag).asRead
      data? false k (objectOf inner).asRead) = _
    rw [kind?_asRead_ofText, Option.bind_eq_bind, Option.bind_some]
    exact hdata false
  · show (do
      let k ← kind? (Tree.ofText p.kind.tag).asRead
      if (objectOf inner).asRead.representable keptDepth then data? true k (objectOf inner).asRead
      else none) = _
    rw [kind?_asRead_ofText, Option.bind_eq_bind, Option.bind_some, if_pos hkept]
    exact hdata true

theorem IsDocument.valid {p : Packet} {t : Tree} (h : p.IsDocument t) : t.Valid := by
  obtain ⟨inner, hinner, outer, houter, rfl⟩ := h
  refine valid_objectOf fun m hm => ?_
  rcases List.mem_pair.mp (houter.mem_iff.mp hm) with rfl | rfl
  · exact (leaf_ofText _).valid
  · exact valid_objectOf fun m hm => (p.leaf_dataMembers m (hinner.mem_iff.mp hm)).valid

theorem IsText.ofJson? {p : Packet} {s : String} (h : p.IsText s) : ofJson? s = some p := by
  obtain ⟨t, ht, hs⟩ := h
  rw [Packet.ofJson?, hs.ofString? ht.valid]
  exact ht.ofTree?

/-- A text is read and its packet is written again. -/
def reprint? (s : String) : Option String := toJson <$> Packet.ofJson? s

/-- **Reading undoes writing.**  The compact text is one of a packet's texts, and each of them is read
as the packet. So no text belongs to two packets, and a text that is accepted settles when its packet
is written: writing it once more gives the same text. -/
theorem json_roundTrip :
    (∀ p : Packet, p.IsText p.toJson ∧ Packet.ofJson? p.toJson = some p)
      ∧ (∀ (p : Packet) (s : String), p.IsText s → Packet.ofJson? s = some p)
      ∧ Function.Injective toJson
      ∧ ∀ s n : String, reprint? s = some n → reprint? n = some n := by
  refine ⟨fun p => ⟨p.isText_toJson, p.isText_toJson.ofJson?⟩, fun p s h => h.ofJson?, ?_, ?_⟩
  · intro p q h
    have hp := p.isText_toJson.ofJson?
    rw [h, q.isText_toJson.ofJson?] at hp
    exact (Option.some.inj hp).symm
  · intro s n h
    rw [reprint?, Option.map_eq_map, Option.map_eq_some_iff] at h
    obtain ⟨p, -, rfl⟩ := h
    rw [reprint?, p.isText_toJson.ofJson?]
    rfl

/-- A move that is on no board, by someone with quotes, a line break and a control character in the
name. -/
def farMove : Packet :=
  ⟨⟨"\"Zoë\"\n\x01", List.replicate 16 0xAB, rfl⟩, .putTicTacToeMark 200 9⟩

/-- Its document with both objects backwards. -/
def farMoveBackwards : Tree :=
  objectOf [("data", objectOf farMove.dataMembers.reverse), ("type", .ofText farMove.kind.tag)]

/-- That document with a blank before each token. -/
def farMoveText : String :=
  " \x7b \"data\" : \x7b \"y\" : 9 , \"x\" : 200 , \"sender_id\" : "
    ++ "\"abababab-abab-abab-abab-abababababab\" , \"sender\" : \"\\\"Zoë\\\"\\n\\u0001\" \x7d , "
    ++ "\"type\" : \"PutTicTacToeMark\" \x7d"

theorem isText_farMoveText : farMove.IsText farMoveText := by
  have htext : farMoveText = farMoveBackwards.spread [' '] := by decide +kernel
  rw [htext]
  exact ⟨farMoveBackwards, ⟨_, List.reverse_perm _, _, .swap _ _ _, rfl⟩,
    Tree.isText_spread (by simp [Json.isBlank]) _⟩

theorem json_roundTrip_farMove :
    Packet.ofJson? farMoveText = some farMove ∧ reprint? farMoveText = some farMove.toJson
      ∧ reprint? farMove.toJson = some farMove.toJson := by
  have hread := json_roundTrip.2.1 farMove farMoveText isText_farMoveText
  have hprint : reprint? farMoveText = some farMove.toJson := by
    rw [reprint?, hread]
    rfl
  exact ⟨hread, hprint, json_roundTrip.2.2.2 farMoveText farMove.toJson hprint⟩

end Packet

end TextTunnel
