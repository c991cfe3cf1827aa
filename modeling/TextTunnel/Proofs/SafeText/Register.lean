import Mathlib.Algebra.Order.Floor.Div
import TextTunnel.Proofs.SafeText.RoundTrip

/-!
# No bit is lost on the way

Both directions of the text-safe codec carry the bits that do not yet fill a group, or a byte, in a
32-bit word. This module follows that word through a whole run: at every point, what has been put
out and what waits in the word are together exactly the bits that have been taken in, and the next
group still fits the word.

* `InFullRange`, `InTailRange`, `Conforms` -- the two alphabets, and the texts made of them.
* `Pending.afterByte`, `Pending.afterChar` -- the word after one more byte, or one more character.
* `encodeFrom_append`, `decodeFrom_append` -- a run that is stopped somewhere and goes on.
* `Packs`, `Unpacks` -- nothing is lost, at any point of a run.
* `encode_lossless` -- what an encoded text looks like, and that it comes back.
-/

namespace TextTunnel.SafeText

/-! ## 1. The alphabets and their texts -/

/-- U+4E00 to U+8DFF, the characters that stand for fourteen bits. -/
def InFullRange (c : Char) : Prop :=
  0x4E00 ≤ c.toNat ∧ c.toNat ≤ 0x8DFF

/-- U+3400 to U+347F, the characters that stand for seven bits. -/
def InTailRange (c : Char) : Prop :=
  0x3400 ≤ c.toNat ∧ c.toNat ≤ 0x347F

instance (c : Char) : Decidable (InFullRange c) :=
  inferInstanceAs (Decidable (_ ∧ _))

instance (c : Char) : Decidable (InTailRange c) :=
  inferInstanceAs (Decidable (_ ∧ _))

/-- Zero or more full characters, then at most one tail character. -/
def Conforms (cs : List Char) : Prop :=
  ∃ fulls last, cs = fulls ++ last ∧ (∀ c ∈ fulls, InFullRange c) ∧
    (last = [] ∨ ∃ c, last = [c] ∧ InTailRange c)

variable {c : Char} {cs fulls : List Char}

theorem isFull_iff_inFullRange : isFull c = true ↔ InFullRange c := by
  rw [isFull_iff, InFullRange, fullBase]
  omega

theorem isTail_iff_inTailRange : isTail c = true ↔ InTailRange c := by
  rw [isTail_iff, InTailRange, tailBase]
  omega

theorem not_isFull_of_inTailRange (h : InTailRange c) : isFull c = false := by
  rw [← Bool.not_eq_true, isFull_iff_inFullRange]
  unfold InTailRange at h
  unfold InFullRange
  omega

theorem isText_append (hfulls : ∀ c ∈ fulls, InFullRange c) : IsText (fulls ++ cs) ↔ IsText cs := by
  induction fulls with
  | nil => exact Iff.rfl
  | cons c fulls ih =>
    have hc : isFull c = true := isFull_iff_inFullRange.mpr (hfulls c List.mem_cons_self)
    have hrest := ih fun d hd => hfulls d (List.mem_cons_of_mem c hd)
    simp [IsText, hc, hrest]

/-- The texts that denote bits are those that are made of the two alphabets in this way. -/
theorem isText_iff_conforms : IsText cs ↔ Conforms cs := by
  constructor
  · intro h
    induction cs with
    | nil => exact ⟨[], [], rfl, by simp, .inl rfl⟩
    | cons c cs ih =>
      rcases h with ⟨hfull, hcs⟩ | ⟨-, htail, rfl⟩
      · obtain ⟨fulls, last, rfl, hfulls, hlast⟩ := ih hcs
        refine ⟨c :: fulls, last, rfl, ?_, hlast⟩
        intro d hd
        rcases List.mem_cons.mp hd with rfl | hd
        · exact isFull_iff_inFullRange.mp hfull
        · exact hfulls d hd
      · exact ⟨[], [c], rfl, by simp, .inr ⟨c, rfl, isTail_iff_inTailRange.mp htail⟩⟩
  · rintro ⟨fulls, last, rfl, hfulls, rfl | ⟨c, rfl, hc⟩⟩
    · exact (isText_append hfulls).mpr trivial
    · exact (isText_append hfulls).mpr
        (.inr ⟨not_isFull_of_inTailRange hc, isTail_iff_inTailRange.mpr hc, rfl⟩)

/-- All the characters lie far above ASCII. -/
theorem Conforms.lt_toNat (h : Conforms cs) (hc : c ∈ cs) : 0x7F < c.toNat := by
  obtain ⟨fulls, last, rfl, hfulls, hlast⟩ := h
  rcases List.mem_append.mp hc with hc | hc
  · have := (hfulls c hc).1
    omega
  · rcases hlast with rfl | ⟨d, rfl, hd⟩
    · exact absurd hc List.not_mem_nil
    · obtain rfl := List.mem_singleton.mp hc
      have := hd.1
      omega

@[simp] theorem textBits_append (cs ds : List Char) :
    textBits (cs ++ ds) = textBits cs ++ textBits ds :=
  List.flatMap_append

/-! ## 2. The encoder's word -/

/-- What waits when the encoder has taken one more byte. -/
def Pending.afterByte (p : Pending) (b : UInt8) : Pending :=
  let q := p.push 8 b.toUInt32
  if fullBits ≤ q.held then q.dropFront fullBits else q

/-- **One byte.**  The encoder writes some characters and goes on; they and the word hold the bits
that waited and those of the byte. -/
theorem encodeFrom_cons {p : Pending} (hp : p.Fits) (h : p.held < fullBits) (b : UInt8) :
    (p.afterByte b).Fits ∧ (p.afterByte b).held < fullBits ∧
      ∃ written, (∀ rest, encodeFrom p (b :: rest) = written ++ encodeFrom (p.afterByte b) rest) ∧
        textBits written ++ (p.afterByte b).bits = p.bits ++ bitsOf 8 b.toNat := by
  obtain ⟨hq, hbits⟩ := bits_push_byte hp h b
  unfold Pending.afterByte
  by_cases hfull : fullBits ≤ (p.push 8 b.toUInt32).held
  · have hheld : ((p.push 8 b.toUInt32).dropFront fullBits).held < fullBits := by
      simp only [Pending.held_dropFront, Pending.held_push, fullBits] at h ⊢
      omega
    have hlt : ((p.push 8 b.toUInt32).front fullBits).toNat < 2 ^ 14 := Pending.front_lt hq hfull
    simp only [if_pos hfull]
    refine ⟨Pending.fits_dropFront hq fullBits, hheld,
      [fullChar ((p.push 8 b.toUInt32).front fullBits)], fun rest => ?_, ?_⟩
    · simp only [encodeFrom, if_pos hfull, List.singleton_append]
    · rw [textBits_cons, textBits_nil, List.append_nil, charBits_fullChar hlt, ← hbits]
      exact (Pending.bits_split hq hfull).symm
  · simp only [if_neg hfull]
    refine ⟨hq, Nat.lt_of_not_le hfull, [], fun rest => ?_, hbits⟩
    simp only [encodeFrom, if_neg hfull, List.nil_append]

/-- **Many bytes.**  The encoder can be stopped anywhere: what it has written and the word hold the
bits taken so far, and it goes on from that word alone. -/
theorem encodeFrom_append {p : Pending} (hp : p.Fits) (h : p.held < fullBits) (done : Bytes) :
    (done.foldl Pending.afterByte p).Fits ∧ (done.foldl Pending.afterByte p).held < fullBits ∧
      ∃ written, (∀ rest, encodeFrom p (done ++ rest)
          = written ++ encodeFrom (done.foldl Pending.afterByte p) rest) ∧
        textBits written ++ (done.foldl Pending.afterByte p).bits = p.bits ++ Bytes.bits done := by
  induction done generalizing p with
  | nil => exact ⟨hp, h, [], fun _ => rfl, by simp⟩
  | cons b done ih =>
    obtain ⟨hq, hheld, first, hfirst, hfirstBits⟩ := encodeFrom_cons hp h b
    obtain ⟨hfits, hlt, written, hwritten, hbits⟩ := ih hq hheld
    refine ⟨hfits, hlt, first ++ written, fun rest => ?_, ?_⟩
    · rw [List.cons_append, hfirst, hwritten, List.foldl_cons, List.append_assoc]
    · rw [List.foldl_cons, textBits_append, List.append_assoc, hbits, ← List.append_assoc,
        hfirstBits, Bytes.bits_cons, List.append_assoc]

/-! ## 3. The decoder's word -/

/-- The group of one more character, put behind what waits. -/
def Pending.pushChar (p : Pending) (c : Char) : Pending :=
  if isFull c then p.push fullBits (UInt32.ofNat (c.toNat - fullBase))
  else p.push tailBits (UInt32.ofNat (c.toNat - tailBase))

/-- What waits when the decoder has taken one more character. -/
def Pending.afterChar (p : Pending) (c : Char) : Pending :=
  (wholeBytes (p.pushChar c)).2

/-- The group of a character of either alphabet fits the word, and no bit is shifted out. -/
theorem bits_pushChar {p : Pending} (hp : p.Fits) (h : p.held < 8)
    (hc : InFullRange c ∨ InTailRange c) :
    (p.pushChar c).Fits ∧ (p.pushChar c).bits = p.bits ++ charBits c := by
  unfold Pending.pushChar charBits
  rcases hc with hc | hc
  · have hfull := isFull_iff_inFullRange.mpr hc
    obtain ⟨hle, hlt⟩ := isFull_iff.mp hfull
    rw [if_pos hfull, if_pos hfull]
    exact bits_push_group hp h hle hlt (Nat.le_refl 14)
  · have hfull := not_isFull_of_inTailRange hc
    obtain ⟨hle, hlt⟩ := isTail_iff.mp (isTail_iff_inTailRange.mpr hc)
    rw [hfull, if_neg (by decide), if_neg (by decide)]
    exact bits_push_group hp h hle hlt (by decide)

/-- The whole bytes of the waiting bits and what still waits are those bits. -/
theorem bits_wholeBytes {p : Pending} (hp : p.Fits) :
    (wholeBytes p).1.bits ++ (wholeBytes p).2.bits = p.bits := by
  induction p using wholeBytes.induct with
  | case1 p h bytes rest hrest ih =>
    have hbits := ih (Pending.fits_dropFront hp 8)
    have hfront : (p.front 8).toUInt8.toNat = (p.front 8).toNat := by
      rw [UInt32.toNat_toUInt8, Nat.mod_eq_of_lt (Pending.front_lt hp h)]
    rw [wholeBytes, dif_pos h]
    simp only [Bytes.bits_cons, List.append_assoc, hbits, hfront]
    exact (Pending.bits_split hp h).symm
  | case2 p h =>
    rw [wholeBytes, dif_neg h]
    rfl

/-- **One full character.**  The decoder puts out the whole bytes and goes on; they and the word
hold the bits that waited and those of the character. -/
theorem decodeFrom_cons {p : Pending} (hp : p.Fits) (h : p.held < 8) (hc : InFullRange c)
    (position : Nat) :
    (p.afterChar c).Fits ∧ (p.afterChar c).held < 8 ∧
      ∃ read : Bytes, (∀ rest, decodeFrom position p (c :: rest)
          = (read ++ ·) <$> decodeFrom (position + 1) (p.afterChar c) rest) ∧
        read.bits ++ (p.afterChar c).bits = p.bits ++ charBits c := by
  obtain ⟨hfits, hbits⟩ := bits_pushChar hp h (.inl hc)
  obtain ⟨hq, hheld, -⟩ := wholeBytes_spec hfits
  have hfull := isFull_iff_inFullRange.mpr hc
  refine ⟨hq, hheld, (wholeBytes (p.pushChar c)).1, fun rest => ?_, ?_⟩
  · rw [decodeFrom, if_pos hfull, Pending.afterChar, Pending.pushChar, if_pos hfull]
  · rw [← hbits]
    exact bits_wholeBytes hfits

/-- **Many full characters.**  The decoder can be stopped anywhere before the end: the bytes it has
put out and the word hold the bits read so far, and it goes on from that word alone. -/
theorem decodeFrom_append {p : Pending} (hp : p.Fits) (h : p.held < 8)
    (hfulls : ∀ c ∈ fulls, InFullRange c) (position : Nat) :
    (fulls.foldl Pending.afterChar p).Fits ∧ (fulls.foldl Pending.afterChar p).held < 8 ∧
      ∃ read : Bytes, (∀ rest, decodeFrom position p (fulls ++ rest)
          = (read ++ ·) <$> decodeFrom (position + fulls.length)
              (fulls.foldl Pending.afterChar p) rest) ∧
        read.bits ++ (fulls.foldl Pending.afterChar p).bits = p.bits ++ textBits fulls := by
  induction fulls generalizing p position with
  | nil =>
    refine ⟨hp, h, [], fun rest => ?_, by simp⟩
    exact (id_map (decodeFrom position p rest)).symm
  | cons c fulls ih =>
    obtain ⟨hq, hheld, first, hfirst, hfirstBits⟩ :=
      decodeFrom_cons hp h (hfulls c List.mem_cons_self) position
    obtain ⟨hfits, hlt, read, hread, hbits⟩ :=
      ih hq hheld (fun d hd => hfulls d (List.mem_cons_of_mem c hd)) (position + 1)
    refine ⟨hfits, hlt, first ++ read, fun rest => ?_, ?_⟩
    · rw [List.cons_append, hfirst, hread, List.foldl_cons, List.length_cons, Functor.map_map]
      simp only [List.append_assoc, Nat.add_assoc, Nat.add_comm 1]
    · rw [List.foldl_cons, Bytes.bits, List.flatMap_append, List.append_assoc]
      rw [Bytes.bits] at hbits hfirstBits
      rw [hbits, ← List.append_assoc, hfirstBits, textBits_cons, List.append_assoc]

/-! ## 4. Whole runs -/

/-- While these bytes are encoded, no bit is lost: in front of every byte, the characters written so
far and the word hold exactly the bits of the bytes before it, and the byte still fits the word. -/
def Packs (bs : Bytes) : Prop :=
  ∀ done b rest, bs = done ++ b :: rest →
    let p := done.foldl Pending.afterByte Pending.empty
    (∃ written, encodeFrom Pending.empty bs = written ++ encodeFrom p (b :: rest) ∧
      textBits written ++ p.bits = Bytes.bits done) ∧
    (p.push 8 b.toUInt32).Fits ∧ (p.push 8 b.toUInt32).bits = p.bits ++ bitsOf 8 b.toNat

/-- While this text is decoded, no bit is lost: in front of every character, the bytes put out so far
and the word hold exactly the bits of the characters before it, and the character's group still fits
the word. -/
def Unpacks (cs : List Char) : Prop :=
  ∀ done c rest, cs = done ++ c :: rest →
    let p := done.foldl Pending.afterChar Pending.empty
    (∃ read : Bytes, decodeFrom 0 Pending.empty cs
        = (read ++ ·) <$> decodeFrom done.length p (c :: rest) ∧
      read.bits ++ p.bits = textBits done) ∧
    (p.pushChar c).Fits ∧ (p.pushChar c).bits = p.bits ++ charBits c

theorem packs (bs : Bytes) : Packs bs := by
  rintro done b rest rfl
  obtain ⟨hfits, hheld, written, hwritten, hbits⟩ :=
    encodeFrom_append Pending.fits_empty (by decide) done
  exact ⟨⟨written, hwritten _, hbits⟩, bits_push_byte hfits hheld b⟩

/-- In front of a character of a text that conforms there are full characters only. -/
theorem Conforms.of_append {done rest : List Char} (h : Conforms (done ++ c :: rest)) :
    (∀ d ∈ done, InFullRange d) ∧ (InFullRange c ∨ InTailRange c) := by
  obtain ⟨fulls, last, heq, hfulls, hlast⟩ := h
  rcases List.append_eq_append_iff.mp heq with ⟨more, rfl, hmore⟩ | ⟨more, rfl, hmore⟩
  · refine ⟨fun d hd => hfulls d (List.mem_append_left more hd), ?_⟩
    cases more with
    | nil =>
      rcases hlast with rfl | ⟨d, rfl, hd⟩
      · simp at hmore
      · simp only [List.nil_append, List.cons.injEq] at hmore
        rw [hmore.1]
        exact .inr hd
    | cons d more =>
      rw [List.cons_append, List.cons.injEq] at hmore
      rw [hmore.1]
      exact .inl (hfulls d (by simp))
  · -- At most one character is no full one, so nothing else stands behind the full ones.
    rcases hlast with rfl | ⟨d, rfl, hd⟩
    · simp at hmore
    · obtain ⟨rfl, hcd⟩ : more = [] ∧ c = d := by
        cases more with
        | nil =>
          simp only [List.nil_append, List.cons.injEq] at hmore
          exact ⟨rfl, hmore.1.symm⟩
        | cons e more => simp at hmore
      refine ⟨fun e he => hfulls e (by simpa using he), ?_⟩
      rw [hcd]
      exact .inr hd

theorem unpacks (h : Conforms cs) : Unpacks cs := by
  rintro done c rest rfl
  obtain ⟨hdone, hc⟩ := h.of_append
  obtain ⟨hfits, hheld, read, hread, hbits⟩ :=
    decodeFrom_append Pending.fits_empty (by decide) hdone 0
  rw [Nat.zero_add] at hread
  exact ⟨⟨read, hread _, hbits⟩, bits_pushChar hfits hheld hc⟩

/-- **Encoding loses nothing.**  Of any bytes, whatever their number: the text has one character for
every fourteen bits that are begun. All of them but perhaps the last are full characters, the last
one is a full or a tail character, so none is a space or in ASCII, nor U+0000, which a number that is
no character would have become. No bit that waits in the 32-bit word is lost, in either direction.
And the text is decoded into the same bytes. -/
theorem encode_lossless (bs : Bytes) :
    (encode bs).length = encodedLen bs.length ∧ encodedLen bs.length = 8 * bs.length ⌈/⌉ 14 ∧
      Conforms (encode bs).toList ∧ (∀ c ∈ (encode bs).toList, c ≠ ' ' ∧ 0x7F < c.toNat) ∧
      Packs bs ∧ Unpacks (encode bs).toList ∧ decode (encode bs) = .ok bs := by
  have hconforms : Conforms (encode bs).toList := by
    rw [encode, String.toList_ofList]
    exact isText_iff_conforms.mp (encodeFrom_spec Pending.fits_empty (by decide) bs).1
  refine ⟨length_encode bs, ?_, hconforms, fun c hc => ?_, packs bs, unpacks hconforms,
    decode_encode bs⟩
  · rw [encodedLen, Nat.ceilDiv_eq_add_pred_div]
    rfl
  · have hlt := hconforms.lt_toNat hc
    refine ⟨?_, hlt⟩
    rintro rfl
    exact absurd hlt (by decide)

end TextTunnel.SafeText
