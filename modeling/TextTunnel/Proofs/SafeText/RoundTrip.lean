import TextTunnel.Proofs.SafeText.Bits

/-!
# Text-safe bytes come back

A text of the alphabet denotes a bit string: fourteen bits for each full character and seven for the
tail character that may end it. The encoder writes a text that denotes the bytes, filled up with
fewer than eight zero bits; the decoder reads the whole bytes of what a text denotes. So decoding
undoes encoding.

* `IsText`, `textBits` -- the texts that can be decoded, and what they denote.
* `encodeFrom_spec` -- what the encoder writes.
* `decodeFrom_eq_ok` -- what the decoder makes of a text.
* `decode_encode` -- the two together; `length_encode` -- how long an encoded text is.
* `decode_take` -- what is decoded of an encoded text that has been cut.
-/

namespace TextTunnel.SafeText

/-! ## 1. Texts and what they denote -/

/-- Full characters, and behind them at most one tail character. -/
def IsText : List Char → Prop
  | [] => True
  | c :: cs => isFull c = true ∧ IsText cs ∨ isFull c = false ∧ isTail c = true ∧ cs = []

/-- The bits that a character stands for. -/
def charBits (c : Char) : List Bool :=
  if isFull c then bitsOf fullBits (c.toNat - fullBase) else bitsOf tailBits (c.toNat - tailBase)

/-- The bits that a text stands for. -/
def textBits (cs : List Char) : List Bool :=
  cs.flatMap charBits

@[simp] theorem textBits_nil : textBits [] = [] := rfl

@[simp] theorem textBits_cons (c : Char) (cs : List Char) :
    textBits (c :: cs) = charBits c ++ textBits cs := rfl

theorem toNat_ofNat_of_lt {n : Nat} (h : n < 0xD800) : (Char.ofNat n).toNat = n := by
  have hv : n.isValidChar := Or.inl h
  rw [Char.ofNat, dif_pos hv]
  rfl

theorem isFull_iff {c : Char} :
    isFull c = true ↔ fullBase ≤ c.toNat ∧ c.toNat < fullBase + 2 ^ 14 := by
  rw [isFull, Bool.and_eq_true, decide_eq_true_iff, decide_eq_true_iff]
  rfl

theorem isTail_iff {c : Char} :
    isTail c = true ↔ tailBase ≤ c.toNat ∧ c.toNat < tailBase + 2 ^ 7 := by
  rw [isTail, Bool.and_eq_true, decide_eq_true_iff, decide_eq_true_iff]
  rfl

theorem toNat_fullChar {group : UInt32} (h : group.toNat < 2 ^ 14) :
    (fullChar group).toNat = fullBase + group.toNat := by
  have hlt : fullBase + group.toNat < 0xD800 := by simp only [fullBase]; omega
  exact toNat_ofNat_of_lt hlt

theorem toNat_tailChar {group : UInt32} (h : group.toNat < 2 ^ 7) :
    (tailChar group).toNat = tailBase + group.toNat := by
  have hlt : tailBase + group.toNat < 0xD800 := by simp only [tailBase]; omega
  exact toNat_ofNat_of_lt hlt

theorem isFull_fullChar {group : UInt32} (h : group.toNat < 2 ^ 14) :
    isFull (fullChar group) = true := by
  rw [isFull_iff, toNat_fullChar h]
  omega

theorem isFull_tailChar {group : UInt32} (h : group.toNat < 2 ^ 7) :
    isFull (tailChar group) = false := by
  rw [← Bool.not_eq_true, isFull_iff, toNat_tailChar h]
  simp only [tailBase, fullBase]
  omega

theorem isTail_tailChar {group : UInt32} (h : group.toNat < 2 ^ 7) :
    isTail (tailChar group) = true := by
  rw [isTail_iff, toNat_tailChar h]
  omega

theorem charBits_fullChar {group : UInt32} (h : group.toNat < 2 ^ 14) :
    charBits (fullChar group) = bitsOf 14 group.toNat := by
  rw [charBits, if_pos (isFull_fullChar h), toNat_fullChar h, Nat.add_sub_cancel_left, fullBits]

theorem charBits_tailChar {group : UInt32} (h : group.toNat < 2 ^ 7) :
    charBits (tailChar group) = bitsOf 7 group.toNat := by
  rw [charBits, isFull_tailChar h, if_neg (by decide), toNat_tailChar h, Nat.add_sub_cancel_left,
    tailBits]

/-! ## 2. What the encoder writes -/

/-- The last character ends a text, and denotes the waiting bits filled up with zeros. -/
theorem lastChar_spec {p : Pending} (hp : p.Fits) (h : p.held < fullBits) :
    IsText (lastChar p) ∧
      ∃ k < 8, textBits (lastChar p) = p.bits ++ List.replicate k false := by
  simp only [fullBits] at h
  unfold lastChar
  split
  · next h0 =>
    refine ⟨trivial, 0, by decide, ?_⟩
    have hnil : p.bits = [] := List.length_eq_zero_iff.mp (by rw [p.length_bits, h0])
    simp [hnil]
  · next h0 =>
    split
    · next htail =>
      have hlt : (p.padded tailBits).toNat < 2 ^ 7 := Pending.padded_lt hp htail (by decide)
      refine ⟨Or.inr ⟨isFull_tailChar hlt, isTail_tailChar hlt, rfl⟩, tailBits - p.held, ?_, ?_⟩
      · simp only [tailBits]; omega
      · rw [textBits_cons, textBits_nil, List.append_nil, charBits_tailChar hlt]
        exact Pending.bitsOf_padded hp htail (by decide)
    · next htail =>
      have hle : p.held ≤ fullBits := Nat.le_of_lt h
      have hlt : (p.padded fullBits).toNat < 2 ^ 14 := Pending.padded_lt hp hle (by decide)
      refine ⟨Or.inl ⟨isFull_fullChar hlt, trivial⟩, fullBits - p.held, ?_, ?_⟩
      · simp only [tailBits, fullBits] at htail ⊢; omega
      · rw [textBits_cons, textBits_nil, List.append_nil, charBits_fullChar hlt]
        exact Pending.bitsOf_padded hp hle (by decide)

/-- What one more byte does to the waiting bits of an encoder. -/
theorem bits_push_byte {p : Pending} (hp : p.Fits) (h : p.held < fullBits) (b : UInt8) :
    (p.push 8 b.toUInt32).Fits ∧ (p.push 8 b.toUInt32).bits = p.bits ++ bitsOf 8 b.toNat := by
  have hb : b.toUInt32.toNat < 2 ^ 8 := by simpa using b.toNat_lt
  have hroom : p.held + 8 < 32 := by simp only [fullBits] at h; omega
  refine ⟨Pending.fits_push hp hb hroom, ?_⟩
  rw [Pending.bits_push hp hb hroom, UInt8.toNat_toUInt32]

/-- **What the encoder writes.**  It is a text, and it denotes the waiting bits and the bytes,
filled up with fewer than eight zeros. -/
theorem encodeFrom_spec {p : Pending} (hp : p.Fits) (h : p.held < fullBits) (bs : Bytes) :
    IsText (encodeFrom p bs) ∧
      ∃ k < 8, textBits (encodeFrom p bs) = p.bits ++ (bs.bits ++ List.replicate k false) := by
  induction bs generalizing p with
  | nil => simpa [encodeFrom] using lastChar_spec hp h
  | cons b bs ih =>
    obtain ⟨hq, hbits⟩ := bits_push_byte hp h b
    simp only [encodeFrom]
    split
    · next hfull =>
      have hheld : (p.push 8 b.toUInt32).held - fullBits < fullBits := by
        simp only [Pending.held_push, fullBits] at h ⊢; omega
      obtain ⟨htext, k, hk, hcs⟩ := ih (Pending.fits_dropFront hq fullBits) hheld
      have hlt : ((p.push 8 b.toUInt32).front fullBits).toNat < 2 ^ 14 := Pending.front_lt hq hfull
      refine ⟨Or.inl ⟨isFull_fullChar hlt, htext⟩, k, hk, ?_⟩
      have hsplit := Pending.bits_split hq hfull
      rw [hbits] at hsplit
      rw [textBits_cons, charBits_fullChar hlt, hcs, ← List.append_assoc]
      simp only [fullBits] at hsplit ⊢
      rw [← hsplit, Bytes.bits_cons]
      simp only [List.append_assoc]
    · next hfull =>
      obtain ⟨htext, k, hk, hcs⟩ := ih hq (by omega)
      refine ⟨htext, k, hk, ?_⟩
      rw [hcs, hbits, Bytes.bits_cons]
      simp only [List.append_assoc]

/-- The number of characters that the encoder writes. -/
theorem length_encodeFrom {p : Pending} (h : p.held < fullBits) (bs : Bytes) :
    (encodeFrom p bs).length = (p.held + 8 * bs.length + 13) / 14 := by
  simp only [fullBits] at h
  induction bs generalizing p with
  | nil =>
    simp only [encodeFrom, lastChar, List.length_nil]
    split
    · simp only [List.length_nil]; omega
    · split <;> simp only [List.length_cons, List.length_nil] <;> omega
  | cons b bs ih =>
    simp only [encodeFrom]
    split
    · next hfull =>
      simp only [fullBits, Pending.held_push] at hfull
      have hheld : ((p.push 8 b.toUInt32).dropFront fullBits).held < 14 := by
        simp only [Pending.held_dropFront, Pending.held_push, fullBits]; omega
      rw [List.length_cons, ih hheld, List.length_cons]
      simp only [Pending.held_dropFront, Pending.held_push, fullBits]
      omega
    · next hfull =>
      simp only [fullBits, Pending.held_push] at hfull
      have hheld : (p.push 8 b.toUInt32).held < 14 := by simp only [Pending.held_push]; omega
      rw [ih hheld, List.length_cons, Pending.held_push]
      congr 1
      omega

/-- An encoded text is as long as it was said to be. -/
theorem length_encode (bs : Bytes) : (encode bs).length = encodedLen bs.length := by
  rw [encode, String.length_ofList, length_encodeFrom (by decide), encodedLen]
  simp only [Pending.empty, fullBits, Nat.zero_add]

/-! ## 3. What the decoder reads -/

/-- The whole bytes of the waiting bits, whatever follows them. -/
theorem wholeBytes_spec {p : Pending} (hp : p.Fits) :
    (wholeBytes p).2.Fits ∧ (wholeBytes p).2.held < 8 ∧
      ∀ rest, Bytes.ofBits (p.bits ++ rest)
        = (wholeBytes p).1 ++ Bytes.ofBits ((wholeBytes p).2.bits ++ rest) := by
  induction p using wholeBytes.induct with
  | case1 p h bytes rest hrest ih =>
    obtain ⟨hfits, hheld, hbytes⟩ := ih (Pending.fits_dropFront hp 8)
    rw [wholeBytes, dif_pos h]
    refine ⟨hfits, hheld, fun l => ?_⟩
    have hfront : (p.front 8).toUInt8.toNat = (p.front 8).toNat := by
      rw [UInt32.toNat_toUInt8, Nat.mod_eq_of_lt (Pending.front_lt hp h)]
    rw [Pending.bits_split hp h, ← hfront, List.append_assoc, Bytes.ofBits_byte_append, hbytes]
    rfl
  | case2 p h =>
    rw [wholeBytes, dif_neg h]
    exact ⟨hp, Nat.lt_of_not_le h, fun _ => rfl⟩

theorem wholeBytes_fst {p : Pending} (hp : p.Fits) : (wholeBytes p).1 = Bytes.ofBits p.bits := by
  obtain ⟨-, hheld, hbytes⟩ := wholeBytes_spec hp
  have hnone : Bytes.ofBits (wholeBytes p).2.bits = [] :=
    Bytes.ofBits_of_length_lt (by rw [Pending.length_bits]; exact hheld)
  simpa only [List.append_nil, hnone] using (hbytes []).symm

/-- A group of a text as a number. -/
theorem toNat_group {n base width : Nat} (h : n < base + 2 ^ width) (hb : base ≤ n)
    (hw : width < 32) :
    (UInt32.ofNat (n - base)).toNat = n - base ∧ n - base < 2 ^ width := by
  have hlt : n - base < 2 ^ width := by omega
  have hpow : 2 ^ width < 2 ^ 32 := Nat.pow_lt_pow_right (by decide) hw
  exact ⟨by rw [UInt32.toNat_ofNat']; exact Nat.mod_eq_of_lt (by omega), hlt⟩

/-- A group of a text behind fewer than eight waiting bits: it fits, and its bits are appended. -/
theorem bits_push_group {p : Pending} (hp : p.Fits) (h : p.held < 8) {n base width : Nat}
    (hb : base ≤ n) (hn : n < base + 2 ^ width) (hw : width ≤ 14) :
    (p.push width (UInt32.ofNat (n - base))).Fits ∧
      (p.push width (UInt32.ofNat (n - base))).bits = p.bits ++ bitsOf width (n - base) := by
  obtain ⟨hval, hgroup⟩ := toNat_group hn hb (by omega)
  have hv : (UInt32.ofNat (n - base)).toNat < 2 ^ width := by
    rw [hval]
    exact hgroup
  have hbits := Pending.bits_push hp hv (by omega)
  rw [hval] at hbits
  exact ⟨Pending.fits_push hp hv (by omega), hbits⟩

/-- **What the decoder reads.**  A text is decoded into the whole bytes of the bits that waited and
those that it denotes. -/
theorem decodeFrom_eq_ok (cs : List Char) (position : Nat) {p : Pending} (hp : p.Fits)
    (h : p.held < 8) (hcs : IsText cs) :
    decodeFrom position p cs = .ok (Bytes.ofBits (p.bits ++ textBits cs)) := by
  induction cs generalizing position p with
  | nil =>
    rw [decodeFrom, textBits_nil, List.append_nil,
      Bytes.ofBits_of_length_lt (by rw [p.length_bits]; exact h)]
  | cons c cs ih =>
    rcases hcs with ⟨hfull, hcs⟩ | ⟨hfull, htail, rfl⟩
    · obtain ⟨hle, hlt⟩ := isFull_iff.mp hfull
      obtain ⟨hq, hbits⟩ := bits_push_group hp h hle hlt (Nat.le_refl 14)
      obtain ⟨hfits, hheld, hbytes⟩ := wholeBytes_spec hq
      rw [decodeFrom, if_pos hfull]
      simp only [fullBits]
      rw [ih (position + 1) hfits hheld hcs, textBits_cons, charBits, if_pos hfull,
        ← List.append_assoc]
      simp only [fullBits]
      rw [← hbits, hbytes]
      rfl
    · obtain ⟨hle, hlt⟩ := isTail_iff.mp htail
      obtain ⟨hq, hbits⟩ := bits_push_group hp h hle hlt (by decide)
      rw [decodeFrom, hfull, if_neg (by decide), if_pos htail, if_pos List.isEmpty_nil]
      rw [textBits_cons, textBits_nil, List.append_nil, charBits, hfull, if_neg (by decide)]
      simp only [tailBits]
      rw [wholeBytes_fst hq, hbits]

/-- **Decoding undoes encoding.** -/
theorem decode_encode (bs : Bytes) : decode (encode bs) = .ok bs := by
  obtain ⟨htext, k, hk, hbits⟩ := encodeFrom_spec Pending.fits_empty (by decide) bs
  rw [decode, encode, String.toList_ofList,
    decodeFrom_eq_ok _ 0 Pending.fits_empty (by decide) htext, hbits]
  simp only [Pending.bits_empty, List.nil_append]
  rw [Bytes.ofBits_bits_append bs (by rw [List.length_replicate]; exact hk)]

/-! ## 4. Texts that have been cut -/

/-- The first `n` characters of a text. -/
def front (n : Nat) (text : String) : String :=
  String.ofList (text.toList.take n)

theorem length_charBits {c : Char} (h : isFull c = true) : (charBits c).length = 14 := by
  rw [charBits, if_pos h, length_bitsOf, fullBits]

/-- A text that has been cut is a text, and denotes the first bits: only the last character can be
a tail character. -/
theorem IsText.take {cs : List Char} (h : IsText cs) {n : Nat} (hn : n < cs.length) :
    IsText (cs.take n) ∧ textBits (cs.take n) = (textBits cs).take (14 * n) := by
  induction n generalizing cs with
  | zero => exact ⟨trivial, rfl⟩
  | succ n ih =>
    cases cs with
    | nil => exact absurd hn (Nat.not_lt_zero _)
    | cons c cs =>
      have hn' : n < cs.length := Nat.lt_of_succ_lt_succ hn
      rcases h with ⟨hfull, hcs⟩ | ⟨-, -, rfl⟩
      · obtain ⟨htext, hbits⟩ := ih hcs hn'
        refine ⟨Or.inl ⟨hfull, htext⟩, ?_⟩
        have htake : (charBits c ++ textBits cs).take (14 * (n + 1))
            = charBits c ++ (textBits cs).take (14 * n) := by
          rw [← List.take_length_add_append, length_charBits hfull, Nat.mul_succ, Nat.add_comm]
        rw [List.take_succ_cons, textBits_cons, textBits_cons, hbits, htake]
      · exact absurd hn' (Nat.not_lt_zero _)

/-- **A text that has been cut is decoded into the first bytes.**  Fourteen bits are left for every
character, and the bytes that these bits fill. -/
theorem decode_take (bs : Bytes) {n : Nat} (hn : n < (encode bs).length) :
    decode (front n (encode bs)) = .ok (bs.take (14 * n / 8)) ∧
      14 * n / 8 < bs.length := by
  obtain ⟨htext, k, -, hbits⟩ := encodeFrom_spec Pending.fits_empty (by decide) bs
  have hlen : 14 * n < 8 * bs.length := by
    rw [length_encode, encodedLen, fullBits] at hn
    omega
  rw [encode, String.length_ofList] at hn
  obtain ⟨hcut, hcutBits⟩ := htext.take hn
  -- The zeros that fill up the last character are not reached.
  have hbytes : (textBits (encodeFrom Pending.empty bs)).take (14 * n) = bs.bits.take (14 * n) := by
    rw [hbits, Pending.bits_empty, List.nil_append,
      List.take_append_of_le_length (by rw [Bytes.length_bits]; omega)]
  refine ⟨?_, by omega⟩
  rw [decode, front, encode, String.toList_ofList, String.toList_ofList,
    decodeFrom_eq_ok _ 0 Pending.fits_empty (by decide) hcut, hcutBits, hbytes,
    Pending.bits_empty, List.nil_append, Bytes.ofBits_take_bits]

end TextTunnel.SafeText
