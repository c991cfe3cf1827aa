import TextTunnel.Proofs.SafeText.Register

/-!
# Which texts are read, and which are written

The decoder accepts more than the encoder writes: it does not look at the bits that fill up the last
character, and a tail character may stand where no bit of a byte is left for it. This module says
exactly what is accepted, into what it is decoded, which error everything else gives, and which of
the accepted texts are the encoded form of what they stand for.

* `decode_eq_error` -- the first character that is no full one decides what is wrong.
* `IsText.ext` -- a text is known by the bits that it denotes.
* `EndsInIdleTail` -- the last character contributes to no byte.
* `decode_grammar` -- all of it together.
-/

namespace TextTunnel.SafeText

variable {cs ds fulls rest : List Char} {c d : Char}

/-! ## 1. Texts that are refused -/

/-- Every text is made of full characters, or has a first one that is none. -/
theorem exists_first_not_full (cs : List Char) :
    (∀ c ∈ cs, InFullRange c) ∨ ∃ fulls c rest, cs = fulls ++ c :: rest ∧
      (∀ d ∈ fulls, InFullRange d) ∧ ¬ InFullRange c := by
  induction cs with
  | nil => exact .inl (by simp)
  | cons c cs ih =>
    by_cases hc : InFullRange c
    · rcases ih with hall | ⟨fulls, d, rest, rfl, hfulls, hd⟩
      · exact .inl (List.forall_mem_cons.mpr ⟨hc, hall⟩)
      · exact .inr ⟨c :: fulls, d, rest, rfl, List.forall_mem_cons.mpr ⟨hc, hfulls⟩, hd⟩
    · exact .inr ⟨[], c, cs, rfl, by simp, hc⟩

/-- What the decoder says to a character that is no full one, unless it is a tail character at the
end: it looks at nothing behind it. -/
theorem decodeFrom_eq_error (hc : ¬ InFullRange c) (hrest : InTailRange c → rest ≠ [])
    (position : Nat) (p : Pending) :
    decodeFrom position p (c :: rest)
      = .error (if InTailRange c then .tailNotLast position else .invalidChar c position) := by
  rw [decodeFrom, if_neg (mt isFull_iff_inFullRange.mp hc)]
  by_cases htail : InTailRange c
  · rw [if_pos (isTail_iff_inTailRange.mpr htail), if_pos htail, if_neg (by simpa using hrest htail)]
  · rw [if_neg (mt isTail_iff_inTailRange.mp htail), if_neg htail]

/-- **What is wrong with a text** is decided by the first character that is no full one. -/
theorem decode_eq_error {text : String} (htext : text.toList = fulls ++ c :: rest)
    (hfulls : ∀ d ∈ fulls, InFullRange d) (hc : ¬ InFullRange c)
    (hrest : InTailRange c → rest ≠ []) :
    decode text = .error (if InTailRange c then .tailNotLast fulls.length
      else .invalidChar c fulls.length) := by
  obtain ⟨-, -, read, hread, -⟩ := decodeFrom_append Pending.fits_empty (by decide) hfulls 0
  rw [decode, htext, hread, Nat.zero_add, decodeFrom_eq_error hc hrest]
  rfl

theorem exists_of_not_conforms (h : ¬ Conforms cs) :
    ∃ fulls c rest, cs = fulls ++ c :: rest ∧ (∀ d ∈ fulls, InFullRange d) ∧ ¬ InFullRange c ∧
      (InTailRange c → rest ≠ []) := by
  rcases exists_first_not_full cs with hall | ⟨fulls, c, rest, rfl, hfulls, hc⟩
  · exact absurd ⟨cs, [], (List.append_nil cs).symm, hall, .inl rfl⟩ h
  · refine ⟨fulls, c, rest, rfl, hfulls, hc, ?_⟩
    rintro htail rfl
    exact h ⟨fulls, [c], rfl, hfulls, .inr ⟨c, rfl, htail⟩⟩

/-! ## 2. Texts that are read -/

/-- **What a text stands for.**  Its bits are those of the bytes, and fewer than eight behind them
that are dropped. -/
theorem decode_of_conforms {text : String} (h : Conforms text.toList) :
    ∃ bs dropped, decode text = .ok bs ∧ textBits text.toList = Bytes.bits bs ++ dropped ∧
      dropped.length < 8 := by
  obtain ⟨bs, dropped, hbits, hdropped⟩ := Bytes.exists_bits_append (textBits text.toList)
  refine ⟨bs, dropped, ?_, hbits, hdropped⟩
  have hread := decodeFrom_eq_ok text.toList 0 Pending.fits_empty (by decide)
    (isText_iff_conforms.mpr h)
  rw [decode, hread, Pending.bits_empty, List.nil_append, hbits,
    Bytes.ofBits_bits_append bs hdropped]

theorem conforms_of_decode_eq_ok {text : String} {bs : Bytes} (h : decode text = .ok bs) :
    Conforms text.toList := by
  by_contra hnot
  obtain ⟨fulls, c, rest, htext, hfulls, hc, hrest⟩ := exists_of_not_conforms hnot
  rw [decode_eq_error htext hfulls hc hrest] at h
  exact nomatch h

/-! ## 3. Texts and their bits -/

theorem length_charBits_tail (h : isFull c = false) : (charBits c).length = 7 := by
  rw [charBits, h, if_neg (by decide), length_bitsOf, tailBits]

theorem textBits_ne_nil (c : Char) (cs : List Char) : textBits (c :: cs) ≠ [] := by
  intro h
  have hlen := congrArg List.length h
  rw [textBits_cons, List.length_append, List.length_nil] at hlen
  cases hc : isFull c with
  | true => rw [length_charBits hc] at hlen; omega
  | false => rw [length_charBits_tail hc] at hlen; omega

/-- Two numbers of one field are told apart by their bits. -/
theorem bitsOf_inj {width m n : Nat} (hm : m < 2 ^ width) (hn : n < 2 ^ width)
    (h : bitsOf width m = bitsOf width n) : m = n := by
  have hnumber := congrArg numberOf h
  rwa [numberOf_bitsOf, numberOf_bitsOf, Nat.mod_eq_of_lt hm, Nat.mod_eq_of_lt hn] at hnumber

theorem full_ext (hc : isFull c = true) (hd : isFull d = true) (h : charBits c = charBits d) :
    c = d := by
  rw [charBits, charBits, if_pos hc, if_pos hd] at h
  obtain ⟨hcle, hclt⟩ := isFull_iff.mp hc
  obtain ⟨hdle, hdlt⟩ := isFull_iff.mp hd
  have hgroup := bitsOf_inj (by simp only [fullBits]; omega) (by simp only [fullBits]; omega) h
  exact Char.toNat_inj.mp (by omega)

theorem tail_ext (hc : isFull c = false) (hd : isFull d = false) (hct : isTail c = true)
    (hdt : isTail d = true) (h : charBits c = charBits d) : c = d := by
  rw [charBits, charBits, hc, hd, if_neg (by decide), if_neg (by decide)] at h
  obtain ⟨hcle, hclt⟩ := isTail_iff.mp hct
  obtain ⟨hdle, hdlt⟩ := isTail_iff.mp hdt
  have hgroup := bitsOf_inj (by simp only [tailBits]; omega) (by simp only [tailBits]; omega) h
  exact Char.toNat_inj.mp (by omega)

/-- **A text is known by its bits.** -/
theorem IsText.ext (hcs : IsText cs) (hds : IsText ds) (h : textBits cs = textBits ds) :
    cs = ds := by
  induction cs generalizing ds with
  | nil =>
    cases ds with
    | nil => rfl
    | cons d ds => exact absurd h.symm (textBits_ne_nil d ds)
  | cons c cs ih =>
    cases ds with
    | nil => exact absurd h (textBits_ne_nil c cs)
    | cons d ds =>
      have hlen := congrArg List.length h
      rw [textBits_cons, textBits_cons] at h hlen
      rw [List.length_append, List.length_append] at hlen
      rcases hcs with ⟨hc, hcs⟩ | ⟨hc, hct, rfl⟩ <;> rcases hds with ⟨hd, hds⟩ | ⟨hd, hdt, rfl⟩
      · obtain ⟨hchar, htext⟩ := List.append_inj h (by rw [length_charBits hc, length_charBits hd])
        rw [full_ext hc hd hchar, ih hcs hds htext]
      · rw [length_charBits hc, length_charBits_tail hd, textBits_nil, List.length_nil] at hlen
        omega
      · rw [length_charBits_tail hc, length_charBits hd, textBits_nil, List.length_nil] at hlen
        omega
      · rw [textBits_nil, List.append_nil, List.append_nil] at h
        rw [tail_ext hc hd hct hdt h]

theorem length_textBits_fulls (hfulls : ∀ c ∈ fulls, InFullRange c) :
    (textBits fulls).length = 14 * fulls.length := by
  induction fulls with
  | nil => rfl
  | cons c fulls ih =>
    have hc := isFull_iff_inFullRange.mpr (hfulls c List.mem_cons_self)
    rw [textBits_cons, List.length_append, length_charBits hc,
      ih fun d hd => hfulls d (List.mem_cons_of_mem c hd), List.length_cons]
    omega

/-- How many bits a text denotes. -/
theorem Conforms.length_textBits (h : Conforms cs) :
    (textBits cs).length = 14 * cs.length ∨ ∃ fulls c, cs = fulls ++ [c] ∧ InTailRange c ∧
      (textBits cs).length = 14 * fulls.length + 7 := by
  obtain ⟨fulls, last, rfl, hfulls, rfl | ⟨c, rfl, hc⟩⟩ := h
  · rw [List.append_nil]
    exact .inl (length_textBits_fulls hfulls)
  · refine .inr ⟨fulls, c, rfl, hc, ?_⟩
    rw [textBits_append, List.length_append, length_textBits_fulls hfulls, textBits_cons,
      textBits_nil, List.append_nil, length_charBits_tail (not_isFull_of_inTailRange hc)]

/-! ## 4. Texts that are written -/

/-- The text ends in a tail character behind a multiple of four full ones. These fill whole bytes
already, so that the tail character has a bit for none. -/
def EndsInIdleTail (cs : List Char) : Prop :=
  ∃ fulls c, cs = fulls ++ [c] ∧ InTailRange c ∧ 4 ∣ fulls.length

theorem EndsInIdleTail.exists_length (hidle : EndsInIdleTail cs) (h : Conforms cs) :
    ∃ j, cs.length = 4 * j + 1 ∧ (textBits cs).length = 56 * j + 7 := by
  obtain ⟨fulls, c, rfl, hc, j, hj⟩ := hidle
  obtain ⟨hfulls, -⟩ := h.of_append
  refine ⟨j, ?_, ?_⟩
  · rw [List.length_append, hj, List.length_singleton]
  · rw [textBits_append, List.length_append, length_textBits_fulls hfulls, textBits_cons,
      textBits_nil, List.append_nil, length_charBits_tail (not_isFull_of_inTailRange hc), hj]
    omega

theorem length_toList_encode (bs : Bytes) :
    (encode bs).toList.length = (8 * bs.length + 13) / 14 := by
  rw [String.length_toList, length_encode, encodedLen, fullBits]

/-- What the encoder writes: a text, and behind the bits of the bytes only zeros. -/
theorem encode_spec (bs : Bytes) :
    Conforms (encode bs).toList ∧
      ∃ k < 8, textBits (encode bs).toList = bs.bits ++ List.replicate k false := by
  obtain ⟨htext, k, hk, hbits⟩ := encodeFrom_spec Pending.fits_empty (by decide) bs
  rw [encode, String.toList_ofList]
  exact ⟨isText_iff_conforms.mp htext, k, hk, hbits⟩

/-- If a text is not known to be a written one, but stands for the same bytes and has no idle tail
character, the written one denotes as many bits. -/
theorem length_dropped_eq {bs : Bytes} {dropped : List Bool} (h : Conforms cs)
    (hbits : textBits cs = bs.bits ++ dropped) (hdropped : dropped.length < 8)
    (hidle : ¬ EndsInIdleTail cs) {k : Nat} (hk : k < 8)
    (hwritten : textBits (encode bs).toList = bs.bits ++ List.replicate k false) :
    k = dropped.length := by
  have hlen := congrArg List.length hbits
  have hwrittenLen := congrArg List.length hwritten
  have hchars := length_toList_encode bs
  rw [List.length_append, Bytes.length_bits] at hlen
  rw [List.length_append, Bytes.length_bits, List.length_replicate] at hwrittenLen
  rcases (encode_spec bs).1.length_textBits with hw | ⟨wfulls, _, hwtext, -, hw⟩
  · rcases h.length_textBits with hr | ⟨fulls, c, rfl, hc, hr⟩
    · -- Both end in a full character.
      omega
    · -- The full characters would fill whole bytes, and the tail character would be idle.
      by_contra hne
      have hwhole : 7 * fulls.length = 4 * bs.length := by omega
      exact hidle ⟨fulls, c, rfl, hc, by omega⟩
  · have hwchars := congrArg List.length hwtext
    rw [List.length_append, List.length_singleton] at hwchars
    rcases h.length_textBits with hr | ⟨fulls, c, rfl, hc, hr⟩
    · omega
    · omega

/-- **The written text.**  Of the texts that stand for some bytes, the encoder writes the one whose
dropped bits are zeros and which does not end in an idle tail character. -/
theorem encode_eq_iff {text : String} {bs : Bytes} {dropped : List Bool}
    (h : Conforms text.toList) (hbits : textBits text.toList = bs.bits ++ dropped)
    (hdropped : dropped.length < 8) :
    encode bs = text ↔ (∀ bit ∈ dropped, bit = false) ∧ ¬ EndsInIdleTail text.toList := by
  obtain ⟨hconforms, k, hk, hwritten⟩ := encode_spec bs
  constructor
  · rintro rfl
    constructor
    · have hzeros := List.append_cancel_left (hbits.symm.trans hwritten)
      intro bit hbit
      rw [hzeros] at hbit
      exact List.eq_of_mem_replicate hbit
    · intro hidle
      obtain ⟨j, hchars, hlen⟩ := hidle.exists_length h
      rw [length_toList_encode] at hchars
      rw [hbits, List.length_append, Bytes.length_bits] at hlen
      omega
  · rintro ⟨hzero, hidle⟩
    obtain rfl := length_dropped_eq h hbits hdropped hidle hk hwritten
    have hzeros : dropped = List.replicate dropped.length false := List.eq_replicate_of_mem hzero
    rw [← hzeros, ← hbits] at hwritten
    exact String.toList_inj.mp
      ((isText_iff_conforms.mpr hconforms).ext (isText_iff_conforms.mpr h) hwritten)

/-- **The decoder, exactly.**  A text is accepted if and only if it is made of full characters and
at most one tail character behind them. It stands for the whole bytes at the front of the bits that
it denotes, fourteen for each full character and seven for the tail character; fewer than eight bits
are dropped. If it is not accepted, its first character that is no full one is to blame: for not
being the last one if it is a tail character, whatever follows it, and for being foreign if it is
not. And an accepted text is the encoded form of its bytes if and only if the dropped bits are all
zero and it does not end in a tail character behind a multiple of four full ones. -/
theorem decode_grammar (text : String) :
    ((∃ bs, decode text = .ok bs) ↔ Conforms text.toList) ∧
    (∀ bs, decode text = .ok bs → ∃ dropped,
      textBits text.toList = bs.bits ++ dropped ∧
      bs.length = (textBits text.toList).length / 8 ∧
      (encode bs = text ↔
        (∀ bit ∈ dropped, bit = false) ∧ ¬ EndsInIdleTail text.toList)) ∧
    (¬ Conforms text.toList → ∃ fulls c rest,
      text.toList = fulls ++ c :: rest ∧ (∀ d ∈ fulls, InFullRange d) ∧ ¬ InFullRange c ∧
      decode text = .error (if InTailRange c then .tailNotLast fulls.length
        else .invalidChar c fulls.length)) := by
  refine ⟨⟨?_, ?_⟩, ?_, ?_⟩
  · rintro ⟨bs, hbs⟩
    exact conforms_of_decode_eq_ok hbs
  · intro h
    obtain ⟨bs, _, hbs, -⟩ := decode_of_conforms h
    exact ⟨bs, hbs⟩
  · intro bs hbs
    have h := conforms_of_decode_eq_ok hbs
    obtain ⟨bs', dropped, hbs', hbits, hdropped⟩ := decode_of_conforms h
    obtain rfl : bs' = bs := Except.ok.inj (hbs'.symm.trans hbs)
    refine ⟨dropped, hbits, ?_, encode_eq_iff h hbits hdropped⟩
    rw [hbits, List.length_append, Bytes.length_bits]
    omega
  · intro h
    obtain ⟨fulls, c, rest, htext, hfulls, hc, hrest⟩ := exists_of_not_conforms h
    exact ⟨fulls, c, rest, htext, hfulls, hc, decode_eq_error htext hfulls hc hrest⟩

end TextTunnel.SafeText
