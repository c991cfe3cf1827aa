import TextTunnel.Gzip.Member
import TextTunnel.Proofs.Except

/-!
# Bytes behind compressed data

Decompression that succeeds has not looked behind the last block: with more bytes there it gives the
same output, and leaves those bytes as well. The number of symbols and blocks that it may read
depends on the length of the input, so the same has to hold with more of them allowed.

* `Local` -- a reading step that succeeds sees only the bits it takes.
* `local_decode`, `readCopy_extend`, `readCodes_extend` -- the steps of the decompressor.
* `inflate_append` -- decompression as a whole.
* `afterHeader_append` -- the header in front of the data.
-/

namespace TextTunnel.Gzip

/-! ## 1. Reading steps -/

/-- The same unread bits, and more bytes behind them. -/
def BitReader.extend (r : BitReader) (s : Bytes) : BitReader := ⟨r.pending, r.rest ++ s⟩

/-- A step that succeeds sees only the bits it takes. -/
def Local {α : Type} (f : BitReader → Except Fault (α × BitReader)) : Prop :=
  ∀ r a r' s, f r = .ok (a, r') → f (r.extend s) = .ok (a, r'.extend s)

section Local

variable {α β : Type}

theorem local_pure (a : α) : Local fun r => .ok (a, r) := by
  intro r b r' s h
  obtain ⟨rfl, rfl⟩ := Prod.mk.inj (Except.ok.inj h)
  rfl

theorem local_error (f : Fault) : Local fun _ => (.error f : Except Fault (α × BitReader)) :=
  fun _ _ _ _ h => nomatch h

/-- One step after another. -/
theorem Local.bind {f : BitReader → Except Fault (α × BitReader)}
    {g : α → BitReader → Except Fault (β × BitReader)} (hf : Local f) (hg : ∀ a, Local (g a)) :
    Local fun r => f r >>= fun p => g p.1 p.2 := by
  intro r b r' s h
  obtain ⟨⟨a, r₁⟩, h₁, h₂⟩ := bind_eq_ok.mp h
  refine bind_eq_ok.mpr ⟨(a, r₁.extend s), hf r a r₁ s h₁, ?_⟩
  exact hg a r₁ b r' s h₂

/-- A step that depends on a result that is there already. -/
theorem Local.after {x : Except Fault α} {g : α → BitReader → Except Fault (β × BitReader)}
    (hg : ∀ a, Local (g a)) : Local fun r => x >>= fun a => g a r := by
  intro r b r' s h
  obtain ⟨a, h₁, h₂⟩ := bind_eq_ok.mp h
  exact bind_eq_ok.mpr ⟨a, h₁, hg a r b r' s h₂⟩

end Local

theorem next?_extend {r r' : BitReader} {b : Bool} (s : Bytes) (h : r.next? = some (b, r')) :
    (r.extend s).next? = some (b, r'.extend s) := by
  obtain ⟨pending, rest⟩ := r
  rcases pending with _ | ⟨c, pending⟩
  · rcases rest with _ | ⟨c, rest⟩
    · exact absurd h (by simp [BitReader.next?])
    · obtain ⟨rfl, rfl⟩ := Prod.mk.inj (Option.some.inj h)
      rfl
  · obtain ⟨rfl, rfl⟩ := Prod.mk.inj (Option.some.inj h)
    rfl

theorem number?_extend {n m : Nat} {r r' : BitReader} (s : Bytes)
    (h : r.number? n = some (m, r')) : (r.extend s).number? n = some (m, r'.extend s) := by
  induction n generalizing m r with
  | zero =>
    obtain ⟨rfl, rfl⟩ := Prod.mk.inj (Option.some.inj h)
    rfl
  | succ n ih =>
    obtain ⟨⟨b, r₁⟩, hb, h⟩ := Option.bind_eq_some_iff.mp h
    obtain ⟨⟨k, r₂⟩, hk, h⟩ := Option.bind_eq_some_iff.mp h
    obtain ⟨rfl, rfl⟩ := Prod.mk.inj (Option.some.inj h)
    refine Option.bind_eq_some_iff.mpr ⟨(b, r₁.extend s), next?_extend s hb, ?_⟩
    exact Option.bind_eq_some_iff.mpr ⟨(k, r₂.extend s), ih hk, rfl⟩

theorem local_readNumber (n : Nat) : Local (readNumber n) := by
  intro r m r' s h
  rw [readNumber] at h ⊢
  split at h
  · exact nomatch h
  · next p hp =>
    obtain rfl := Except.ok.inj h
    rw [number?_extend s hp]

theorem local_decode (tree : CodeTree) : Local tree.decode := by
  induction tree with
  | empty => exact local_error .corrupt
  | leaf symbol => exact local_pure symbol
  | node zero one ihz iho =>
    intro r symbol r' s h
    rw [CodeTree.decode] at h ⊢
    split at h
    · exact nomatch h
    · next r₁ hr =>
      rw [next?_extend s hr]
      exact ihz r₁ symbol r' s h
    · next r₁ hr =>
      rw [next?_extend s hr]
      exact iho r₁ symbol r' s h

theorem local_rangeValue (ranges : Array (Nat × Nat)) (symbol : Nat) :
    Local (rangeValue ranges symbol) := by
  intro r n r' s h
  rw [rangeValue] at h ⊢
  split at h
  · exact nomatch h
  · next base extra _ =>
    split at h
    · exact nomatch h
    · next m r₁ hm =>
      obtain ⟨rfl, rfl⟩ := Prod.mk.inj (Except.ok.inj h)
      simp only [number?_extend s hm]

/-! ## 2. Coded blocks -/

theorem readCopy_extend {distances : CodeTree} {symbol length distance : Nat} {r r' : BitReader}
    (s : Bytes) (h : readCopy distances symbol r = .ok (length, distance, r')) :
    readCopy distances symbol (r.extend s) = .ok (length, distance, r'.extend s) := by
  obtain ⟨⟨l, r₁⟩, hl, h⟩ := bind_eq_ok.mp h
  obtain ⟨⟨d, r₂⟩, hd, h⟩ := bind_eq_ok.mp h
  obtain ⟨⟨n, r₃⟩, hn, h⟩ := bind_eq_ok.mp h
  cases h
  refine bind_eq_ok.mpr ⟨_, local_rangeValue _ _ r _ r₁ s hl, ?_⟩
  refine bind_eq_ok.mpr ⟨_, local_decode _ r₁ d r₂ s hd, ?_⟩
  exact bind_eq_ok.mpr ⟨_, local_rangeValue _ _ r₂ _ _ s hn, rfl⟩

theorem inflateSymbols_zero (literals distances : CodeTree) (r : BitReader) (out : Output) :
    inflateSymbols literals distances 0 r out = (out, .error .truncated) :=
  rfl

-- The table of ranges stands in `readCopy`; without the seal the two sides are compared by opening
-- it.
seal readCopy in
theorem inflateSymbols_succ (literals distances : CodeTree) (fuel : Nat) (r : BitReader)
    (out : Output) :
    inflateSymbols literals distances (fuel + 1) r out =
      match literals.decode r with
      | .error f => (out, .error f)
      | .ok (symbol, r) =>
        if symbol < endOfBlock then
          inflateSymbols literals distances fuel r (out.push (UInt8.ofNat symbol))
        else if symbol = endOfBlock then (out, .ok r)
        else
          match readCopy distances symbol r with
          | .error f => (out, .error f)
          | .ok (length, distance, r) =>
            inflateSymbols literals distances fuel r (copyBack distance length out) :=
  rfl

/-- The symbols of a block, with at least as many of them allowed. -/
theorem inflateSymbols_extend {literals distances : CodeTree} {fuel fuel' : Nat} {r r' : BitReader}
    {out out' : Output} (s : Bytes) (hfuel : fuel ≤ fuel')
    (h : inflateSymbols literals distances fuel r out = (out', .ok r')) :
    inflateSymbols literals distances fuel' (r.extend s) out = (out', .ok (r'.extend s)) := by
  induction fuel generalizing fuel' r out with
  | zero =>
    rw [inflateSymbols_zero] at h
    exact nomatch h
  | succ fuel ih =>
    obtain ⟨fuel', rfl⟩ : ∃ k, fuel' = k + 1 := ⟨fuel' - 1, by omega⟩
    have hle : fuel ≤ fuel' := by omega
    rw [inflateSymbols_succ] at h ⊢
    split at h
    · exact nomatch h
    · next symbol r₁ hs =>
      rw [local_decode _ r symbol r₁ s hs]
      dsimp only
      split at h
      · next hbyte =>
        rw [if_pos hbyte]
        exact ih hle h
      · next hbyte =>
        rw [if_neg hbyte]
        split at h
        · next hend =>
          rw [if_pos hend]
          cases h
          rfl
        · next hend =>
          rw [if_neg hend]
          split at h
          · exact nomatch h
          · next length distance r₂ hcopy =>
            rw [readCopy_extend s hcopy]
            exact ih hle h

theorem local_readTriples (n : Nat) : Local (readTriples n) := by
  induction n with
  | zero => exact local_pure []
  | succ n ih => exact (local_readNumber 3).bind fun l => ih.bind fun ls => local_pure (l :: ls)

theorem local_readLengths (tree : CodeTree) (total fuel : Nat) (done : List Nat) :
    Local (readLengths tree total fuel done) := by
  induction fuel generalizing done with
  | zero => exact local_error .corrupt
  | succ fuel ih =>
    intro r ls r' s h
    rw [readLengths] at h ⊢
    split at h
    · next hfull =>
      rw [if_pos hfull]
      exact local_pure _ r ls r' s h
    · next hfull =>
      rw [if_neg hfull]
      split at h
      · exact nomatch h
      · next hover =>
        rw [if_neg hover]
        obtain ⟨⟨symbol, r₁⟩, hsymbol, h⟩ := bind_eq_ok.mp h
        refine bind_eq_ok.mpr ⟨_, local_decode tree r symbol r₁ s hsymbol, ?_⟩
        dsimp only at h ⊢
        split at h
        · next hlength =>
          rw [if_pos hlength]
          exact ih _ r₁ ls r' s h
        · next hlength =>
          rw [if_neg hlength]
          split at h
          · next hlast =>
            rw [if_pos hlast]
            cases done with
            | nil => exact nomatch h
            | cons last done =>
              exact ((local_readNumber 2).bind fun n =>
                ih (List.replicate (3 + n) last ++ last :: done)) r₁ ls r' s h
          · next hlast =>
            rw [if_neg hlast]
            split at h
            · next hfew =>
              rw [if_pos hfew]
              exact ((local_readNumber 3).bind fun n =>
                ih (List.replicate (3 + n) 0 ++ done)) r₁ ls r' s h
            · next hfew =>
              rw [if_neg hfew]
              exact ((local_readNumber 7).bind fun n =>
                ih (List.replicate (11 + n) 0 ++ done)) r₁ ls r' s h

/-- A block's own codes. -/
theorem readCodes_extend {literals distances : CodeTree} {r r' : BitReader} (s : Bytes)
    (h : readCodes r = .ok (literals, distances, r')) :
    readCodes (r.extend s) = .ok (literals, distances, r'.extend s) := by
  obtain ⟨⟨a, r₁⟩, ha, h⟩ := bind_eq_ok.mp h
  obtain ⟨⟨b, r₂⟩, hb, h⟩ := bind_eq_ok.mp h
  obtain ⟨⟨c, r₃⟩, hc, h⟩ := bind_eq_ok.mp h
  refine bind_eq_ok.mpr ⟨_, local_readNumber 5 r a r₁ s ha, ?_⟩
  refine bind_eq_ok.mpr ⟨_, local_readNumber 5 r₁ b r₂ s hb, ?_⟩
  refine bind_eq_ok.mpr ⟨_, local_readNumber 4 r₂ c r₃ s hc, ?_⟩
  dsimp only at h ⊢
  split at h
  · exact nomatch h
  · next hmany =>
    rw [if_neg hmany]
    obtain ⟨⟨stored, r₄⟩, hstored, h⟩ := bind_eq_ok.mp h
    obtain ⟨tree, htree, h⟩ := bind_eq_ok.mp h
    obtain ⟨⟨lengths, r₅⟩, hlengths, h⟩ := bind_eq_ok.mp h
    obtain ⟨l, hl, h⟩ := bind_eq_ok.mp h
    obtain ⟨d, hd, h⟩ := bind_eq_ok.mp h
    cases h
    refine bind_eq_ok.mpr ⟨_, local_readTriples _ r₃ stored r₄ s hstored, ?_⟩
    refine bind_eq_ok.mpr ⟨tree, htree, ?_⟩
    refine bind_eq_ok.mpr ⟨_, local_readLengths _ _ _ _ r₄ lengths r₅ s hlengths, ?_⟩
    exact bind_eq_ok.mpr ⟨_, hl, bind_eq_ok.mpr ⟨_, hd, rfl⟩⟩

/-! ## 3. Blocks -/

theorem inflateStored_append {bs : Bytes} {out out' : Output} {r' : BitReader} (s : Bytes)
    (h : inflateStored bs out = (out', .ok r')) :
    inflateStored (bs ++ s) out = (out', .ok (r'.extend s)) := by
  rw [inflateStored.eq_def] at h
  split at h
  · next l0 l1 n0 n1 rest =>
    split at h
    · next hneg =>
      dsimp only at h
      split at h
      · next hlen =>
        cases h
        simp only [List.cons_append, inflateStored, if_pos hneg]
        rw [if_pos (by rw [List.length_append]; omega), List.take_append_of_le_length hlen,
          List.drop_append_of_le_length hlen]
        rfl
      · exact nomatch h
    · exact nomatch h
  · exact nomatch h

theorem inflateBlock_extend {fuel fuel' : Nat} {r r' : BitReader} {out out' : Output} (s : Bytes)
    (hfuel : fuel ≤ fuel') (h : inflateBlock fuel r out = (out', .ok r')) :
    inflateBlock fuel' (r.extend s) out = (out', .ok (r'.extend s)) := by
  rw [inflateBlock] at h ⊢
  split at h
  · exact nomatch h
  · next r₁ hr =>
    rw [number?_extend s hr]
    exact inflateStored_append s h
  · next r₁ hr =>
    rw [number?_extend s hr]
    exact inflateSymbols_extend s hfuel h
  · next r₁ hr =>
    rw [number?_extend s hr]
    split at h
    · exact nomatch h
    · next literals distances r₂ hcodes =>
      simp only [readCodes_extend s hcodes]
      exact inflateSymbols_extend s hfuel h
  · exact nomatch h

theorem inflateBlocks_extend {symbols symbols' fuel fuel' : Nat} {r : BitReader}
    {out out' : Output} {rest : Bytes} (s : Bytes) (hsymbols : symbols ≤ symbols')
    (hfuel : fuel ≤ fuel') (h : inflateBlocks symbols fuel r out = (out', .ok rest)) :
    inflateBlocks symbols' fuel' (r.extend s) out = (out', .ok (rest ++ s)) := by
  induction fuel generalizing fuel' r out with
  | zero =>
    rw [inflateBlocks] at h
    exact nomatch h
  | succ fuel ih =>
    obtain ⟨fuel', rfl⟩ : ∃ k, fuel' = k + 1 := ⟨fuel' - 1, by omega⟩
    rw [inflateBlocks] at h ⊢
    split at h
    · exact nomatch h
    · next isLast r₁ hr =>
      rw [next?_extend s hr]
      dsimp only
      split at h
      · exact nomatch h
      · next out₁ r₂ hblock =>
        rw [inflateBlock_extend s hsymbols hblock]
        dsimp only
        split at h
        · next hlast =>
          rw [if_pos hlast]
          cases h
          rfl
        · next hlast =>
          rw [if_neg hlast]
          exact ih (by omega) h

/-- **Nothing behind the last block matters**, and all of it is left. -/
theorem inflate_append {bs rest : Bytes} {out : Output} (s : Bytes)
    (h : inflate bs = (out, .ok rest)) : inflate (bs ++ s) = (out, .ok (rest ++ s)) := by
  have hlen : 8 * bs.length + 1 ≤ 8 * (bs ++ s).length + 1 := by
    rw [List.length_append]
    omega
  exact inflateBlocks_extend s hlen hlen h

/-! ## 4. The header -/

theorem afterField_append {seen : Nat} {bs rest : Bytes} (s : Bytes)
    (h : afterField seen bs = .ok rest) : afterField seen (bs ++ s) = .ok (rest ++ s) := by
  induction bs generalizing seen with
  | nil => cases h
  | cons b bs ih =>
    rw [afterField] at h
    rw [List.cons_append, afterField]
    split at h
    · next hzero => rw [if_pos hzero, Except.ok.inj h]
    · next hne =>
      rw [if_neg hne]
      split at h
      · cases h
      · next hseen =>
        rw [if_neg hseen]
        exact ih h

theorem afterExtra_append {bs rest : Bytes} (s : Bytes) (h : afterExtra bs = .ok rest) :
    afterExtra (bs ++ s) = .ok (rest ++ s) := by
  rw [afterExtra.eq_def] at h
  split at h
  · next l0 l1 bs =>
    dsimp only at h
    split at h
    · next hlen =>
      cases h
      simp only [List.cons_append, afterExtra]
      rw [if_pos (by rw [List.length_append]; omega), List.drop_append_of_le_length hlen]
    · cases h
  · cases h

/-- The checksum is that of the bytes before it, and these are the same. -/
theorem afterHeaderCrc_append {whole bs rest : Bytes} (s : Bytes)
    (h : afterHeaderCrc whole bs = .ok rest) :
    afterHeaderCrc (whole ++ s) (bs ++ s) = .ok (rest ++ s) := by
  rw [afterHeaderCrc.eq_def] at h
  split at h
  · next c0 c1 rest' =>
    dsimp only at h
    split at h
    · next hcrc =>
      cases h
      have hbefore : (whole ++ s).take ((whole ++ s).length - (c0 :: c1 :: (rest ++ s)).length)
          = whole.take (whole.length - (c0 :: c1 :: rest).length) := by
        rw [show (whole ++ s).length - (c0 :: c1 :: (rest ++ s)).length
          = whole.length - (c0 :: c1 :: rest).length by
            simp only [List.length_append, List.length_cons]
            omega]
        exact List.take_append_of_le_length (Nat.sub_le _ _)
      simp only [List.cons_append, afterHeaderCrc, hbefore, if_pos hcrc]
    · cases h
  · cases h

theorem afterOption_append {present : Bool} {f g : Bytes → Except GzipError Bytes}
    {bs rest : Bytes} (s : Bytes)
    (hfield : ∀ {bs rest}, f bs = .ok rest → g (bs ++ s) = .ok (rest ++ s))
    (h : afterOption present f bs = .ok rest) :
    afterOption present g (bs ++ s) = .ok (rest ++ s) := by
  cases present with
  | true => exact hfield h
  | false =>
    cases h
    rfl

theorem afterOptions_append {whole : Bytes} {flags : UInt8} {bs rest : Bytes} (s : Bytes)
    (h : afterOptions whole flags bs = .ok rest) :
    afterOptions (whole ++ s) flags (bs ++ s) = .ok (rest ++ s) := by
  obtain ⟨bs₁, hextra, h⟩ := bind_eq_ok.mp h
  obtain ⟨bs₂, hname, h⟩ := bind_eq_ok.mp h
  obtain ⟨bs₃, hcomment, hcrc⟩ := bind_eq_ok.mp h
  refine bind_eq_ok.mpr ⟨_, afterOption_append s (afterExtra_append s) hextra, ?_⟩
  refine bind_eq_ok.mpr ⟨_, afterOption_append s (afterField_append s) hname, ?_⟩
  refine bind_eq_ok.mpr ⟨_, afterOption_append s (afterField_append s) hcomment, ?_⟩
  exact afterOption_append s (afterHeaderCrc_append s) hcrc

/-- A header that has been read is read in the same way with more bytes behind it. -/
theorem afterHeader_append {bs body : Bytes} (s : Bytes) (h : afterHeader bs = .ok body) :
    afterHeader (bs ++ s) = .ok (body ++ s) := by
  rw [afterHeader.eq_def] at h
  split at h
  · split at h
    · next hfixed => exact (if_pos hfixed).trans (afterOptions_append s h)
    · cases h
  · cases h

end TextTunnel.Gzip
