import TextTunnel.Proofs.Field.RoundTrip

/-!
# What readers accept

Readers are more tolerant than writers: a number may be padded with groups of zero bits, and the
bits of a fifth byte that have no place in thirty-two are dropped. So bytes that are accepted need
not be the written form of what is read. But the value always has a written form, and that is never
longer than the bytes that were taken for it.

* `Rewritable` -- whatever a reader accepts can be written again, in no more bytes.
* `rewritable_varint`, `rewritable_varintSigned`, `rewritable_bool`, `rewritable_uuid`,
  `rewritable_string` -- the fields.
* `string_eq_ok_iff`, `string_limits` -- which strings are accepted, and that the reader's limit is
  the writer's.
-/

namespace TextTunnel

/-! ## 1. Taking a reader's success apart -/

/-- Whatever the reader accepts has a written form, which is no longer than the bytes that the
reader took. -/
def Rewritable {α : Type} (r : Reader α) (write : α → Except PacketError Bytes) : Prop :=
  ∀ ⦃input : Bytes⦄ ⦃a : α⦄ ⦃rest : Bytes⦄, r input = (.ok a, rest) →
    ∃ bs, write a = .ok bs ∧ bs.length + rest.length ≤ input.length

namespace Reader

variable {α β : Type} {r : Reader α} {input rest : Bytes}

theorem bind_eq_ok {f : α → Reader β} {b : β} :
    (r >>= f) input = (.ok b, rest) ↔ ∃ a mid, r input = (.ok a, mid) ∧ f a mid = (.ok b, rest) := by
  rw [bind_apply]
  constructor
  · intro h
    split at h
    · next a mid ha => exact ⟨a, mid, ha, h⟩
    · simp at h
  · rintro ⟨a, mid, ha, h⟩
    rw [ha]
    exact h

theorem pure_eq_ok {a b : α} :
    (pure a : Reader α) input = (.ok b, rest) ↔ a = b ∧ input = rest := by
  simp

/-- A check succeeds only on a result that is there, and takes nothing. -/
theorem ofExcept_eq_ok {x : Except PacketError α} {a : α} :
    ofExcept x input = (.ok a, rest) ↔ x = .ok a ∧ input = rest := by
  cases x with
  | ok b => simp [ofExcept]
  | error e => simp [ofExcept]

/-- A whole byte string is accepted if nothing is left of it. -/
theorem readAll_eq_ok {a : α} : r.readAll input = .ok a ↔ r input = (.ok a, []) := by
  constructor
  · intro h
    have h' : ((r >>= fun b => do finish; pure b) input).1 = .ok a := h
    rw [bind_apply] at h'
    split at h'
    · next b mid hb =>
      rw [bind_apply, finish] at h'
      by_cases hmid : mid = []
      · subst hmid
        obtain rfl : b = a := by simpa using h'
        exact hb
      · simp [hmid] at h'
    · simp at h'
  · intro h
    rw [readAll, bind_apply, h]
    rfl

end Reader

/-! ## 2. Numbers -/

theorem byte_accepts {input rest : Bytes} {b : UInt8} (h : Reader.byte input = (.ok b, rest)) :
    input = b :: rest := by
  cases input with
  | nil => simp [Reader.byte] at h
  | cons c input => simpa [Reader.byte] using h

theorem rewritable_varint : Rewritable Reader.varint fun n => .ok (Field.varint n) := by
  intro input v rest h
  obtain ⟨number, rfl, hnumber, -, rfl⟩ := varint_eq_ok_iff.mp h
  have hle : (UInt32.ofNat (Field.ofGroups number)).toNat ≤ Field.ofGroups number := by
    rw [UInt32.toNat_ofNat']
    exact Nat.mod_le _ _
  have hlen := Field.length_varintOfNat_le_of_groups hnumber hle
  refine ⟨_, rfl, ?_⟩
  rw [Field.varint, List.length_append]
  omega

theorem rewritable_varintSigned :
    Rewritable Reader.varintSigned fun n => .ok (Field.varintSigned n) := by
  intro input n rest h
  obtain ⟨v, mid, hv, h⟩ := Reader.bind_eq_ok.mp h
  obtain ⟨rfl, rfl⟩ := Reader.pure_eq_ok.mp h
  obtain ⟨bs, hbs, hlen⟩ := rewritable_varint hv
  obtain rfl := Except.ok.inj hbs
  exact ⟨_, rfl, by simpa [Field.varintSigned] using hlen⟩

/-! ## 3. Truth values and ids -/

theorem rewritable_bool : Rewritable Reader.bool fun b => .ok (Field.bool b) := by
  intro input b rest h
  obtain ⟨c, mid, hbyte, hvalue⟩ := Reader.bind_eq_ok.mp h
  have hrest : mid = rest := by
    split at hvalue
    · exact (Reader.pure_eq_ok.mp hvalue).2
    · split at hvalue
      · exact (Reader.pure_eq_ok.mp hvalue).2
      · simp at hvalue
  refine ⟨_, rfl, ?_⟩
  simp [byte_accepts hbyte, Field.bool, hrest, Nat.add_comm]

theorem rewritable_uuid : Rewritable Reader.uuid fun u => .ok (Field.uuid u) := by
  intro input u rest h
  rw [Reader.uuid] at h
  split at h
  · next hlen =>
    simp only [Prod.mk.injEq, Except.ok.injEq] at h
    obtain ⟨rfl, rfl⟩ := h
    refine ⟨_, rfl, ?_⟩
    simp only [Field.uuid, List.length_take, List.length_drop]
    omega
  · simp at h

/-! ## 4. Text -/

/-- Bytes that are read as a text are the bytes of that text. -/
theorem utf8_of_textOfUtf8? {bs : Bytes} {s : String} (h : Reader.textOfUtf8? bs = some s) :
    Field.utf8 s = bs := by
  rw [Reader.textOfUtf8?, String.fromUTF8?] at h
  split at h
  · obtain rfl := Option.some.inj h
    rw [Field.utf8, byteArray_toList]
    rfl
  · simp at h

/-- A text is taken if its bytes are there. -/
theorem text_eq_ok_iff {len : Nat} {input rest : Bytes} {s : String} :
    Reader.text len input = (.ok s, rest) ↔
      len ≤ input.length ∧ input.take len = Field.utf8 s ∧ rest = input.drop len := by
  constructor
  · intro h
    rw [Reader.text] at h
    split at h
    · next hlen =>
      split at h
      · next t ht =>
        simp only [Prod.mk.injEq, Except.ok.injEq] at h
        obtain ⟨rfl, rfl⟩ := h
        exact ⟨hlen, (utf8_of_textOfUtf8? ht).symm, rfl⟩
      · simp at h
    · simp at h
  · rintro ⟨hlen, htake, rfl⟩
    rw [Reader.text, if_pos hlen, htake, textOfUtf8?_utf8]

/-- A text of more than four times as many bytes as its limit has too many characters. -/
theorem lt_length_of_lt_utf8 {maxChars : Nat} {s : String}
    (h : 4 * maxChars < (Field.utf8 s).length) : maxChars < s.length := by
  have hle := length_utf8_le s
  omega

/-- A string is taken if its bytes are there and are a text within the limit. The check of the
number of bytes alone refuses none of these. -/
theorem string_eq_ok_iff {maxChars : Nat} {input after rest : Bytes} {n : UInt32} {s : String}
    (hn : Reader.varint input = (.ok n, after)) :
    Reader.string maxChars input = (.ok s, rest) ↔
      n.toNat ≤ after.length ∧ after.take n.toNat = Field.utf8 s ∧ s.length ≤ maxChars ∧
        rest = after.drop n.toNat := by
  rw [Reader.string, Reader.bind_apply, hn]
  dsimp only
  split
  · next hmany =>
    constructor
    · intro h
      simp at h
    · rintro ⟨hlen, htake, hmax, -⟩
      rw [← List.length_take_of_le hlen, htake] at hmany
      exact absurd (lt_length_of_lt_utf8 hmany) (Nat.not_lt.mpr hmax)
  · rw [Reader.bind_eq_ok]
    constructor
    · rintro ⟨t, mid, htext, hcheck⟩
      obtain ⟨hlen, htake, rfl⟩ := text_eq_ok_iff.mp htext
      split at hcheck
      · next hmax =>
        obtain ⟨rfl, rfl⟩ := Reader.pure_eq_ok.mp hcheck
        exact ⟨hlen, htake, hmax, rfl⟩
      · simp at hcheck
    · rintro ⟨hlen, htake, hmax, rfl⟩
      refine ⟨s, _, text_eq_ok_iff.mpr ⟨hlen, htake, rfl⟩, ?_⟩
      rw [if_pos hmax, Reader.pure_apply]

theorem rewritable_string (maxChars : Nat) :
    Rewritable (Reader.string maxChars) (Field.string maxChars) := by
  intro input s rest h
  obtain ⟨n, after, hn, -⟩ := Reader.bind_eq_ok.mp h
  obtain ⟨bs, hbs, hle⟩ := rewritable_varint hn
  obtain rfl := Except.ok.inj hbs
  obtain ⟨hlen, htake, hmax, rfl⟩ := (string_eq_ok_iff hn).mp h
  have hbytes : (Field.utf8 s).length = n.toNat := by rw [← htake, List.length_take_of_le hlen]
  rw [Field.string, if_pos hmax, hbytes, UInt32.ofNat_toNat]
  refine ⟨_, rfl, ?_⟩
  simp only [List.length_append, List.length_drop]
  omega

/-! ## 5. Strings on both sides -/

/-- A string whose number of bytes fits 32 bits is read as itself, within the same limit as it is
written. -/
theorem string_prefixed_eq_ok_iff {maxChars : Nat} {s t : String} {rest : Bytes}
    (hlen : (Field.utf8 s).length < 2 ^ 32) :
    Reader.string maxChars (Field.prefixed s) = (.ok t, rest) ↔
      t = s ∧ rest = [] ∧ s.length ≤ maxChars := by
  have hnat : (UInt32.ofNat (Field.utf8 s).length).toNat = (Field.utf8 s).length := by
    rw [UInt32.toNat_ofNat', Nat.mod_eq_of_lt hlen]
  rw [Field.prefixed, string_eq_ok_iff ((exact_varint _).reads _), hnat, List.take_length,
    List.drop_length]
  constructor
  · rintro ⟨-, heq, hmax, rfl⟩
    have hsome := textOfUtf8?_utf8 s
    rw [heq, textOfUtf8?_utf8] at hsome
    obtain rfl := Option.some.inj hsome
    exact ⟨rfl, rfl, hmax⟩
  · rintro ⟨rfl, rfl, hmax⟩
    exact ⟨Nat.le_refl _, rfl, hmax, rfl⟩

/-- **The limit of a string is a limit of characters**, for the reader as for the writer.  Where a
number of bytes is announced, the string is accepted exactly if these bytes are there and are a text
within the limit, and what is behind them is left. The number of bytes alone is never the reason to
refuse such a text. And a string that can announce its bytes passes the writer exactly if its form
passes the reader, which gives it back. -/
theorem string_limits (maxChars : Nat) :
    (∀ input n after, Reader.varint input = (.ok n, after) → ∀ s rest,
      Reader.string maxChars input = (.ok s, rest) ↔
        n.toNat ≤ after.length ∧ after.take n.toNat = Field.utf8 s ∧ s.length ≤ maxChars ∧
          rest = after.drop n.toNat) ∧
    (∀ s, s.length ≤ maxChars → ¬ 4 * maxChars < (Field.utf8 s).length) ∧
    (∀ s, (Field.utf8 s).length < 2 ^ 32 →
      ((∃ bs, Field.string maxChars s = .ok bs) ↔
        ∃ t rest, Reader.string maxChars (Field.prefixed s) = (.ok t, rest)) ∧
      ∀ bs, Field.string maxChars s = .ok bs →
        bs = Field.prefixed s ∧ Reader.string maxChars bs = (.ok s, [])) := by
  refine ⟨fun input n after hn s rest => string_eq_ok_iff hn, ?_, fun s hlen => ⟨⟨?_, ?_⟩, ?_⟩⟩
  · intro s hmax hmany
    exact absurd (lt_length_of_lt_utf8 hmany) (Nat.not_lt.mpr hmax)
  · rintro ⟨bs, hbs⟩
    obtain ⟨hmax, -⟩ := writeString_eq_ok_iff.mp hbs
    exact ⟨s, [], (string_prefixed_eq_ok_iff hlen).mpr ⟨rfl, rfl, hmax⟩⟩
  · rintro ⟨t, rest, hread⟩
    obtain ⟨-, -, hmax⟩ := (string_prefixed_eq_ok_iff hlen).mp hread
    exact ⟨Field.prefixed s, writeString_eq_ok_iff.mpr ⟨hmax, rfl⟩⟩
  · intro bs hbs
    obtain ⟨hmax, rfl⟩ := writeString_eq_ok_iff.mp hbs
    exact ⟨rfl, (string_prefixed_eq_ok_iff hlen).mpr ⟨rfl, rfl, hmax⟩⟩

end TextTunnel
