import TextTunnel.Proofs.Field.Groups

/-!
# Fields come back

A reader that is given a written field and anything behind it answers with the value and leaves
what is behind it. And it needs all of the field: if the input ends inside it, wherever that is, the
reader says that the input is too short, and nothing else. `Exact r bs a` says both for one value;
it passes through `pure` and `>>=`, so that the form of a whole body follows from the forms of its
fields.

* `Exact` -- a reader takes exactly these bytes, needs them all, and answers with this value.
* `exact_varint`, `exact_varintSigned`, `exact_bool`, `exact_byte`, `exact_uuid`, `exact_string` --
  the fields.
* `Exact.readAll`, `Exact.readAll_front`, `Exact.readAll_append` -- a whole byte string, one that
  has been cut, and one with something behind it.
-/

namespace TextTunnel

/-! ## 1. Written forms -/

/-- The bytes are the written form of a value: the reader answers with it, takes all of them and
nothing that follows them, and finds every proper beginning of them too short. -/
structure Exact {α : Type} (r : Reader α) (bs : Bytes) (a : α) : Prop where
  reads : ∀ rest, r (bs ++ rest) = (.ok a, rest)
  short : ∀ front missing, bs = front ++ missing → missing ≠ [] →
    (r front).1 = .error (.malformed .truncated)

section Exact

variable {α β : Type}

theorem exact_pure (a : α) : Exact (pure a) [] a where
  reads _ := rfl
  short _ _ h hne := absurd (List.append_eq_nil_iff.mp h.symm).2 hne

/-- An error of the first reader is the error of both. -/
theorem Reader.bind_fst_of_error {r : Reader α} {f : α → Reader β} {input : Bytes}
    {e : PacketError} (h : (r input).1 = .error e) : ((r >>= f) input).1 = .error e := by
  rw [Reader.bind_apply]
  split
  · next ha =>
    rw [ha] at h
    exact nomatch h
  · next ha =>
    rw [ha] at h
    exact congrArg Except.error (Except.error.inj h)

/-- The second reader goes on where the first one stopped. -/
theorem Exact.bind {r : Reader α} {f : α → Reader β} {bs cs : Bytes} {a : α} {b : β}
    (hr : Exact r bs a) (hf : Exact (f a) cs b) : Exact (r >>= f) (bs ++ cs) b where
  reads rest := by
    rw [Reader.bind_apply, List.append_assoc, hr.reads]
    exact hf.reads rest
  short front missing h hne := by
    -- The input ends inside the first field, or behind it and inside the second one.
    rcases List.append_eq_append_iff.mp h with ⟨front', rfl, hcs⟩ | ⟨missing', hbs, rfl⟩
    · rw [Reader.bind_apply, hr.reads]
      exact hf.short front' missing hcs hne
    · by_cases hnil : missing' = []
      · subst hnil
        rw [List.append_nil] at hbs
        subst hbs
        have hread := hr.reads []
        rw [List.append_nil] at hread
        rw [Reader.bind_apply, hread]
        exact hf.short [] cs rfl hne
      · exact Reader.bind_fst_of_error (hr.short front missing' hbs hnil)

/-- A last reader that takes nothing. -/
theorem Exact.bind_pure {r : Reader α} {f : α → Reader β} {bs : Bytes} {a : α} {b : β}
    (hr : Exact r bs a) (hf : f a = pure b) : Exact (r >>= f) bs b := by
  have h := hr.bind (show Exact (f a) [] b from hf ▸ exact_pure b)
  rwa [List.append_nil] at h

variable {r : Reader α} {bs : Bytes} {a : α}

/-- A whole byte string that is a written form. -/
theorem Exact.readAll (h : Exact r bs a) : r.readAll bs = .ok a := by
  have hr := h.reads []
  rw [List.append_nil] at hr
  rw [Reader.readAll, Reader.bind_apply, hr]
  rfl

/-- A written form that has been cut. -/
theorem Exact.readAll_front (h : Exact r bs a) {front : Bytes} (hfront : front <+: bs)
    (hne : front ≠ bs) : r.readAll front = .error (.malformed .truncated) := by
  obtain ⟨missing, rfl⟩ := hfront
  refine Reader.bind_fst_of_error (h.short front missing rfl ?_)
  rintro rfl
  exact hne (List.append_nil front).symm

/-- A written form with something behind it. -/
theorem Exact.readAll_append (h : Exact r bs a) {rest : Bytes} (hne : rest ≠ []) :
    r.readAll (bs ++ rest) = .error (.malformed (.trailingBytes rest.length)) := by
  have hfinish : Reader.finish rest = (.error (.malformed (.trailingBytes rest.length)), rest) := by
    rw [Reader.finish, if_neg (by simpa using hne)]
  rw [Reader.readAll, Reader.bind_apply, h.reads]
  exact Reader.bind_fst_of_error (congrArg Prod.fst hfinish)

end Exact

/-! ## 2. Numbers -/

theorem exact_byte (b : UInt8) : Exact Reader.byte [b] b where
  reads _ := rfl
  short front missing h hne := by
    rcases List.append_eq_singleton_iff.mp h.symm with ⟨rfl, -⟩ | ⟨-, rfl⟩
    · rfl
    · exact absurd rfl hne

/-- A byte in front. -/
theorem Exact.cons {α : Type} {b : UInt8} {bs : Bytes} {f : UInt8 → Reader α} {a : α}
    (h : Exact (f b) bs a) : Exact (Reader.byte >>= f) (b :: bs) a :=
  (exact_byte b).bind h

/-- What has been cut is shorter. -/
theorem length_front_lt {bs front missing : Bytes} (h : bs = front ++ missing)
    (hne : missing ≠ []) : front.length < bs.length := by
  have hpos := List.length_pos_iff.mpr hne
  rw [h, List.length_append]
  omega

theorem exact_varint (n : UInt32) : Exact Reader.varint (Field.varint n) n where
  reads rest := by
    have hread := varint_groups (Field.groups_varintOfNat n.toNat) (Field.length_varint_le n) rest
    rwa [Field.ofGroups_varintOfNat, UInt32.ofNat_toNat] at hread
  short front missing h hne := by
    have hlt := length_front_lt h hne
    have hfront := (Field.groups_varintOfNat n.toNat).announces_of_front h hne
    rw [varint_cut hfront (Nat.lt_of_lt_of_le hlt (Field.length_varint_le n))]

theorem exact_varintSigned (n : Int32) : Exact Reader.varintSigned (Field.varintSigned n) n :=
  (exact_varint n.toUInt32).bind_pure (by simp)

theorem exact_bool (b : Bool) : Exact Reader.bool (Field.bool b) b := by
  cases b <;> exact (exact_byte _).bind_pure (by simp)

theorem exact_uuid (u : Uuid) : Exact Reader.uuid (Field.uuid u) u where
  reads rest := by
    have hlen : 16 ≤ (u.bytes ++ rest).length := by
      rw [List.length_append, u.length_eq]
      omega
    rw [Reader.uuid, Field.uuid, dif_pos hlen]
    have htake : (u.bytes ++ rest).take 16 = u.bytes := by
      rw [← u.length_eq]
      exact List.take_left
    have hdrop : (u.bytes ++ rest).drop 16 = rest := by
      rw [← u.length_eq]
      exact List.drop_left
    simp only [htake, hdrop]
  short front missing h hne := by
    have hlt := length_front_lt h hne
    rw [Field.uuid, u.length_eq] at hlt
    rw [Reader.uuid, dif_neg (Nat.not_le.mpr hlt)]

/-! ## 3. Text -/

theorem byteArray_toList_loop (b : ByteArray) (i : Nat) (done : List UInt8) :
    ByteArray.toList.loop b i done = done.reverse ++ b.data.toList.drop i := by
  induction i, done using ByteArray.toList.loop.induct b with
  | case1 i done h ih =>
    have hget : b.get! i = b.data.toList[i] := by
      rw [ByteArray.get!]
      exact getElem!_pos b.data i h
    rw [ByteArray.toList.loop, if_pos h, ih, List.reverse_cons, List.append_assoc, hget,
      List.singleton_append, ← List.drop_eq_getElem_cons]
  | case2 i done h =>
    have hle : b.data.toList.length ≤ i := Nat.le_of_not_lt h
    rw [ByteArray.toList.loop, if_neg h, List.drop_eq_nil_of_le hle, List.append_nil]

theorem byteArray_toList (b : ByteArray) : b.toList = b.data.toList := by
  rw [ByteArray.toList, byteArray_toList_loop]
  rfl

/-- The bytes of a text are those of its characters. -/
theorem utf8_eq_flatMap (s : String) : Field.utf8 s = s.toList.flatMap String.utf8EncodeChar := by
  rw [Field.utf8, byteArray_toList, String.toUTF8_eq_toByteArray, ← String.utf8Encode_toList,
    List.utf8Encode, List.toList_data_toByteArray]

theorem length_utf8_le (s : String) : (Field.utf8 s).length ≤ 4 * s.length := by
  rw [utf8_eq_flatMap, ← String.length_toList]
  induction s.toList with
  | nil => exact Nat.zero_le _
  | cons c cs ih =>
    rw [List.flatMap_cons, List.length_append, String.length_utf8EncodeChar, List.length_cons]
    have := c.utf8Size_le_four
    omega

theorem textOfUtf8?_utf8 (s : String) : Reader.textOfUtf8? (Field.utf8 s) = some s := by
  have hbytes : ByteArray.mk (Field.utf8 s).toArray = s.toByteArray := by
    rw [Field.utf8, byteArray_toList, String.toUTF8_eq_toByteArray]
  rw [Reader.textOfUtf8?, hbytes, String.fromUTF8?, dif_pos s.isValidUTF8]
  rfl

theorem exact_text (s : String) :
    Exact (Reader.text (Field.utf8 s).length) (Field.utf8 s) s where
  reads rest := by
    rw [Reader.text, if_pos (by simp), List.take_left, textOfUtf8?_utf8, List.drop_left]
  short front missing h hne := by
    have hlt := length_front_lt h hne
    rw [Reader.text, if_neg (Nat.not_le.mpr hlt)]

/-- The form in which a string travels: how many bytes it has, and the bytes. -/
def Field.prefixed (s : String) : Bytes :=
  Field.varint (UInt32.ofNat (Field.utf8 s).length) ++ Field.utf8 s

theorem writeString_eq_ok_iff {maxChars : Nat} {s : String} {bs : Bytes} :
    Field.string maxChars s = .ok bs ↔ s.length ≤ maxChars ∧ bs = Field.prefixed s := by
  rw [Field.string]
  split
  · next hmax =>
    rw [Except.ok.injEq]
    exact ⟨fun h => ⟨hmax, h.symm⟩, fun h => h.2.symm⟩
  · next hmax => exact ⟨fun h => absurd h (by simp), fun h => absurd h.1 hmax⟩

theorem exists_string_iff {maxChars : Nat} {s : String} :
    (∃ bs, Field.string maxChars s = .ok bs) ↔ s.length ≤ maxChars := by
  simp [writeString_eq_ok_iff]

/-- **Texts come back**, provided that the four bytes which a character takes at most let the number
of bytes fit 32 bits. -/
theorem exact_string {maxChars : Nat} {s : String} {bs : Bytes} (hmax : 4 * maxChars < 2 ^ 32)
    (h : Field.string maxChars s = .ok bs) : Exact (Reader.string maxChars) bs s := by
  obtain ⟨hs, rfl⟩ := writeString_eq_ok_iff.mp h
  have hlen := length_utf8_le s
  have hnat : (UInt32.ofNat (Field.utf8 s).length).toNat = (Field.utf8 s).length := by
    rw [UInt32.toNat_ofNat']
    exact Nat.mod_eq_of_lt (by omega)
  refine (exact_varint _).bind ?_
  rw [hnat, if_neg (by omega)]
  exact (exact_text s).bind_pure (if_pos hs)

end TextTunnel
