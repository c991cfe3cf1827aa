import TextTunnel.Uuid

/-!
# Ids come back

The usual form of an id is one of the forms that are read, and it is read as that id.

* `Bytes.ofHexChars?_hexChars` -- hexadecimal text comes back.
* `Uuid.ofString?_toString` -- so does an id.
-/

namespace TextTunnel

namespace Bytes

/-- **Two digits a byte**: what has been written behind the bytes read so far is read. -/
theorem ofHexFrom?_hexChars (done bs : Bytes) :
    ofHexFrom? done (hexChars bs) = some (done.reverse ++ bs) := by
  induction bs generalizing done with
  | nil => rw [List.append_nil]; rfl
  | cons b bs ih =>
    have hb : 16 * (b.toNat / 16) + b.toNat % 16 = b.toNat := Nat.div_add_mod b.toNat 16
    have hlt : b.toNat / 16 < 16 := by
      have := b.toNat_lt
      omega
    show ofHexFrom? done
      (Nat.digitChar (b.toNat / 16) :: Nat.digitChar (b.toNat % 16) :: hexChars bs) = _
    rw [ofHexFrom?, Text.hexValue?_digitChar hlt,
      Text.hexValue?_digitChar (Nat.mod_lt _ (by decide))]
    simp only [hb, UInt8.ofNat_toNat, ih, List.reverse_cons, List.append_assoc, List.singleton_append]

theorem ofHexChars?_hexChars (bs : Bytes) : ofHexChars? (hexChars bs) = some bs :=
  ofHexFrom?_hexChars [] bs

theorem hexChars_append (xs ys : Bytes) : hexChars (xs ++ ys) = hexChars xs ++ hexChars ys :=
  List.flatMap_append

end Bytes

namespace Uuid

/-- Groups of digits of the right lengths lose their hyphens and nothing else. -/
theorem withoutHyphens?_groups {a b c d e : List Char} (ha : a.length = 8) (hb : b.length = 4)
    (hc : c.length = 4) (hd : d.length = 4) (he : e.length = 12) :
    withoutHyphens? (a ++ '-' :: b ++ '-' :: c ++ '-' :: d ++ '-' :: e)
      = some (a ++ b ++ c ++ d ++ e) := by
  unfold withoutHyphens?
  rw [if_pos]
  · simp (disch := omega) [List.drop_append, List.drop_of_length_le, ha, hb, hc, hd]
  · simp [List.getElem?_append, ha, hb, hc, hd, he]

/-- **An id comes back** from its usual form. -/
@[simp] theorem ofString?_toString (u : Uuid) : ofString? u.toString = some u := by
  obtain ⟨bs, hbs⟩ := u
  have hgroups : withoutHyphens? (hyphenated bs) = some (Bytes.hexChars bs) := by
    unfold hyphenated
    rw [withoutHyphens?_groups]
    · simp only [← Bytes.hexChars_append]
      rw [← List.take_add, ← List.take_add, ← List.take_add, List.take_append_drop]
    all_goals simp [Bytes.length_hexChars, hbs]
  have hlength : (hyphenated bs).length = 36 := by
    simp [hyphenated, Bytes.length_hexChars, hbs]
  show ofChars? (String.ofList (hyphenated bs)).toList = _
  rw [String.toList_ofList]
  unfold ofChars?
  simp only [hlength]
  rw [ofHyphenated?, hgroups]
  show ofDigits? (Bytes.hexChars bs) = _
  rw [ofDigits?, Bytes.ofHexChars?_hexChars]
  exact dif_pos hbs

end Uuid

end TextTunnel
