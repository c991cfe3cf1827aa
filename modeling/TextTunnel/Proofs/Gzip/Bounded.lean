import TextTunnel.Proofs.Gzip.RoundTrip

/-!
# Decompression within a limit

A limit is enforced by asking for one byte more than it allows: reading stops as soon as there are as
many bytes, and only a reader that is still short of them gets to the end of the data and sees
whether the trailer agrees.

* `readUpTo_of_le`, `readUpTo_of_lt` -- what reading byte after byte gets.
* `decompressByReading_eq` -- decompression as a reader does it is `decompress`; at the largest limit
  too, if less is delivered than can be asked for.
* `decompress_eq_ok_iff`, `decompressByReading_eq_ok_iff` -- what decompresses within a limit.
* `ObeysLimits` -- one output for all limits, and none over the limit; `decompress_limits`.
-/

namespace TextTunnel.Gzip

/-! ## 1. Reading -/

/-- Whoever asks for no more than there is gets it and does not see the end. -/
theorem readUpTo_of_le (ending : Except GzipError Unit) {room : Nat} {output : Bytes}
    (h : room ≤ output.length) : readUpTo ending room output = .ok (output.take room) := by
  induction output generalizing room with
  | nil =>
    obtain rfl : room = 0 := by simpa using h
    rfl
  | cons b output ih =>
    cases room with
    | zero => rfl
    | succ room =>
      rw [readUpTo, ih (by simpa using h)]
      rfl

/-- Whoever asks for more gets everything, if the data ends well. -/
theorem readUpTo_of_lt (ending : Except GzipError Unit) {room : Nat} {output : Bytes}
    (h : output.length < room) :
    readUpTo ending room output = ending.map fun _ => output := by
  induction output generalizing room with
  | nil =>
    obtain ⟨room, rfl⟩ : ∃ k, room = k + 1 := ⟨room - 1, by simp at h; omega⟩
    rfl
  | cons b output ih =>
    obtain ⟨room, rfl⟩ : ∃ k, room = k + 1 := ⟨room - 1, by omega⟩
    rw [readUpTo, ih (by simpa using h)]
    cases ending <;> rfl

theorem decompress_of_lt {bs : Bytes} {limit : Nat} (h : limit < (delivery bs).output.length) :
    decompress bs limit = .error (.tooLarge limit) := by
  unfold decompress
  exact if_pos h

theorem decompress_of_le {bs : Bytes} {limit : Nat} (h : (delivery bs).output.length ≤ limit) :
    decompress bs limit =
      match (delivery bs).ending with
      | .ok () => .ok (delivery bs).output
      | .error e => .error (.failed e) := by
  unfold decompress
  exact if_neg (Nat.not_lt.mpr h)

/-- What decompresses within a limit is all that is delivered, the data ends well, and it is not
over the limit. -/
theorem decompress_eq_ok_iff {bs x : Bytes} {limit : Nat} :
    decompress bs limit = .ok x ↔
      (delivery bs).output = x ∧ (delivery bs).ending = .ok () ∧ x.length ≤ limit := by
  by_cases hlen : limit < (delivery bs).output.length
  · rw [decompress_of_lt hlen]
    constructor
    · intro h
      cases h
    · rintro ⟨rfl, -, hle⟩
      omega
  · rw [decompress_of_le (Nat.le_of_not_lt hlen)]
    cases (delivery bs).ending with
    | error e => simp
    | ok u =>
      constructor
      · intro h
        cases h
        exact ⟨rfl, rfl, Nat.le_of_not_lt hlen⟩
      · rintro ⟨rfl, -, -⟩
        rfl

/-- **Asking for one byte more is enough.**  Below the largest limit this holds of all data. At the
largest limit there is no byte more to ask for, but then nothing is missed unless as many bytes have
been delivered. -/
theorem decompressByReading_eq {bs : Bytes} {limit : Nat} (hlimit : limit ≤ maxRoom)
    (h : limit < maxRoom ∨ (delivery bs).output.length < maxRoom) :
    decompressByReading bs limit = decompress bs limit := by
  unfold decompressByReading
  by_cases hlen : limit < (delivery bs).output.length
  · have hroom : roomFor limit = limit + 1 := by
      unfold roomFor
      omega
    have htake : ((delivery bs).output.take (limit + 1)).length = limit + 1 :=
      List.length_take_of_le hlen
    rw [hroom, readUpTo_of_le _ hlen, decompress_of_lt hlen]
    simp only [htake]
    exact if_pos (Nat.lt_succ_self limit)
  · have hle := Nat.le_of_not_lt hlen
    have hroom : (delivery bs).output.length < roomFor limit := by
      unfold roomFor
      omega
    rw [readUpTo_of_lt _ hroom, decompress_of_le hle]
    cases (delivery bs).ending with
    | error e => rfl
    | ok u => exact if_neg hlen

/-- What a reader gets: everything, if there is less than can be asked for and the data ends well;
or at the largest limit as much as can be asked for, if there is as much. -/
theorem decompressByReading_eq_ok_iff {bs x : Bytes} {limit : Nat} (hlimit : limit ≤ maxRoom) :
    decompressByReading bs limit = .ok x ↔ x.length ≤ limit ∧
      (((delivery bs).output = x ∧ (delivery bs).ending = .ok () ∧ x.length < maxRoom) ∨
        ((delivery bs).output.take maxRoom = x ∧ x.length = maxRoom)) := by
  by_cases hlast : limit < maxRoom ∨ (delivery bs).output.length < maxRoom
  · rw [decompressByReading_eq hlimit hlast, decompress_eq_ok_iff]
    constructor
    · rintro ⟨rfl, hend, hle⟩
      exact ⟨hle, .inl ⟨rfl, hend, by omega⟩⟩
    · rintro ⟨hle, ⟨rfl, hend, -⟩ | ⟨htake, hlen⟩⟩
      · exact ⟨rfl, hend, hle⟩
      · have := congrArg List.length htake
        rw [List.length_take] at this
        omega
  · obtain ⟨hmax, hfull⟩ := not_or.mp hlast
    obtain rfl : limit = maxRoom := by omega
    have hroom : roomFor maxRoom = maxRoom := by
      unfold roomFor
      omega
    have htake : ((delivery bs).output.take maxRoom).length = maxRoom :=
      List.length_take_of_le (Nat.le_of_not_lt hfull)
    unfold decompressByReading
    rw [hroom, readUpTo_of_le _ (Nat.le_of_not_lt hfull)]
    simp only [htake, Nat.lt_irrefl, if_false, Except.ok.injEq]
    constructor
    · rintro rfl
      exact ⟨Nat.le_of_eq htake, .inr ⟨rfl, htake⟩⟩
    · rintro ⟨-, ⟨rfl, -, hlt⟩ | ⟨rfl, -⟩⟩
      · exact absurd hlt hfull
      · rfl

/-- More bytes than a limit allows are reported, whatever follows them. -/
theorem decompressByReading_of_lt {bs : Bytes} {limit : Nat} (hlimit : limit < maxRoom)
    (h : limit < (delivery bs).output.length) :
    decompressByReading bs limit = .error (.tooLarge limit) := by
  rw [decompressByReading_eq (Nat.le_of_lt hlimit) (.inl hlimit), decompress_of_lt h]

/-! ## 2. Limits -/

/-- All that limits do, among those that there are: they decide whether an output is let through, and
not what it is. -/
structure ObeysLimits (decompressor : Bytes → Nat → Except DecompressError Bytes)
    (IsLimit : Nat → Prop) : Prop where
  /-- What decompresses within some limit does so within every limit that it fits; a smaller limit
  is reported as exceeded. -/
  same : ∀ bs limit₀ x, IsLimit limit₀ → decompressor bs limit₀ = .ok x → ∀ limit, IsLimit limit →
    decompressor bs limit = if x.length ≤ limit then .ok x else .error (.tooLarge limit)
  /-- No output is over the limit. -/
  within : ∀ bs limit x, IsLimit limit → decompressor bs limit = .ok x → x.length ≤ limit
  /-- No two limits give different outputs. -/
  unique : ∀ bs limit limit' x x', IsLimit limit → IsLimit limit' →
    decompressor bs limit = .ok x → decompressor bs limit' = .ok x' → x = x'
  /-- Compressed data decompresses in this way. -/
  restores : ∀ x, IsLimit x.length → ∀ limit, IsLimit limit →
    decompressor (compress x) limit = if x.length ≤ limit then .ok x else .error (.tooLarge limit)

/-- The rest follows from what happens within one limit. -/
theorem ObeysLimits.of_same {decompressor : Bytes → Nat → Except DecompressError Bytes}
    {IsLimit : Nat → Prop}
    (same : ∀ bs limit₀ x, IsLimit limit₀ → decompressor bs limit₀ = .ok x →
      x.length ≤ limit₀ ∧ ∀ limit, IsLimit limit →
        decompressor bs limit = if x.length ≤ limit then .ok x else .error (.tooLarge limit))
    (restores : ∀ x, IsLimit x.length → decompressor (compress x) x.length = .ok x) :
    ObeysLimits decompressor IsLimit where
  same bs limit₀ x hlimit₀ h := (same bs limit₀ x hlimit₀ h).2
  within bs limit x hlimit h := (same bs limit x hlimit h).1
  unique bs limit limit' x x' hlimit hlimit' h h' := by
    have hx := (same bs limit x hlimit h).2 limit' hlimit'
    rw [h'] at hx
    split at hx
    · exact (Except.ok.inj hx).symm
    · cases hx
  restores x hx := (same _ _ x hx (restores x hx)).2

theorem obeysLimits_decompress : ObeysLimits decompress fun _ => True := by
  refine .of_same (fun bs limit₀ x _ h => ?_) fun x _ => ?_
  · obtain ⟨rfl, hend, hle₀⟩ := decompress_eq_ok_iff.mp h
    refine ⟨hle₀, fun limit _ => ?_⟩
    split
    · next hle => exact decompress_eq_ok_iff.mpr ⟨rfl, hend, hle⟩
    · next hlt => exact decompress_of_lt (Nat.lt_of_not_le hlt)
  · rw [decompress_compress, if_neg (Nat.lt_irrefl _)]

theorem obeysLimits_decompressByReading : ObeysLimits decompressByReading (· ≤ maxRoom) := by
  refine .of_same (fun bs limit₀ x hlimit₀ h => ?_) fun x hx => ?_
  · obtain ⟨hle₀, hx⟩ := (decompressByReading_eq_ok_iff hlimit₀).mp h
    refine ⟨hle₀, fun limit hlimit => ?_⟩
    split
    · next hle => exact (decompressByReading_eq_ok_iff hlimit).mpr ⟨hle, hx⟩
    · next hlt =>
      -- Below an output that could be read, a limit is never the largest one.
      have hdelivered : x.length ≤ (delivery bs).output.length := by
        rcases hx with ⟨rfl, -⟩ | ⟨rfl, -⟩
        · exact Nat.le_refl _
        · exact List.length_take_le' _ _
      exact decompressByReading_of_lt (by omega) (by omega)
  · refine (decompressByReading_eq_ok_iff hx).mpr ⟨Nat.le_refl _, ?_⟩
    rw [delivery_compress]
    rcases Nat.lt_or_eq_of_le hx with hlt | heq
    · exact .inl ⟨rfl, rfl, hlt⟩
    · exact .inr ⟨List.take_of_length_le (Nat.le_of_eq heq), heq⟩

/-- **Bounded decompression**, for all data, well-formed or not. Decompression obeys limits of any
size, and so does a reader that asks for one byte more than a 64-bit limit allows, the largest limit
included. The two are the same below the largest limit, and there as well if less is delivered than
can be asked for. -/
theorem decompress_limits :
    ObeysLimits decompress (fun _ => True) ∧ ObeysLimits decompressByReading (· ≤ maxRoom) ∧
    ∀ bs limit, limit ≤ maxRoom → limit < maxRoom ∨ (delivery bs).output.length < maxRoom →
      decompressByReading bs limit = decompress bs limit :=
  ⟨obeysLimits_decompress, obeysLimits_decompressByReading, fun _ _ => decompressByReading_eq⟩

/-- Ten thousand zeros are one too many for a limit of 9999, and no trouble at the largest limit. -/
theorem decompress_limits_zeros :
    decompress (compress (List.replicate 10000 0)) 9999 = .error (.tooLarge 9999) ∧
      decompressByReading (compress (List.replicate 10000 0)) maxRoom
        = .ok (List.replicate 10000 0) := by
  obtain ⟨hall, hreading, -⟩ := decompress_limits
  have hroom : 10000 ≤ maxRoom := by decide
  constructor
  · rw [hall.restores _ trivial _ trivial, List.length_replicate]
    exact if_neg (by decide)
  · rw [hreading.restores _ (by rwa [List.length_replicate]) _ (Nat.le_refl _),
      List.length_replicate]
    exact if_pos hroom

end TextTunnel.Gzip
