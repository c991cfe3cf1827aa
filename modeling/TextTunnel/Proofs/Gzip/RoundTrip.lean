import TextTunnel.Gzip.Deflate
import TextTunnel.Proofs.Gzip.Extend

/-!
# Compression loses nothing

A byte string is stored, or else written in a coded form that has been decompressed again and
compared. So only the stored form needs a round trip of its own; for a coded form it is enough that
the trailer behind it does not matter.

* `inflate_storedBlocks`, `inflate_deflate` -- compressed data comes back.
* `IsMember` -- what a compressor may write; `Compressor.Lossless`, `lossless_inMemory` -- that it
  always does.
* `IsMember.decompress_eq` -- a member comes back if it fits the limit, and is too large if not.
* `IsMember.decompress_front` -- a member of which bytes are missing at the end is refused.
* `length_compress_le` -- a member that is written here is hardly longer than what is in it.
-/

namespace TextTunnel.Gzip

/-! ## 1. Stored blocks -/

/-- The length of a stored block as its two bytes give it. -/
theorem storedLength {n : Nat} (h : n ≤ maxStored) :
    (UInt8.ofNat n).toNat + 256 * (UInt8.ofNat (n / 256)).toNat = n := by
  rw [maxStored] at h
  rw [UInt8.toNat_ofNat', UInt8.toNat_ofNat']
  omega

/-- What stands in a stored block behind the byte that begins it. -/
def storedBody (bs : Bytes) : Bytes :=
  let l0 := UInt8.ofNat bs.length
  let l1 := UInt8.ofNat (bs.length / 256)
  l0 :: l1 :: ~~~ l0 :: ~~~ l1 :: bs

theorem inflateStored_storedBody (bs rest : Bytes) (out : Output) (h : bs.length ≤ maxStored) :
    inflateStored (storedBody bs ++ rest) out = (out ++ bs, .ok (BitReader.ofBytes rest)) := by
  rw [storedBody]
  simp only [List.cons_append]
  rw [inflateStored, if_pos ⟨UInt8.not_not.symm, UInt8.not_not.symm⟩]
  simp only [storedLength h, List.take_left, List.drop_left]
  rw [if_pos (by rw [List.length_append]; omega)]

/-- The bits of the byte that begins a stored block: whether the block is the last one, then zeros.
-/
theorem next?_storedBlock (isLast : Bool) (bs rest : Bytes) :
    (BitReader.ofBytes (storedBlock isLast bs ++ rest)).next?
      = some (isLast, ⟨List.replicate 7 false, storedBody bs ++ rest⟩) := by
  cases isLast <;> rfl

theorem inflateBlocks_storedBlock (symbols fuel : Nat) (isLast : Bool) (bs rest : Bytes)
    (out : Output) (h : bs.length ≤ maxStored) :
    inflateBlocks symbols (fuel + 1) (BitReader.ofBytes (storedBlock isLast bs ++ rest)) out
      = if isLast then (out ++ bs, .ok rest)
        else inflateBlocks symbols fuel (BitReader.ofBytes rest) (out ++ bs) := by
  have hblock : inflateBlock symbols ⟨List.replicate 7 false, storedBody bs ++ rest⟩ out
      = (out ++ bs, .ok (BitReader.ofBytes rest)) := inflateStored_storedBody bs rest out h
  rw [inflateBlocks, next?_storedBlock]
  dsimp only
  rw [hblock]
  rfl

/-- **Stored blocks come back**, given one unit of fuel for each of them. -/
theorem inflateBlocks_storedBlocks (symbols : Nat) (bs rest : Bytes) (out : Output) (fuel : Nat)
    (hfuel : bs.length < fuel) :
    inflateBlocks symbols fuel (BitReader.ofBytes (storedBlocks bs ++ rest)) out
      = (out ++ bs, .ok rest) := by
  induction bs using storedBlocks.induct generalizing out fuel with
  | case1 bs hlen =>
    obtain ⟨fuel, rfl⟩ : ∃ k, fuel = k + 1 := ⟨fuel - 1, by omega⟩
    rw [storedBlocks, dif_pos hlen, inflateBlocks_storedBlock symbols fuel true bs rest out hlen]
    rfl
  | case2 bs hlen ih =>
    obtain ⟨fuel, rfl⟩ : ∃ k, fuel = k + 1 := ⟨fuel - 1, by omega⟩
    have hpiece : (bs.take maxStored).length ≤ maxStored := List.length_take_le _ _
    have hrest : (bs.drop maxStored).length < fuel := by
      rw [List.length_drop]
      rw [maxStored] at hlen ⊢
      omega
    rw [storedBlocks, dif_neg hlen, List.append_assoc,
      inflateBlocks_storedBlock symbols fuel false _ _ out hpiece, if_neg (by decide),
      ih (out ++ bs.take maxStored) fuel hrest]
    have hout : out ++ bs.take maxStored ++ bs.drop maxStored = out ++ bs := by
      apply Array.ext'
      simp
    rw [hout]

theorem length_lt_length_storedBlocks (bs : Bytes) : bs.length < (storedBlocks bs).length := by
  induction bs using storedBlocks.induct with
  | case1 bs hlen =>
    rw [storedBlocks, dif_pos hlen, storedBlock]
    simp only [List.length_cons]
    omega
  | case2 bs hlen ih =>
    rw [storedBlocks, dif_neg hlen, storedBlock, List.length_append]
    simp only [List.length_cons, List.length_take, List.length_drop] at ih ⊢
    omega

theorem inflate_storedBlocks (bs rest : Bytes) :
    inflate (storedBlocks bs ++ rest) = (bs.toArray, .ok rest) := by
  have hlen := length_lt_length_storedBlocks bs
  rw [inflate, inflateBlocks_storedBlocks]
  · simp
  · rw [List.length_append]
    omega

/-! ## 2. The choice -/

/-- What has been checked: the data comes back with nothing left. -/
theorem inflate_of_inflatesTo {compressed bs : Bytes} (h : inflatesTo compressed bs) :
    inflate compressed = (bs.toArray, .ok []) := by
  rw [inflatesTo] at h
  split at h
  · next out hout =>
    rw [hout, ← eq_of_beq h]
  · exact absurd h (by decide)

/-- **Compressed data comes back**, whatever stands behind it. -/
theorem inflate_deflate (bs rest : Bytes) :
    inflate (deflate bs ++ rest) = (bs.toArray, .ok rest) := by
  rw [deflate]
  split
  · next h => exact inflate_append rest (inflate_of_inflatesTo h.2)
  · exact inflate_storedBlocks bs rest

/-! ## 3. Members -/

theorem length_trailer (bs : Bytes) : (trailer bs).length = 8 := by
  rw [trailer, List.length_append, Bytes.length_littleEndian, Bytes.length_littleEndian]

theorem checkTrailer_trailer (bs : Bytes) : checkTrailer bs (trailer bs) = .ok () := by
  rw [checkTrailer, if_neg (by rw [length_trailer]; omega),
    if_pos (List.take_of_length_le (Nat.le_of_eq (length_trailer bs)))]

/-- The bytes are one member of the byte string, and no more: behind the header stands data that
inflates to the byte string, and behind that the trailer. -/
def IsMember (bs member : Bytes) : Prop :=
  ∃ body, afterHeader member = .ok body ∧ inflate body = (bs.toArray, .ok (trailer bs))

/-- Every byte string comes out as a member of it. -/
def Compressor.Lossless (c : Compressor) : Prop :=
  ∀ bs, ∃ member, c bs = .ok member ∧ IsMember bs member

theorem isMember_compress (bs : Bytes) : IsMember bs (compress bs) := by
  refine ⟨deflate bs ++ trailer bs, ?_, inflate_deflate bs (trailer bs)⟩
  rw [compress, List.append_assoc]
  rfl

theorem lossless_inMemory : Compressor.inMemory.Lossless :=
  fun bs => ⟨compress bs, rfl, isMember_compress bs⟩

namespace IsMember

variable {bs member : Bytes}

theorem delivery_eq (h : IsMember bs member) : delivery member = ⟨bs, .ok ()⟩ := by
  obtain ⟨body, hheader, hdata⟩ := h
  rw [delivery, hheader]
  simp only [hdata, checkTrailer_trailer]

/-- **Members come back** as long as they fit the limit. A member whose output is over the limit is
too large: nothing else can be wrong with it. -/
theorem decompress_eq (h : IsMember bs member) (limit : Nat) :
    decompress member limit = if limit < bs.length then .error (.tooLarge limit) else .ok bs := by
  rw [decompress, h.delivery_eq]

theorem length_pos (h : IsMember bs member) : 0 < member.length := by
  obtain ⟨body, hheader, -⟩ := h
  refine List.length_pos_iff.mpr ?_
  rintro rfl
  cases hheader

end IsMember

theorem delivery_compress (bs : Bytes) : delivery (compress bs) = ⟨bs, .ok ()⟩ :=
  (isMember_compress bs).delivery_eq

theorem decompress_compress (bs : Bytes) (limit : Nat) :
    decompress (compress bs) limit
      = if limit < bs.length then .error (.tooLarge limit) else .ok bs :=
  (isMember_compress bs).decompress_eq limit

/-! ## 4. Length -/

theorem length_deflate_le (bs : Bytes) : (deflate bs).length ≤ (storedBlocks bs).length := by
  rw [deflate]
  split
  · next h => exact Nat.le_of_lt h.1
  · exact Nat.le_refl _

/-- A member takes 23 bytes more than its content at most, if that fits one stored block. -/
theorem length_compress_le {bs : Bytes} (h : bs.length ≤ maxStored) :
    (compress bs).length ≤ bs.length + 23 := by
  have hdeflate := length_deflate_le bs
  rw [storedBlocks, dif_pos h, storedBlock] at hdeflate
  rw [compress, List.length_append, List.length_append, length_trailer, header]
  simp only [List.length_cons, List.length_nil] at hdeflate ⊢
  omega

/-! ## 5. Members that have been cut

What a decompressor has made of the front of a member it makes of the whole member as well, so at
the end of the data it has not read more than the member has before its trailer. Less than a trailer
is left then. -/

namespace IsMember

variable {bs member front : Bytes}

/-- Reading the front of a member does not end well. -/
theorem ending_front (h : IsMember bs member) (hfront : front <+: member) (hcut : front ≠ member) :
    ∃ e, (delivery front).ending = .error e := by
  obtain ⟨missing, rfl⟩ := hfront
  obtain ⟨whole, hwhole, hdata⟩ := h
  rw [delivery]
  cases hheader : afterHeader front with
  | error e => exact ⟨e, rfl⟩
  | ok body =>
    obtain rfl := Except.ok.inj ((afterHeader_append missing hheader).symm.trans hwhole)
    dsimp only
    split
    · next out rest hbody =>
      have hrest : rest ++ missing = trailer bs := by
        have hall := (inflate_append missing hbody).symm.trans hdata
        exact Except.ok.inj (Prod.mk.inj hall).2
      have hlen := congrArg List.length hrest
      have hmissing : 0 < missing.length :=
        List.length_pos_iff.mpr fun hnil => hcut (by rw [hnil, List.append_nil])
      rw [List.length_append, length_trailer] at hlen
      exact ⟨.unexpectedEnd, by rw [checkTrailer, if_pos (by omega)]⟩
    · exact ⟨.unexpectedEnd, rfl⟩
    · exact ⟨.corruptData, rfl⟩

/-- **A member that has been cut is refused**, wherever the cut is and whatever the limit. -/
theorem decompress_front (h : IsMember bs member) (hfront : front <+: member)
    (hcut : front ≠ member) (limit : Nat) : ∃ e, decompress front limit = .error e := by
  obtain ⟨e, hend⟩ := h.ending_front hfront hcut
  rw [decompress]
  simp only [hend]
  split
  · exact ⟨.tooLarge limit, rfl⟩
  · exact ⟨.failed e, rfl⟩

end IsMember

end TextTunnel.Gzip
