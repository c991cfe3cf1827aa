import TextTunnel.Proofs.Except
import TextTunnel.Proofs.Rsa.Key

/-!
# Blocks come back

A block is padded to the length of the modulus, read as a number, and encrypted. The padded form
begins with a zero byte, so its number is below the modulus; and the zero byte behind the nonzero
padding shows where the block begins.

* `Bytes.toNat_ofNat`, `Bytes.ofNat_toNat` -- byte strings of one length are numbers up to a bound.
* `unpadBlock?_padBlock` -- the padding.
* `decryptBlock_encryptBlock` -- a block, whatever the padding bytes are.
-/

namespace TextTunnel

/-! ## 1. Byte strings as numbers -/

namespace Bytes

theorem toNat_append_singleton (bs : Bytes) (b : UInt8) :
    toNat (bs ++ [b]) = 256 * toNat bs + b.toNat := by
  rw [toNat, List.foldl_append]
  rfl

theorem toNat_reverse_cons (b : UInt8) (bs : Bytes) :
    toNat (b :: bs).reverse = 256 * toNat bs.reverse + b.toNat := by
  rw [List.reverse_cons, toNat_append_singleton]

theorem toNat_ofNat (len n : Nat) : toNat (ofNat len n) = n % 256 ^ len := by
  rw [ofNat]
  induction len generalizing n with
  | zero => simp [littleEndian, toNat, Nat.mod_one]
  | succ len ih =>
    have hsplit : n % 256 ^ (len + 1) = n % 256 + 256 * (n / 256 % 256 ^ len) := by
      rw [Nat.pow_succ']
      exact Nat.mod_mul
    rw [littleEndian, toNat_reverse_cons, ih, UInt8.toNat_ofNat', hsplit, Nat.add_comm]

theorem littleEndian_toNat_reverse (bs : Bytes) :
    littleEndian bs.length (toNat bs.reverse) = bs := by
  induction bs with
  | nil => rfl
  | cons b bs ih =>
    have hlow : UInt8.ofNat (256 * toNat bs.reverse + b.toNat) = b := by
      apply UInt8.toNat_inj.mp
      rw [UInt8.toNat_ofNat', Nat.mul_add_mod, Nat.mod_eq_of_lt b.toNat_lt]
    have hhigh : (256 * toNat bs.reverse + b.toNat) / 256 = toNat bs.reverse := by
      have := b.toNat_lt
      omega
    rw [List.length_cons, toNat_reverse_cons, littleEndian, hlow, hhigh, ih]

theorem ofNat_toNat (bs : Bytes) : ofNat bs.length (toNat bs) = bs := by
  have h := littleEndian_toNat_reverse bs.reverse
  rw [List.length_reverse, List.reverse_reverse] at h
  rw [ofNat, h, List.reverse_reverse]

theorem toNat_lt (bs : Bytes) : toNat bs < 256 ^ bs.length := by
  have h := toNat_ofNat bs.length (toNat bs)
  rw [ofNat_toNat] at h
  rw [h]
  exact Nat.mod_lt _ (Nat.pow_pos (by decide))

theorem toNat_zero_cons (bs : Bytes) : toNat (0 :: bs) = toNat bs :=
  rfl

/-- A number that needs `len` bytes is not below the numbers of fewer bytes. -/
theorem pow_le_of_byteLength {n len : Nat} (h : byteLength n = len + 1) : 256 ^ len ≤ n := by
  rw [byteLength] at h
  split at h
  · omega
  · next hn =>
    have hlog : 2 ^ n.log2 ≤ n := Nat.log2_self_le hn
    have hle : 2 ^ (8 * len) ≤ 2 ^ n.log2 := Nat.pow_le_pow_right (by decide) (by omega)
    calc 256 ^ len = 2 ^ (8 * len) := by rw [Nat.pow_mul]
      _ ≤ n := hle.trans hlog

theorem lt_pow_byteLength (n : Nat) : n < 256 ^ byteLength n := by
  rw [byteLength]
  split
  · next hn => rw [hn]; decide
  · next hn =>
    calc n < 2 ^ (n.log2 + 1) := Nat.lt_log2_self
      _ ≤ 2 ^ (8 * (n.log2 / 8 + 1)) := Nat.pow_le_pow_right (by decide) (by omega)
      _ = 256 ^ (n.log2 / 8 + 1) := by rw [Nat.pow_mul]

end Bytes

namespace Rsa

/-! ## 2. Padding -/

theorem length_noise_take (noise : Noise) (n : Nat) : (noise.take n).length = n := by
  rw [Noise.take, List.length_map, List.length_range]

theorem ne_zero_of_mem_noise {noise : Noise} {n : Nat} {b : UInt8} (h : b ∈ noise.take n) :
    b ≠ 0 := by
  obtain ⟨i, -, rfl⟩ := List.mem_map.mp h
  exact (noise i).property

theorem length_padBlock {size : Nat} (noise : Noise) {block : Bytes}
    (h : block.length + Wire.paddingLen ≤ size) : (padBlock size noise block).length = size := by
  rw [Wire.paddingLen] at h
  simp only [padBlock, List.length_cons, List.length_append, length_noise_take]
  omega

/-- The padding ends at the first zero byte, and there are enough bytes before it. -/
theorem unpadBlock?_padBlock {size : Nat} (noise : Noise) {block : Bytes}
    (h : block.length + Wire.paddingLen ≤ size) :
    unpadBlock? (padBlock size noise block) = some block := by
  have hne : ∀ b ∈ noise.take (size - 3 - block.length), (b != 0) = true := fun b hb =>
    bne_iff_ne.mpr (ne_zero_of_mem_noise hb)
  have hwhile : (noise.take (size - 3 - block.length) ++ 0 :: block).takeWhile (· != 0)
      = noise.take (size - 3 - block.length) := by
    rw [List.takeWhile_append_of_pos hne]
    simp
  have hmin : minPadding ≤ size - 3 - block.length := by
    rw [Wire.paddingLen] at h
    rw [minPadding]
    omega
  have hdrop : (noise.take (size - 3 - block.length) ++ 0 :: block).drop (size - 3 - block.length)
      = 0 :: block := List.drop_left' (length_noise_take noise _)
  simp only [padBlock, List.cons_append, unpadBlock?, hwhile, length_noise_take, hdrop,
    if_pos hmin]

/-- The first byte is zero, so the number of a padded form has one byte less than the modulus. -/
theorem toNat_padBlock_lt {key : PublicKey} (noise : Noise) {block : Bytes}
    (h : block.length + Wire.paddingLen ≤ key.size) :
    Bytes.toNat (padBlock key.size noise block) < key.modulus := by
  have hlen := length_padBlock noise h
  have hsize : key.size = (key.size - 1) + 1 := by
    rw [Wire.paddingLen] at h
    omega
  refine Nat.lt_of_lt_of_le ?_ (Bytes.pow_le_of_byteLength hsize)
  rw [padBlock, List.cons_append, Bytes.toNat_zero_cons]
  rw [padBlock, List.cons_append, List.length_cons] at hlen
  refine Nat.lt_of_lt_of_eq (Bytes.toNat_lt _) (congrArg _ ?_)
  omega

/-! ## 3. Blocks -/

theorem checkKeySize_of_size {key : PublicKey} (h : key.size = Wire.modulusLen) :
    checkKeySize key = .ok () := by
  rw [checkKeySize, h]
  rfl

/-- A short enough block is encrypted to the length of the modulus. -/
theorem encryptBlock_eq_ok {key : PublicKey} (hkey : key.size = Wire.modulusLen) (noise : Noise)
    {block : Bytes} (h : block.length ≤ Wire.plaintextChunkLen) :
    encryptBlock key noise block = .ok (Bytes.ofNat Wire.modulusLen
      (powMod (Bytes.toNat (padBlock Wire.modulusLen noise block)) key.exponent key.modulus)) := by
  rw [encryptBlock, checkKeySize_of_size hkey, hkey, ok_bind]
  rw [if_neg (Nat.not_lt.mpr h)]
  rfl

/-- Blocks come out of encryption with one length, whatever the key is. -/
theorem length_of_encryptBlock {key : PublicKey} {noise : Noise} {block cipher : Bytes}
    (h : encryptBlock key noise block = .ok cipher) :
    cipher.length = Wire.ciphertextChunkLen := by
  rw [encryptBlock, bind_eq_ok] at h
  obtain ⟨_, hsize, h⟩ := h
  rw [checkKeySize] at hsize
  split at hsize
  · next hkey =>
    split at h
    · exact nomatch h
    · rw [← Except.ok.inj h, Bytes.length_ofNat, hkey]
      rfl
  · exact nomatch hsize

theorem powMod_lt (base exponent : Nat) {modulus : Nat} (h : 0 < modulus) :
    powMod base exponent modulus < modulus := by
  rw [powMod_eq]
  exact Nat.mod_lt _ h

/-- **Blocks come back**, whatever the padding bytes are. -/
theorem decryptBlock_encryptBlock {key : PrivateKey} (hkey : key.publicKey.size = Wire.modulusLen)
    (hvalid : key.Valid) {noise : Noise} {block cipher : Bytes}
    (hlen : block.length ≤ Wire.plaintextChunkLen)
    (h : encryptBlock key.publicKey noise block = .ok cipher) :
    decryptBlock key cipher = .ok block := by
  have hpad : block.length + Wire.paddingLen ≤ key.publicKey.size := by
    rw [hkey, ← Wire.plaintextChunkLen_add_paddingLen]
    omega
  have hlt := toNat_padBlock_lt noise hpad
  have hpos : 0 < key.publicKey.modulus := Nat.lt_of_le_of_lt (Nat.zero_le _) hlt
  have hcipher := encryptBlock_eq_ok hkey noise hlen
  rw [h] at hcipher
  obtain rfl := Except.ok.inj hcipher
  rw [hkey] at hlt hpad
  -- The encrypted number is below the modulus, so its bytes give it back.
  have hmod := powMod_lt (Bytes.toNat (padBlock Wire.modulusLen noise block))
    key.publicKey.exponent hpos
  have hback : Bytes.toNat (Bytes.ofNat Wire.modulusLen
      (powMod (Bytes.toNat (padBlock Wire.modulusLen noise block)) key.publicKey.exponent
        key.publicKey.modulus))
      = powMod (Bytes.toNat (padBlock Wire.modulusLen noise block)) key.publicKey.exponent
        key.publicKey.modulus := by
    rw [Bytes.toNat_ofNat]
    refine Nat.mod_eq_of_lt (hmod.trans ?_)
    rw [← hkey]
    exact Bytes.lt_pow_byteLength _
  have hpadded : Bytes.ofNat Wire.modulusLen (Bytes.toNat (padBlock Wire.modulusLen noise block))
      = padBlock Wire.modulusLen noise block := by
    have h := Bytes.ofNat_toNat (padBlock Wire.modulusLen noise block)
    rwa [length_padBlock noise hpad] at h
  rw [decryptBlock]
  simp only [hback, hkey]
  rw [if_neg (by rw [Bytes.length_ofNat]; decide), if_neg (Nat.not_le.mpr hmod)]
  simp only [hvalid.powMod_powMod hlt, hpadded, unpadBlock?_padBlock noise hpad]
  rfl

end Rsa

end TextTunnel
