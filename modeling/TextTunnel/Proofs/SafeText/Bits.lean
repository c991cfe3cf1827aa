import Mathlib.Algebra.Group.Nat.Defs
import Mathlib.Data.List.Induction
import TextTunnel.SafeText

/-!
# Bit strings

The text-safe codec packs bytes into groups of fourteen bits and keeps what does not fill a group
in a 32-bit word. This module gives each of these a bit string, most significant bit first, so that
packing and unpacking become facts about appending lists.

* `bitsOf` -- the bits of a number in a field of given width.
* `Bytes.bits`, `Bytes.ofBits` -- a byte string as bits, and the whole bytes at the front of a bit
  string. `Bytes.ofBits_bits_append` says that the second undoes the first,
  `Bytes.exists_bits_append` that every bit string is reached in this way, and
  `Bytes.ofBits_take_bits` what the second makes of some of the bits.
* `SafeText.Pending.bits` -- the bits that wait. One lemma for each operation says what it does to
  them: `Pending.bits_push`, `Pending.bits_split`, `Pending.bitsOf_padded`.
-/

namespace TextTunnel

/-! ## 1. Numbers -/

/-- The lowest `width` bits of a number, most significant first. -/
def bitsOf : Nat → Nat → List Bool
  | 0, _ => []
  | width + 1, n => n.testBit width :: bitsOf width n

/-- The number that a bit string denotes, most significant bit first. -/
def numberOf (bits : List Bool) : Nat :=
  bits.foldl (fun n b => 2 * n + b.toNat) 0

@[simp] theorem length_bitsOf (width n : Nat) : (bitsOf width n).length = width := by
  induction width with
  | zero => rfl
  | succ width ih => simp [bitsOf, ih]

/-- Two fields next to each other: the number of both is the upper one, moved up by the width of
the lower one, and the lower one. -/
theorem bitsOf_add (a b x : Nat) {y : Nat} (hy : y < 2 ^ b) :
    bitsOf (a + b) (2 ^ b * x + y) = bitsOf a x ++ bitsOf b y := by
  induction a with
  | zero =>
    simp only [Nat.zero_add, bitsOf, List.nil_append]
    -- Below the width of the lower field, the upper one has no bits.
    suffices h : ∀ k ≤ b, bitsOf k (2 ^ b * x + y) = bitsOf k y from h b (Nat.le_refl b)
    intro k hk
    induction k with
    | zero => rfl
    | succ k ih =>
      have hbit : (2 ^ b * x + y).testBit k = y.testBit k := by
        rw [Nat.testBit_two_pow_mul_add x hy, if_pos (by omega)]
      rw [bitsOf, bitsOf, hbit, ih (by omega)]
  | succ a ih =>
    have hbit : (2 ^ b * x + y).testBit (a + b) = x.testBit a := by
      rw [Nat.testBit_two_pow_mul_add x hy, if_neg (by omega)]
      congr 1
      omega
    rw [show a + 1 + b = a + b + 1 by omega, bitsOf, bitsOf, hbit, ih, List.cons_append]

/-- Reading a field behind a number that has been read moves that number up. -/
theorem foldl_bitsOf (width n acc : Nat) :
    (bitsOf width n).foldl (fun m b => 2 * m + b.toNat) acc = 2 ^ width * acc + n % 2 ^ width := by
  induction width generalizing acc with
  | zero => simp [bitsOf, Nat.mod_one]
  | succ width ih =>
    rw [bitsOf, List.foldl_cons, ih, Nat.mod_pow_succ, Nat.toNat_testBit, Nat.pow_succ,
      Nat.mul_add, Nat.mul_assoc]
    omega

theorem numberOf_bitsOf (width n : Nat) : numberOf (bitsOf width n) = n % 2 ^ width := by
  rw [numberOf, foldl_bitsOf, Nat.mul_zero, Nat.zero_add]

theorem numberOf_append_singleton (bits : List Bool) (b : Bool) :
    numberOf (bits ++ [b]) = 2 * numberOf bits + b.toNat := by
  simp [numberOf, List.foldl_append]

/-- The bits of a number that was read from a bit string are that bit string. -/
theorem bitsOf_numberOf (bits : List Bool) :
    numberOf bits < 2 ^ bits.length ∧ bitsOf bits.length (numberOf bits) = bits := by
  induction bits using List.reverseRecOn with
  | nil => exact ⟨by decide, rfl⟩
  | append_singleton bits b ih =>
    obtain ⟨hlt, hbits⟩ := ih
    have hb : b.toNat < 2 ^ 1 := b.toNat_lt
    rw [numberOf_append_singleton, List.length_append, List.length_singleton]
    constructor
    · rw [Nat.pow_succ]
      omega
    · have hsplit := bitsOf_add bits.length 1 (numberOf bits) hb
      rw [Nat.pow_one] at hsplit
      rw [hsplit, hbits]
      cases b <;> rfl

theorem bitsOf_zero (width : Nat) : bitsOf width 0 = List.replicate width false := by
  induction width with
  | zero => rfl
  | succ width ih => simp [bitsOf, ih, List.replicate_succ]

/-! ## 2. Bytes -/

/-- A byte string as a bit string. -/
def Bytes.bits (bs : Bytes) : List Bool :=
  bs.flatMap fun b => bitsOf 8 b.toNat

/-- The whole bytes at the front of a bit string. -/
def Bytes.ofBits : List Bool → Bytes
  | a :: b :: c :: d :: e :: f :: g :: h :: rest =>
    UInt8.ofNat (numberOf [a, b, c, d, e, f, g, h]) :: ofBits rest
  | _ => []

@[simp] theorem Bytes.bits_nil : Bytes.bits [] = [] := rfl

@[simp] theorem Bytes.bits_cons (b : UInt8) (bs : Bytes) :
    Bytes.bits (b :: bs) = bitsOf 8 b.toNat ++ Bytes.bits bs := rfl

@[simp] theorem Bytes.length_bits (bs : Bytes) : (Bytes.bits bs).length = 8 * bs.length := by
  induction bs with
  | nil => rfl
  | cons b bs ih =>
    simp only [bits_cons, List.length_append, length_bitsOf, List.length_cons, ih]
    omega

theorem Bytes.ofBits_byte_append (b : UInt8) (rest : List Bool) :
    Bytes.ofBits (bitsOf 8 b.toNat ++ rest) = b :: Bytes.ofBits rest := by
  have hb : numberOf (bitsOf 8 b.toNat) = b.toNat := by
    rw [numberOf_bitsOf, Nat.mod_eq_of_lt b.toNat_lt]
  simp only [bitsOf, List.cons_append, List.nil_append] at hb ⊢
  rw [Bytes.ofBits, hb]
  simp

/-- A bit string with fewer than eight bits holds no whole byte. -/
theorem Bytes.ofBits_of_length_lt {l : List Bool} (h : l.length < 8) : Bytes.ofBits l = [] := by
  rw [Bytes.ofBits]
  rintro a b c d e f g i rest rfl
  simp only [List.length_cons] at h
  omega

/-- **Whole bytes come back.**  Up to seven bits behind them do not matter. -/
theorem Bytes.ofBits_bits_append (bs : Bytes) {rest : List Bool} (h : rest.length < 8) :
    Bytes.ofBits (Bytes.bits bs ++ rest) = bs := by
  induction bs with
  | nil => exact Bytes.ofBits_of_length_lt h
  | cons b bs ih => rw [Bytes.bits_cons, List.append_assoc, Bytes.ofBits_byte_append, ih]

/-- Every bit string is that of some bytes, and fewer than eight bits behind them. -/
theorem Bytes.exists_bits_append (l : List Bool) :
    ∃ (bs : Bytes) (rest : List Bool), l = bs.bits ++ rest ∧ rest.length < 8 := by
  induction hn : l.length / 8 generalizing l with
  | zero => exact ⟨[], l, rfl, by omega⟩
  | succ n ih =>
    have hlen : (l.take 8).length = 8 := List.length_take_of_le (by omega)
    obtain ⟨bs, rest, hdrop, hrest⟩ := ih (l.drop 8) (by rw [List.length_drop]; omega)
    obtain ⟨hlt, hbits⟩ := bitsOf_numberOf (l.take 8)
    rw [hlen] at hlt hbits
    have hbyte : (UInt8.ofNat (numberOf (l.take 8))).toNat = numberOf (l.take 8) := by
      rw [UInt8.toNat_ofNat']
      exact Nat.mod_eq_of_lt hlt
    refine ⟨UInt8.ofNat (numberOf (l.take 8)) :: bs, rest, ?_, hrest⟩
    rw [Bytes.bits_cons, hbyte, hbits, List.append_assoc, ← hdrop, List.take_append_drop]

/-- **Cut bytes.**  Of the first bits of a byte string, the whole bytes are its first bytes. -/
theorem Bytes.ofBits_take_bits (bs : Bytes) (m : Nat) :
    Bytes.ofBits (bs.bits.take m) = bs.take (m / 8) := by
  induction bs generalizing m with
  | nil =>
    rw [Bytes.bits_nil, List.take_nil, List.take_nil]
    rfl
  | cons b bs ih =>
    rw [Bytes.bits_cons]
    by_cases h : m < 8
    · rw [Nat.div_eq_of_lt h, List.take_zero]
      refine Bytes.ofBits_of_length_lt ?_
      rw [List.length_take]
      omega
    · obtain ⟨m, rfl⟩ := Nat.exists_eq_add_of_le (Nat.le_of_not_lt h)
      have htake : (bitsOf 8 b.toNat ++ Bytes.bits bs).take (8 + m)
          = bitsOf 8 b.toNat ++ (Bytes.bits bs).take m := by
        rw [← List.take_length_add_append, length_bitsOf]
      rw [htake, Bytes.ofBits_byte_append, ih, Nat.add_div_left m (by decide), List.take_succ_cons]

/-! ## 3. Waiting bits -/

namespace SafeText.Pending

/-- The word holds the waiting bits and nothing else, and has room for another group. -/
structure Fits (p : Pending) : Prop where
  word_lt : p.word.toNat < 2 ^ p.held
  held_lt : p.held < 32

/-- The waiting bits. -/
def bits (p : Pending) : List Bool :=
  bitsOf p.held p.word.toNat

@[simp] theorem length_bits (p : Pending) : p.bits.length = p.held :=
  length_bitsOf _ _

theorem fits_empty : Fits empty := ⟨by decide, by decide⟩

@[simp] theorem bits_empty : empty.bits = [] := rfl

@[simp] theorem held_push (p : Pending) (width : Nat) (value : UInt32) :
    (p.push width value).held = p.held + width := rfl

@[simp] theorem held_dropFront (p : Pending) (width : Nat) :
    (p.dropFront width).held = p.held - width := rfl

theorem toNat_ofNat_of_lt {n : Nat} (h : n < 32) : (UInt32.ofNat n).toNat = n := by
  rw [UInt32.toNat_ofNat']
  omega

/-- A word moved up by `k` bits that has room for them. -/
theorem toNat_shiftLeft_of_lt {w : UInt32} {held k : Nat} (hw : w.toNat < 2 ^ held)
    (hk : held + k < 32) : (w <<< UInt32.ofNat k).toNat = 2 ^ k * w.toNat := by
  have hlt : 2 ^ k * w.toNat < 2 ^ 32 := by
    calc 2 ^ k * w.toNat < 2 ^ k * 2 ^ held :=
          Nat.mul_lt_mul_of_pos_left hw (Nat.two_pow_pos k)
      _ = 2 ^ (held + k) := by rw [← Nat.pow_add, Nat.add_comm]
      _ ≤ 2 ^ 32 := Nat.pow_le_pow_right (by decide) (by omega)
  rw [UInt32.toNat_shiftLeft, toNat_ofNat_of_lt (by omega), Nat.shiftLeft_eq,
    Nat.mod_eq_of_lt (by omega : k < 32), Nat.mul_comm, Nat.mod_eq_of_lt hlt]

theorem toNat_word_push {p : Pending} (hp : p.Fits) {width : Nat} {value : UInt32}
    (hv : value.toNat < 2 ^ width) (hw : p.held + width < 32) :
    (p.push width value).word.toNat = 2 ^ width * p.word.toNat + value.toNat := by
  simp only [push, UInt32.toNat_or, toNat_shiftLeft_of_lt hp.word_lt hw]
  rw [Nat.two_pow_add_eq_or_of_lt hv]

theorem fits_push {p : Pending} (hp : p.Fits) {width : Nat} {value : UInt32}
    (hv : value.toNat < 2 ^ width) (hw : p.held + width < 32) : (p.push width value).Fits where
  word_lt := by
    rw [toNat_word_push hp hv hw, held_push, Nat.pow_add, Nat.mul_comm (2 ^ p.held)]
    calc 2 ^ width * p.word.toNat + value.toNat < 2 ^ width * p.word.toNat + 2 ^ width := by omega
      _ = 2 ^ width * (p.word.toNat + 1) := by rw [Nat.mul_succ]
      _ ≤ 2 ^ width * 2 ^ p.held := Nat.mul_le_mul_left _ hp.word_lt
  held_lt := hw

/-- Pushing appends the bits of the value. -/
theorem bits_push {p : Pending} (hp : p.Fits) {width : Nat} {value : UInt32}
    (hv : value.toNat < 2 ^ width) (hw : p.held + width < 32) :
    (p.push width value).bits = p.bits ++ bitsOf width value.toNat := by
  rw [bits, toNat_word_push hp hv hw, held_push, bitsOf_add _ _ _ hv, bits]

theorem toNat_front {p : Pending} (hp : p.Fits) (width : Nat) :
    (p.front width).toNat = p.word.toNat / 2 ^ (p.held - width) := by
  have hlt : p.held - width < 32 := by have := hp.held_lt; omega
  rw [front, UInt32.toNat_shiftRight, toNat_ofNat_of_lt hlt, Nat.shiftRight_eq_div_pow,
    Nat.mod_eq_of_lt hlt]

theorem toNat_word_dropFront {p : Pending} (hp : p.Fits) (width : Nat) :
    (p.dropFront width).word.toNat = p.word.toNat % 2 ^ (p.held - width) := by
  have hlt : p.held - width < 32 := by have := hp.held_lt; omega
  have hone : ((1 : UInt32) <<< UInt32.ofNat (p.held - width)).toNat = 2 ^ (p.held - width) := by
    have hp2 : 2 ^ (p.held - width) < 2 ^ 32 := Nat.pow_lt_pow_right (by decide) hlt
    rw [UInt32.toNat_shiftLeft, toNat_ofNat_of_lt hlt, Nat.shiftLeft_eq, Nat.mod_eq_of_lt hlt]
    simp only [UInt32.toNat_one, Nat.one_mul]
    exact Nat.mod_eq_of_lt hp2
  have hle : (1 : UInt32) ≤ (1 : UInt32) <<< UInt32.ofNat (p.held - width) := by
    rw [UInt32.le_iff_toNat_le, hone]
    exact Nat.one_le_two_pow
  simp only [dropFront, UInt32.toNat_and, UInt32.toNat_sub_of_le _ _ hle, hone, UInt32.toNat_one]
  exact Nat.and_two_pow_sub_one_eq_mod _ _

theorem front_lt {p : Pending} (hp : p.Fits) {width : Nat} (h : width ≤ p.held) :
    (p.front width).toNat < 2 ^ width := by
  rw [toNat_front hp]
  apply Nat.div_lt_of_lt_mul
  rw [← Nat.pow_add, Nat.sub_add_cancel h]
  exact hp.word_lt

theorem fits_dropFront {p : Pending} (hp : p.Fits) (width : Nat) : (p.dropFront width).Fits where
  word_lt := by
    rw [toNat_word_dropFront hp, held_dropFront]
    exact Nat.mod_lt _ (Nat.two_pow_pos _)
  held_lt := by
    rw [held_dropFront]
    have := hp.held_lt
    omega

/-- The waiting bits are the front group and the rest. -/
theorem bits_split {p : Pending} (hp : p.Fits) {width : Nat} (h : width ≤ p.held) :
    p.bits = bitsOf width (p.front width).toNat ++ (p.dropFront width).bits := by
  rw [bits, bits, toNat_front hp, toNat_word_dropFront hp, held_dropFront,
    ← bitsOf_add _ _ _ (Nat.mod_lt _ (Nat.two_pow_pos _)), Nat.div_add_mod,
    Nat.add_sub_of_le h]

/-- The waiting bits, filled up with zeros to a group. -/
theorem bitsOf_padded {p : Pending} (hp : p.Fits) {width : Nat} (h : p.held ≤ width)
    (hw : width < 32) :
    bitsOf width (p.padded width).toNat = p.bits ++ List.replicate (width - p.held) false := by
  have hpad : (p.padded width).toNat = 2 ^ (width - p.held) * p.word.toNat + 0 := by
    rw [padded, toNat_shiftLeft_of_lt hp.word_lt (by omega), Nat.add_zero]
  rw [hpad]
  calc bitsOf width (2 ^ (width - p.held) * p.word.toNat + 0)
      = bitsOf (p.held + (width - p.held)) (2 ^ (width - p.held) * p.word.toNat + 0) := by
        rw [Nat.add_sub_of_le h]
    _ = p.bits ++ List.replicate (width - p.held) false := by
        rw [bitsOf_add _ _ _ (Nat.two_pow_pos _), bitsOf_zero, bits]

theorem padded_lt {p : Pending} (hp : p.Fits) {width : Nat} (h : p.held ≤ width)
    (hw : width < 32) : (p.padded width).toNat < 2 ^ width := by
  rw [padded, toNat_shiftLeft_of_lt hp.word_lt (by omega)]
  calc 2 ^ (width - p.held) * p.word.toNat < 2 ^ (width - p.held) * 2 ^ p.held :=
        Nat.mul_lt_mul_of_pos_left hp.word_lt (Nat.two_pow_pos _)
    _ = 2 ^ width := by rw [← Nat.pow_add, Nat.sub_add_cancel h]

end SafeText.Pending

end TextTunnel
