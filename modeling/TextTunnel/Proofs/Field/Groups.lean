import Mathlib.Algebra.Group.Nat.Defs
import TextTunnel.Field.Read

/-!
# Numbers in groups of seven bits

A number is a row of bytes of which all but the last announce another one. Each stands for seven
bits, lowest first, so the row denotes a number of its own, and there is no limit to it. A reader
takes at most five bytes and keeps 32 of their 35 bits. What it makes of any bytes is told here by
the number that they denote: it answers with that number modulo 2^32.

* `Field.Groups`, `Field.ofGroups` -- the bytes of one number, and the number.
* `groups_varintOfNat`, `ofGroups_varintOfNat`, `length_varintOfNat_le_iff` -- a number is written
  in groups that denote it, and in as few as can be.
* `Field.begins` -- bytes begin with a number, or announce too many, or are too few.
* `varint_groups`, `varint_endless`, `varint_cut` -- what is read in each of these cases.
* `varint_reading` -- what is read, and that only numbers over 32 bits are read wrongly.
* `varint_reads_zero` -- one of these.
-/

namespace TextTunnel

namespace Field

/-! ## 1. Groups and their number -/

/-- The byte says that another one follows. -/
def Announces (b : UInt8) : Prop :=
  128 ≤ b.toNat

instance (b : UInt8) : Decidable (Announces b) :=
  inferInstanceAs (Decidable (128 ≤ b.toNat))

/-- The bytes of one number: all but the last announce another one. -/
inductive Groups : Bytes → Prop
  | last {b : UInt8} (hb : ¬ Announces b) : Groups [b]
  | more {b : UInt8} {bs : Bytes} (hb : Announces b) (hbs : Groups bs) : Groups (b :: bs)

/-- The number that bytes denote, seven bits each and lowest first. -/
def ofGroups : Bytes → Nat
  | [] => 0
  | b :: bs => b.toNat % 128 + 128 * ofGroups bs

theorem Groups.length_pos {bs : Bytes} (h : Groups bs) : 0 < bs.length := by
  cases h <;> exact Nat.succ_pos _

theorem ofGroups_lt (bs : Bytes) : ofGroups bs < 2 ^ (7 * bs.length) := by
  induction bs with
  | nil => decide
  | cons b bs ih =>
    have hb : b.toNat % 128 < 128 := Nat.mod_lt _ (by decide)
    simp only [ofGroups, List.length_cons, Nat.mul_succ, Nat.pow_add]
    omega

/-- Five groups denote a number that needs more than 32 bits exactly if the fifth has more than
four. -/
theorem two_pow_le_ofGroups_iff {groups : Bytes} (b : UInt8) (hlen : groups.length = 4) :
    2 ^ 32 ≤ ofGroups (groups ++ [b]) ↔ 16 ≤ b.toNat % 128 := by
  match groups, hlen with
  | [b₀, b₁, b₂, b₃], _ =>
    simp only [List.cons_append, List.nil_append, ofGroups]
    omega

/-- The bytes of a number are some that announce another one, and a last one that does not. -/
theorem Groups.exists_last {bs : Bytes} (h : Groups bs) :
    ∃ groups last, bs = groups ++ [last] ∧ (∀ b ∈ groups, Announces b) ∧ ¬ Announces last := by
  induction h with
  | @last b hb => exact ⟨[], b, rfl, by simp, hb⟩
  | @more b bs hb _ ih =>
    obtain ⟨groups, last, rfl, hgroups, hlast⟩ := ih
    exact ⟨b :: groups, last, rfl, List.forall_mem_cons.mpr ⟨hb, hgroups⟩, hlast⟩

theorem groups_concat {groups : Bytes} {last : UInt8} (h : ∀ b ∈ groups, Announces b)
    (hlast : ¬ Announces last) : Groups (groups ++ [last]) := by
  induction groups with
  | nil => exact .last hlast
  | cons b groups ih =>
    obtain ⟨hb, hrest⟩ := List.forall_mem_cons.mp h
    exact .more hb (ih hrest)

/-- Only the last byte of a number announces nothing. -/
theorem Groups.announces_of_front {number front missing : Bytes} (h : Groups number)
    (heq : number = front ++ missing) (hne : missing ≠ []) : ∀ b ∈ front, Announces b := by
  obtain ⟨groups, last, rfl, hgroups, -⟩ := h.exists_last
  have hdrop := congrArg List.dropLast heq
  rw [List.dropLast_concat, List.dropLast_append_of_ne_nil hne] at hdrop
  rw [hdrop] at hgroups
  exact fun b hb => hgroups b (List.mem_append_left _ hb)

/-! ## 2. How bytes begin -/

/-- The ways in which bytes can begin if at most `n` of them are looked at. -/
inductive Begins (n : Nat) : Bytes → Prop
  /-- With a number. -/
  | number {number rest : Bytes} (h : Groups number) (hlen : number.length ≤ n) :
    Begins n (number ++ rest)
  /-- With as many bytes as are looked at, and another one announced. -/
  | endless {bytes rest : Bytes} (h : ∀ b ∈ bytes, Announces b) (hlen : bytes.length = n) :
    Begins n (bytes ++ rest)
  /-- With too few bytes, and another one announced. -/
  | cut {bytes : Bytes} (h : ∀ b ∈ bytes, Announces b) (hlen : bytes.length < n) : Begins n bytes

theorem Begins.cons {n : Nat} {b : UInt8} {bs : Bytes} (hb : Announces b) (h : Begins n bs) :
    Begins (n + 1) (b :: bs) := by
  cases h with
  | @number number rest h hlen =>
    exact @Begins.number (n + 1) (b :: number) rest (.more hb h) (Nat.succ_le_succ hlen)
  | @endless bytes rest h hlen =>
    exact @Begins.endless (n + 1) (b :: bytes) rest (List.forall_mem_cons.mpr ⟨hb, h⟩)
      (congrArg Nat.succ hlen)
  | cut h hlen => exact .cut (List.forall_mem_cons.mpr ⟨hb, h⟩) (Nat.succ_lt_succ hlen)

/-- **All bytes begin in one of these ways.** -/
theorem begins (n : Nat) (input : Bytes) : Begins n input := by
  induction n generalizing input with
  | zero => exact @Begins.endless 0 [] input (by simp) rfl
  | succ n ih =>
    cases input with
    | nil => exact .cut (by simp) (Nat.succ_pos n)
    | cons b input =>
      by_cases hb : Announces b
      · exact (ih input).cons hb
      · exact @Begins.number (n + 1) [b] input (.last hb) (Nat.succ_le_succ (Nat.zero_le n))

/-! ## 3. Writing -/

theorem groups_varintOfNat (n : Nat) : Groups (varintOfNat n) := by
  induction n using varintOfNat.induct with
  | case1 n h =>
    rw [varintOfNat, dif_pos h]
    refine .last ?_
    rw [Announces, UInt8.toNat_ofNat']
    omega
  | case2 n h ih =>
    rw [varintOfNat, dif_neg h]
    refine .more ?_ ih
    rw [Announces, UInt8.toNat_ofNat']
    omega

theorem ofGroups_varintOfNat (n : Nat) : ofGroups (varintOfNat n) = n := by
  induction n using varintOfNat.induct with
  | case1 n h =>
    rw [varintOfNat, dif_pos h, ofGroups, ofGroups, UInt8.toNat_ofNat']
    omega
  | case2 n h ih =>
    rw [varintOfNat, dif_neg h, ofGroups, ih, UInt8.toNat_ofNat']
    omega

/-- A number is written in at most `k` groups exactly if it has at most `7 * k` bits. -/
theorem length_varintOfNat_le_iff {k : Nat} (hk : k ≠ 0) (n : Nat) :
    (varintOfNat n).length ≤ k ↔ n < 2 ^ (7 * k) := by
  constructor
  · intro h
    have hlt := ofGroups_lt (varintOfNat n)
    rw [ofGroups_varintOfNat] at hlt
    exact Nat.lt_of_lt_of_le hlt (Nat.pow_le_pow_right (by decide) (Nat.mul_le_mul_left 7 h))
  · intro hn
    induction k generalizing n with
    | zero => exact absurd rfl hk
    | succ k ih =>
      rw [varintOfNat]
      split
      · simp
      · next hge =>
        rw [Nat.mul_succ, Nat.pow_add] at hn
        have hk0 : k ≠ 0 := by
          rintro rfl
          omega
        have hdiv : n / 128 < 2 ^ (7 * k) := Nat.div_lt_of_lt_mul (by omega)
        exact Nat.succ_le_succ (ih hk0 _ hdiv)

/-- Nothing shorter denotes as much. -/
theorem length_varintOfNat_le_of_groups {n : Nat} {number : Bytes} (h : Groups number)
    (hn : n ≤ ofGroups number) : (varintOfNat n).length ≤ number.length :=
  (length_varintOfNat_le_iff (Nat.ne_of_gt h.length_pos) n).mpr
    (Nat.lt_of_le_of_lt hn (ofGroups_lt number))

/-- 32 bits are written in at most five groups. -/
theorem length_varint_le (n : UInt32) : (varint n).length ≤ 5 := by
  refine (length_varintOfNat_le_iff (by decide) _).mpr (Nat.lt_of_lt_of_le n.toNat_lt ?_)
  decide

end Field

open TextTunnel.Field

/-! ## 4. Reading -/

theorem toNat_and_127 (b : UInt8) : (b &&& 0x7F).toNat = b.toNat % 128 := by
  rw [UInt8.toNat_and]
  exact Nat.and_two_pow_sub_one_eq_mod b.toNat 7

theorem and_128_eq_zero_iff (b : UInt8) : b &&& 0x80 = 0 ↔ ¬ Announces b := by
  have key : ∀ n : Fin 256, UInt8.ofNat n.val &&& 0x80 = 0 ↔ ¬ 128 ≤ n.val := by decide +kernel
  simpa [Announces] using key ⟨b.toNat, b.toNat_lt⟩

/-- What a reader of numbers holds once it has put seven more bits above those it has. Bits that
have no place in 32 are lost. -/
def addGroup (index : Nat) (value : UInt32) (b : UInt8) : UInt32 :=
  value ||| ((b &&& 0x7F).toUInt32 <<< UInt32.ofNat (7 * index))

theorem toNat_addGroup {index : Nat} {value : UInt32} (b : UInt8) (hi : index < 5)
    (hv : value.toNat < 2 ^ (7 * index)) :
    (addGroup index value b).toNat
      = (2 ^ (7 * index) * (b.toNat % 128) + value.toNat) % 2 ^ 32 := by
  have hshift : (UInt32.ofNat (7 * index)).toNat = 7 * index := by
    rw [UInt32.toNat_ofNat']
    omega
  have hpow : 2 ^ 32 = 2 ^ (7 * index) * 2 ^ (32 - 7 * index) := by
    rw [← Nat.pow_add]
    congr 1
    omega
  have hlow : (2 ^ (7 * index) * (b.toNat % 128)) % 2 ^ 32
      = 2 ^ (7 * index) * (b.toNat % 128 % 2 ^ (32 - 7 * index)) := by
    rw [hpow, Nat.mul_mod_mul_left]
  unfold addGroup
  rw [UInt32.toNat_or, UInt32.toNat_shiftLeft, hshift, UInt8.toNat_toUInt32, toNat_and_127,
    Nat.shiftLeft_eq, Nat.mod_eq_of_lt (by omega : 7 * index < 32), Nat.mul_comm, hlow,
    Nat.or_comm, ← Nat.two_pow_add_eq_or_of_lt hv]
  rw [hpow, Nat.mod_mul, Nat.mul_add_mod, Nat.mod_eq_of_lt hv,
    Nat.mul_add_div (Nat.two_pow_pos _), Nat.div_eq_of_lt hv, Nat.add_zero, Nat.add_comm]

theorem varintFrom_nil (fuel index : Nat) (value : UInt32) :
    Reader.varintFrom (fuel + 1) index value [] = (.error (.malformed .truncated), []) :=
  rfl

theorem varintFrom_cons (fuel index : Nat) (value : UInt32) (b : UInt8) (input : Bytes) :
    Reader.varintFrom (fuel + 1) index value (b :: input)
      = if b &&& 0x80 = 0 then (.ok (addGroup index value b), input)
        else Reader.varintFrom fuel (index + 1) (addGroup index value b) input := by
  rw [Reader.varintFrom, Reader.bind_apply]
  dsimp only [Reader.byte]
  split
  · rfl
  · rfl

/-- Seven more bits keep the value below the place of the next group, also where the uppermost of
them are lost. -/
theorem toNat_addGroup_lt {index : Nat} {value : UInt32} (b : UInt8) (hi : index < 5)
    (hv : value.toNat < 2 ^ (7 * index)) :
    (addGroup index value b).toNat < 2 ^ (7 * (index + 1)) := by
  have hb : b.toNat % 128 ≤ 127 := Nat.le_of_lt_succ (Nat.mod_lt _ (by decide))
  have hle := Nat.mul_le_mul_left (2 ^ (7 * index)) hb
  rw [toNat_addGroup b hi hv, Nat.mul_succ, Nat.pow_add]
  refine Nat.lt_of_le_of_lt (Nat.mod_le _ _) ?_
  omega

/-- **A number is read modulo 2^32.**  `index` groups have been read into `value`, which lies below
the place of the next one. -/
theorem varintFrom_groups {fuel index : Nat} {value : UInt32} {number : Bytes}
    (hfuel : fuel + index = 5) (hv : value.toNat < 2 ^ (7 * index)) (h : Groups number)
    (hlen : number.length ≤ fuel) (rest : Bytes) :
    Reader.varintFrom fuel index value (number ++ rest)
      = (.ok (UInt32.ofNat (2 ^ (7 * index) * ofGroups number + value.toNat)), rest) := by
  induction h generalizing fuel index value with
  | @last b hb =>
    cases fuel with
    | zero => exact absurd hlen (Nat.not_succ_le_zero _)
    | succ fuel =>
      have hvalue : addGroup index value b
          = UInt32.ofNat (2 ^ (7 * index) * ofGroups [b] + value.toNat) := by
        apply UInt32.toNat_inj.mp
        rw [toNat_addGroup b (by omega) hv, UInt32.toNat_ofNat', ofGroups, ofGroups, Nat.mul_zero,
          Nat.add_zero]
      rw [List.singleton_append, varintFrom_cons, if_pos ((and_128_eq_zero_iff b).mpr hb), hvalue]
  | @more b bs hb hbs ih =>
    cases fuel with
    | zero => exact absurd hlen (Nat.not_succ_le_zero _)
    | succ fuel =>
      have hle : bs.length ≤ fuel := Nat.le_of_succ_le_succ hlen
      have hpos := hbs.length_pos
      have hlt := toNat_addGroup_lt b (by omega : index < 5) hv
      have hpow : 2 ^ (7 * (index + 1)) = 2 ^ (7 * index) * 128 := by
        rw [Nat.mul_succ, Nat.pow_add]
      -- There is a group behind this one, so this one is not the fifth, and no bit is lost yet.
      have hvalue : (addGroup index value b).toNat
          = 2 ^ (7 * index) * (b.toNat % 128) + value.toNat := by
        have hb : b.toNat % 128 ≤ 127 := Nat.le_of_lt_succ (Nat.mod_lt _ (by decide))
        have hmul := Nat.mul_le_mul_left (2 ^ (7 * index)) hb
        have hfits : 2 ^ (7 * (index + 1)) ≤ 2 ^ 32 :=
          Nat.pow_le_pow_right (by decide) (by omega)
        rw [toNat_addGroup b (by omega) hv]
        exact Nat.mod_eq_of_lt (by omega)
      have hsum : 2 ^ (7 * (index + 1)) * ofGroups bs + (addGroup index value b).toNat
          = 2 ^ (7 * index) * ofGroups (b :: bs) + value.toNat := by
        rw [hvalue, hpow, ofGroups, Nat.mul_add, Nat.mul_assoc]
        omega
      rw [List.cons_append, varintFrom_cons, if_neg fun h => (and_128_eq_zero_iff b).mp h hb,
        ih (by omega) hlt hle, hsum]

/-- As many bytes as are looked at, and another one announced: too long, whatever the bytes
denote. -/
theorem varintFrom_endless (index : Nat) (value : UInt32) {bytes : Bytes}
    (h : ∀ b ∈ bytes, Announces b) (rest : Bytes) :
    Reader.varintFrom bytes.length index value (bytes ++ rest)
      = (.error (.malformed .varIntTooLong), rest) := by
  induction bytes generalizing index value with
  | nil => rfl
  | cons b bytes ih =>
    obtain ⟨hb, hrest⟩ := List.forall_mem_cons.mp h
    rw [List.length_cons, List.cons_append, varintFrom_cons,
      if_neg fun h => (and_128_eq_zero_iff b).mp h hb, ih _ _ hrest]

/-- Too few bytes, and another one announced: too short. -/
theorem varintFrom_cut {fuel : Nat} (index : Nat) (value : UInt32) {bytes : Bytes}
    (h : ∀ b ∈ bytes, Announces b) (hlen : bytes.length < fuel) :
    Reader.varintFrom fuel index value bytes = (.error (.malformed .truncated), []) := by
  induction bytes generalizing fuel index value with
  | nil =>
    obtain ⟨fuel, rfl⟩ := Nat.exists_eq_succ_of_ne_zero (Nat.ne_of_gt hlen)
    exact varintFrom_nil fuel index value
  | cons b bytes ih =>
    obtain ⟨hb, hrest⟩ := List.forall_mem_cons.mp h
    cases fuel with
    | zero => exact absurd hlen (Nat.not_lt_zero _)
    | succ fuel =>
      rw [varintFrom_cons, if_neg fun h => (and_128_eq_zero_iff b).mp h hb,
        ih _ _ hrest (Nat.lt_of_succ_lt_succ hlen)]

theorem varint_groups {number : Bytes} (h : Groups number) (hlen : number.length ≤ 5)
    (rest : Bytes) :
    Reader.varint (number ++ rest) = (.ok (UInt32.ofNat (ofGroups number)), rest) := by
  have hzero : UInt32.toNat 0 < 2 ^ (7 * 0) := by decide
  have hread := varintFrom_groups rfl hzero h hlen rest
  rwa [Nat.mul_zero, Nat.pow_zero, Nat.one_mul, UInt32.toNat_zero, Nat.add_zero] at hread

theorem varint_endless {bytes : Bytes} (h : ∀ b ∈ bytes, Announces b) (hlen : bytes.length = 5)
    (rest : Bytes) : Reader.varint (bytes ++ rest) = (.error (.malformed .varIntTooLong), rest) := by
  have hread := varintFrom_endless 0 0 h rest
  rwa [hlen] at hread

theorem varint_cut {bytes : Bytes} (h : ∀ b ∈ bytes, Announces b) (hlen : bytes.length < 5) :
    Reader.varint bytes = (.error (.malformed .truncated), []) :=
  varintFrom_cut 0 0 h hlen

/-- The bytes that are taken for a number. -/
theorem varint_eq_ok_iff {input rest : Bytes} {v : UInt32} :
    Reader.varint input = (.ok v, rest) ↔
      ∃ number, input = number ++ rest ∧ Groups number ∧ number.length ≤ 5 ∧
        v = UInt32.ofNat (ofGroups number) := by
  constructor
  · intro h
    have hbegins := begins 5 input
    cases hbegins with
    | @number number rest' hnumber hlen =>
      rw [varint_groups hnumber hlen] at h
      simp only [Prod.mk.injEq, Except.ok.injEq] at h
      obtain ⟨rfl, rfl⟩ := h
      exact ⟨number, rfl, hnumber, hlen, rfl⟩
    | endless hbytes hlen =>
      rw [varint_endless hbytes hlen] at h
      cases h
    | cut hbytes hlen =>
      rw [varint_cut hbytes hlen] at h
      cases h
  · rintro ⟨number, rfl, hnumber, hlen, rfl⟩
    exact varint_groups hnumber hlen rest

/-! ## 5. What is meant, and what is read -/

/-- The bytes begin with a number of five, and the last one has bits that have no place in 32. -/
def Exceeds (input : Bytes) : Prop :=
  ∃ groups last rest, input = groups ++ last :: rest ∧ groups.length = 4 ∧
    (∀ b ∈ groups, Announces b) ∧ ¬ Announces last ∧ 16 ≤ last.toNat

/-- That is, they begin with a number of more than 32 bits. -/
theorem exceeds_iff {input : Bytes} :
    Exceeds input ↔ ∃ number rest, input = number ++ rest ∧ Groups number ∧ number.length ≤ 5 ∧
      2 ^ 32 ≤ ofGroups number := by
  constructor
  · rintro ⟨groups, last, rest, rfl, hlen, hgroups, hlast, hlarge⟩
    refine ⟨groups ++ [last], rest, by simp, groups_concat hgroups hlast, by simp [hlen], ?_⟩
    have hlt : last.toNat < 128 := Nat.lt_of_not_le hlast
    rwa [two_pow_le_ofGroups_iff last hlen, Nat.mod_eq_of_lt hlt]
  · rintro ⟨number, rest, rfl, h, hlen, hlarge⟩
    obtain ⟨groups, last, rfl, hgroups, hlast⟩ := h.exists_last
    have hlt : last.toNat < 128 := Nat.lt_of_not_le hlast
    have hbound := ofGroups_lt (groups ++ [last])
    rw [List.length_append, List.length_singleton] at hlen hbound
    -- Four groups have 28 bits together.
    have hfour : groups.length = 4 := by
      refine Nat.le_antisymm (Nat.le_of_succ_le_succ hlen) (Nat.le_of_not_lt fun hshort => ?_)
      have hle : 2 ^ (7 * (groups.length + 1)) ≤ 2 ^ 28 :=
        Nat.pow_le_pow_right (by decide) (by omega)
      omega
    rw [two_pow_le_ofGroups_iff last hfour, Nat.mod_eq_of_lt hlt] at hlarge
    exact ⟨groups, last, rest, by simp, hfour, hgroups, hlast, hlarge⟩

/-- What a reader of 32-bit numbers is meant to answer. -/
inductive ReadsNumber : Bytes → Except PacketError UInt32 × Bytes → Prop
  /-- The number that the bytes denote, if it has 32 bits. -/
  | number {number rest : Bytes} {v : UInt32} (h : Groups number) (hlen : number.length ≤ 5)
      (hv : v.toNat = ofGroups number) : ReadsNumber (number ++ rest) (.ok v, rest)
  /-- That the bytes are malformed, if it has more. -/
  | exceeding {number rest left : Bytes} {reason : Malformed} (h : Groups number)
      (hlen : number.length ≤ 5) (hlarge : 2 ^ 32 ≤ ofGroups number) :
    ReadsNumber (number ++ rest) (.error (.malformed reason), left)
  /-- That the number is too long, if five bytes announce another one. -/
  | endless {bytes rest : Bytes} (h : ∀ b ∈ bytes, Announces b) (hlen : bytes.length = 5) :
    ReadsNumber (bytes ++ rest) (.error (.malformed .varIntTooLong), rest)
  /-- That the bytes are too few, if they end before the last one of the number. -/
  | cut {bytes : Bytes} (h : ∀ b ∈ bytes, Announces b) (hlen : bytes.length < 5) :
    ReadsNumber bytes (.error (.malformed .truncated), [])

/-- A number of more than 32 bits is not refused. -/
theorem not_readsNumber_of_exceeds {input : Bytes} (hexceeds : Exceeds input) :
    ¬ ReadsNumber input (Reader.varint input) := by
  intro hreads
  obtain ⟨number, rest, rfl, h, hlen, hlarge⟩ := exceeds_iff.mp hexceeds
  rw [varint_groups h hlen] at hreads
  generalize hinput : number ++ rest = input at hreads
  cases hreads with
  | @number number' _ v h' hlen' hv =>
    obtain rfl := List.append_cancel_right hinput
    have hlt := (UInt32.ofNat (ofGroups number)).toNat_lt
    omega

theorem readsNumber_of_not_exceeds {input : Bytes} (hfits : ¬ Exceeds input) :
    ReadsNumber input (Reader.varint input) := by
  have hbegins := begins 5 input
  cases hbegins with
  | @number number rest h hlen =>
    rw [varint_groups h hlen]
    refine .number h hlen ?_
    rw [UInt32.toNat_ofNat']
    refine Nat.mod_eq_of_lt (Nat.lt_of_not_le fun hlarge => hfits ?_)
    exact exceeds_iff.mpr ⟨number, rest, rfl, h, hlen, hlarge⟩
  | @endless bytes rest h hlen =>
    rw [varint_endless h hlen]
    exact .endless h hlen
  | cut h hlen =>
    rw [varint_cut h hlen]
    exact .cut h hlen

/-- **What is read.**  A number of up to five bytes is read modulo 2^32. So the answer is the one
that is meant for all bytes but those that begin with a number of more than 32 bits, which is never
refused. -/
theorem varint_reading (input : Bytes) :
    (∀ number rest, Groups number → number.length ≤ 5 → input = number ++ rest →
      Reader.varint input = (.ok (UInt32.ofNat (ofGroups number)), rest)) ∧
    (ReadsNumber input (Reader.varint input) ↔ ¬ Exceeds input) := by
  constructor
  · rintro number rest h hlen rfl
    exact varint_groups h hlen rest
  · exact ⟨fun hreads hexceeds => not_readsNumber_of_exceeds hexceeds hreads,
      readsNumber_of_not_exceeds⟩

/-- Five bytes that denote 2^32 are read as zero. -/
theorem varint_reads_zero :
    let input : Bytes := [0x80, 0x80, 0x80, 0x80, 0x10]
    Groups input ∧ ofGroups input = 2 ^ 32 ∧ Reader.varint input = (.ok 0, []) ∧
      ¬ ReadsNumber input (Reader.varint input) := by
  intro input
  have hgroups : Groups ([0x80, 0x80, 0x80, 0x80] ++ [0x10]) :=
    groups_concat (by simp [Announces]) (by decide)
  have hnumber : ofGroups input = 2 ^ 32 := by decide
  have hexceeds : Exceeds input :=
    exceeds_iff.mpr ⟨input, [], rfl, hgroups, by decide, Nat.le_of_eq hnumber.symm⟩
  exact ⟨hgroups, hnumber, rfl, not_readsNumber_of_exceeds hexceeds⟩

end TextTunnel
