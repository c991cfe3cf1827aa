import TextTunnel.Proofs.Json.Tokens

/-!
# Numbers

A number is read digit by digit and keeps its digits, so what comes back is the number as it was
written. Only its end is not its own: a number is read as far as it goes, and comes back if the text
behind it does not go on with it.

* `NumberText.Valid` -- the numbers of the grammar.
* `number?_numberChars` -- such a number comes back.
* `valid_integer`, `integer?_ofInteger` -- an integer as a document is such a number, and keeps
  its value.
-/

namespace TextTunnel.Json

open TextTunnel.Text

/-! ## 1. Rows of digits -/

/-- Decimal digits, at least one. -/
def AreDigits (ds : List Nat) : Prop := ds ≠ [] ∧ ∀ d ∈ ds, d < 10

/-- Digits are taken as far as they go. -/
theorem takeDigits_digitChars {ds : List Nat} {rest : List Char} (hds : ∀ d ∈ ds, d < 10)
    (hrest : ∀ c ∈ rest.head?, isDigit c = false) :
    takeDigits (digitChars ds ++ rest) = (ds, rest) := by
  have hall : ∀ c ∈ digitChars ds, isDigit c = true := by
    intro c hc
    obtain ⟨d, hd, rfl⟩ := List.mem_map.mp hc
    exact isDigit_digitChar (hds d hd)
  have hvalues : (digitChars ds).map (fun c => c.toNat - 48) = ds := by
    rw [digitChars, List.map_map]
    refine (List.map_congr_left fun d hd => ?_).trans (List.map_id ds)
    rw [Function.comp_apply, Nat.toNat_digitChar_of_lt_ten (hds d hd), Nat.add_sub_cancel_left]
    rfl
  have hstop : rest.takeWhile isDigit = [] ∧ rest.dropWhile isDigit = rest := by
    cases rest with
    | nil => exact ⟨rfl, rfl⟩
    | cons c rest =>
      have hc := hrest c rfl
      exact ⟨List.takeWhile_cons_of_neg (by simp [hc]), List.dropWhile_cons_of_neg (by simp [hc])⟩
  rw [takeDigits, List.takeWhile_append_of_pos hall, List.dropWhile_append_of_pos hall, hstop.1,
    hstop.2, List.append_nil, hvalues]

theorem someDigits?_digitChars {ds : List Nat} {rest : List Char} (hds : AreDigits ds)
    (hrest : ∀ c ∈ rest.head?, isDigit c = false) :
    someDigits? (digitChars ds ++ rest) = some (ds, rest) := by
  obtain ⟨hne, hlt⟩ := hds
  rw [someDigits?, takeDigits_digitChars hlt hrest]
  cases ds with
  | nil => exact absurd rfl hne
  | cons d ds => rfl

/-! ## 2. The parts of a number -/

/-- What a number consists of: digits, with no zero in front of others, digits behind the point or no
point, and an exponent of digits or none. -/
structure NumberText.Valid (n : NumberText) : Prop where
  whole : AreDigits n.whole
  leading : ∀ ds, n.whole = 0 :: ds → ds = []
  fraction : ∀ d ∈ n.fraction, d < 10
  exponent : ∀ e ∈ n.exponent, AreDigits e.2

/-- The point and the digits behind it. -/
def fractionChars (ds : List Nat) : List Char :=
  if ds.isEmpty then [] else '.' :: digitChars ds

/-- The exponent with its letter. -/
def exponentChars : Option (Bool × List Nat) → List Char
  | none => []
  | some (negative, ds) => 'e' :: (if negative then ['-'] else []) ++ digitChars ds

theorem numberChars_eq (n : NumberText) :
    numberChars n = (if n.negative then ['-'] else [])
      ++ (digitChars n.whole ++ (fractionChars n.fraction ++ exponentChars n.exponent)) := by
  obtain ⟨negative, whole, fraction, exponent⟩ := n
  cases exponent <;> simp [numberChars, fractionChars, exponentChars]

theorem wholePart?_digitChars {ds : List Nat} {rest : List Char} (hds : AreDigits ds)
    (hleading : ∀ tail, ds = 0 :: tail → tail = [])
    (hrest : ∀ c ∈ rest.head?, isDigit c = false) :
    wholePart? (digitChars ds ++ rest) = some (ds, rest) := by
  rw [wholePart?, someDigits?_digitChars hds hrest]
  split
  · rename_i heq
    cases heq
    cases hleading _ rfl
  · rfl

theorem fractionPart?_fractionChars {ds : List Nat} {rest : List Char} (hds : ∀ d ∈ ds, d < 10)
    (hdigit : ∀ c ∈ rest.head?, isDigit c = false) (hpoint : rest.head? ≠ some '.') :
    fractionPart? (fractionChars ds ++ rest) = some (ds, rest) := by
  cases ds with
  | nil =>
    show fractionPart? rest = _
    exact fractionPart?.eq_2 rest fun cs h => hpoint (by rw [h]; rfl)
  | cons d ds =>
    show someDigits? (digitChars (d :: ds) ++ rest) = _
    exact someDigits?_digitChars ⟨List.cons_ne_nil d ds, hds⟩ hdigit

/-- A row of digits starts with no sign. -/
theorem head?_digitChars {ds : List Nat} (hds : AreDigits ds) (rest : List Char) :
    ∃ c cs, digitChars ds ++ rest = c :: cs ∧ isDigit c = true := by
  obtain ⟨hne, hlt⟩ := hds
  cases ds with
  | nil => exact absurd rfl hne
  | cons d ds =>
    exact ⟨Nat.digitChar d, digitChars ds ++ rest, rfl, isDigit_digitChar (hlt d (by simp))⟩

theorem exponentPart?_exponentChars {e : Option (Bool × List Nat)} {rest : List Char}
    (he : ∀ x ∈ e, AreDigits x.2) (hrest : Ends rest) :
    exponentPart? (exponentChars e ++ rest) = some (e, rest) := by
  cases e with
  | none =>
    show exponentPart? rest = _
    refine exponentPart?.eq_3 rest (fun cs h => ?_) fun cs h => ?_
    · exact absurd (hrest 'e' (by rw [h]; rfl)) (by decide)
    · exact absurd (hrest 'E' (by rw [h]; rfl)) (by decide)
  | some x =>
    obtain ⟨negative, ds⟩ := x
    have hds : AreDigits ds := he _ rfl
    have hsign : exponentSign ((if negative then ['-'] else []) ++ digitChars ds ++ rest)
        = (negative, digitChars ds ++ rest) := by
      cases negative with
      | true => rfl
      | false =>
        obtain ⟨c, cs, hcs, hc⟩ := head?_digitChars hds rest
        show exponentSign (digitChars ds ++ rest) = _
        refine exponentSign.eq_3 _ (fun tail h => ?_) fun tail h => ?_
        · obtain rfl : c = '-' := by simpa [hcs] using congrArg List.head? h
          exact absurd hc (by decide)
        · obtain rfl : c = '+' := by simpa [hcs] using congrArg List.head? h
          exact absurd hc (by decide)
    show exponentDigits? ((if negative then ['-'] else []) ++ digitChars ds ++ rest) = _
    rw [exponentDigits?, hsign]
    simp only [someDigits?_digitChars hds hrest.isDigit]
    rfl

/-! ## 3. Whole numbers -/

/-- What stands behind the point decides neither where the digits in front of it end nor that the
number has no other point. -/
theorem head?_exponentChars {e : Option (Bool × List Nat)} {rest : List Char} (hrest : Ends rest) :
    (∀ c ∈ (exponentChars e ++ rest).head?, isDigit c = false)
      ∧ (exponentChars e ++ rest).head? ≠ some '.' := by
  cases e with
  | none =>
    refine ⟨hrest.isDigit, fun h => ?_⟩
    exact absurd (hrest '.' h) (by decide)
  | some x =>
    refine ⟨fun c hc => ?_, fun h => ?_⟩
    · obtain rfl : 'e' = c := by simpa [exponentChars] using hc
      decide
    · simp [exponentChars] at h

theorem head?_fractionChars (ds : List Nat) {rest : List Char}
    (hrest : ∀ c ∈ rest.head?, isDigit c = false) :
    ∀ c ∈ (fractionChars ds ++ rest).head?, isDigit c = false := by
  intro c hc
  cases ds with
  | nil => exact hrest c hc
  | cons d ds =>
    obtain rfl : '.' = c := by simpa [fractionChars] using hc
    decide

theorem unsigned?_chars {n : NumberText} (hn : n.Valid) {rest : List Char} (hrest : Ends rest) :
    unsigned? n.negative (digitChars n.whole
        ++ (fractionChars n.fraction ++ (exponentChars n.exponent ++ rest)))
      = some (n, rest) := by
  obtain ⟨hdigit, hpoint⟩ := head?_exponentChars (e := n.exponent) hrest
  unfold unsigned?
  rw [wholePart?_digitChars hn.whole hn.leading (head?_fractionChars n.fraction hdigit)]
  simp only [Option.bind_eq_bind, Option.bind_some]
  rw [fractionPart?_fractionChars hn.fraction hdigit hpoint]
  simp only [Option.bind_some]
  rw [exponentPart?_exponentChars hn.exponent hrest]
  rfl

/-- A number starts with its sign or a digit. -/
theorem exists_numberChars_eq_cons {n : NumberText} (hn : n.Valid) :
    ∃ c cs, numberChars n = c :: cs ∧ (c = '-' ∨ isDigit c = true) := by
  rw [numberChars_eq]
  cases n.negative with
  | true => exact ⟨'-', _, rfl, .inl rfl⟩
  | false =>
    obtain ⟨c, cs, hcs, hc⟩ := head?_digitChars hn.whole
      (fractionChars n.fraction ++ exponentChars n.exponent)
    exact ⟨c, cs, hcs, .inr hc⟩

/-- **A number comes back** if the text behind it does not go on with it. -/
theorem number?_numberChars {n : NumberText} (hn : n.Valid) {rest : List Char} (hrest : Ends rest) :
    number? (numberChars n ++ rest) = some (n, rest) := by
  have hread := unsigned?_chars hn hrest
  rw [numberChars_eq, List.append_assoc, List.append_assoc, List.append_assoc]
  cases hneg : n.negative with
  | true =>
    rw [hneg] at hread
    exact hread
  | false =>
    rw [hneg] at hread
    obtain ⟨c, cs, hcs, hc⟩ := head?_digitChars hn.whole
      (fractionChars n.fraction ++ (exponentChars n.exponent ++ rest))
    have hsign : ∀ tail, c :: cs = '-' :: tail → False := by
      intro tail h
      cases h
      exact absurd hc (by decide)
    show number? (digitChars n.whole ++ _) = _
    rw [hcs] at hread ⊢
    rw [number?.eq_2 _ hsign, hread]

/-! ## 4. Integers -/

open TextTunnel.Json.Tree (digitsOf ofInteger)

theorem digitsOf_of_lt {n : Nat} (h : n < 10) : digitsOf n = [n] := by
  rw [digitsOf, Nat.toDigits_of_lt_base h, List.map_singleton, Nat.toNat_digitChar_of_lt_ten h,
    Nat.add_sub_cancel_left]

theorem digitsOf_of_le {n : Nat} (h : 10 ≤ n) : digitsOf n = digitsOf (n / 10) ++ [n % 10] := by
  rw [digitsOf, Nat.toDigits_of_base_le (by decide) h, List.map_append, List.map_singleton,
    Nat.toNat_digitChar_of_lt_ten (Nat.mod_lt n (by decide)), Nat.add_sub_cancel_left]
  rfl

theorem areDigits_digitsOf (n : Nat) : AreDigits (digitsOf n) := by
  induction n using Nat.strongRecOn with
  | ind n ih =>
    by_cases h : n < 10
    · rw [digitsOf_of_lt h]
      exact ⟨List.cons_ne_nil _ _, by simpa using h⟩
    · rw [digitsOf_of_le (Nat.le_of_not_lt h)]
      obtain ⟨-, hlt⟩ := ih (n / 10) (by omega)
      refine ⟨by simp, fun d hd => ?_⟩
      rcases List.mem_append.mp hd with hd | hd
      · exact hlt d hd
      · obtain rfl : d = n % 10 := by simpa using hd
        exact Nat.mod_lt n (by decide)

/-- Only zero itself starts with a zero. -/
theorem exists_digitsOf_eq_cons {n : Nat} (h : 0 < n) :
    ∃ d ds, digitsOf n = d :: ds ∧ d ≠ 0 := by
  induction n using Nat.strongRecOn with
  | ind n ih =>
    by_cases hn : n < 10
    · exact ⟨n, [], digitsOf_of_lt hn, by omega⟩
    · obtain ⟨d, ds, hds, hd⟩ := ih (n / 10) (by omega) (by omega)
      exact ⟨d, ds ++ [n % 10], by rw [digitsOf_of_le (Nat.le_of_not_lt hn), hds]; rfl, hd⟩

theorem ofDigits_digitsOf (n : Nat) : NumberText.ofDigits (digitsOf n) = n := by
  induction n using Nat.strongRecOn with
  | ind n ih =>
    by_cases h : n < 10
    · simp [digitsOf_of_lt h, NumberText.ofDigits]
    · have hfront := ih (n / 10) (by omega)
      rw [NumberText.ofDigits] at hfront ⊢
      rw [digitsOf_of_le (Nat.le_of_not_lt h), List.foldl_append, hfront, List.foldl_cons,
        List.foldl_nil]
      omega

/-- **An integer is a number** of the grammar. -/
theorem valid_integer (i : Int) :
    NumberText.Valid ⟨i < 0, digitsOf i.natAbs, [], none⟩ where
  whole := areDigits_digitsOf _
  leading ds h := by
    rcases Nat.eq_zero_or_pos i.natAbs with hzero | hpos
    · rw [hzero, digitsOf_of_lt (by decide)] at h
      exact (List.cons.inj h).2.symm
    · obtain ⟨d, tail, htail, hd⟩ := exists_digitsOf_eq_cons hpos
      rw [htail] at h
      exact absurd (List.cons.inj h).1 hd
  fraction := by simp
  exponent := by simp

@[simp] theorem integer?_ofInteger (i : Int) : (ofInteger i).integer? = some i := by
  have hvalue := ofDigits_digitsOf i.natAbs
  simp only [ofInteger, Tree.integer?, NumberText.integer?, hvalue, List.isEmpty_nil,
    Option.isNone_none, and_self, if_true]
  by_cases h : i < 0
  · rw [if_pos (by simpa using h), if_neg (by omega)]
    exact congrArg some (by omega)
  · rw [if_neg (by simpa using h)]
    exact congrArg some (by omega)

/-! ## 5. Integers that can be kept -/

theorem significand_append {ds : List Nat} (more : List Nat) {acc kept : Nat}
    (h : NumberText.significand acc ds = (kept, 0)) :
    NumberText.significand acc (ds ++ more) = NumberText.significand kept more := by
  induction ds generalizing acc with
  | nil =>
    obtain rfl : acc = kept := (Prod.mk.inj h).1
    rfl
  | cons d ds ih =>
    rw [NumberText.significand] at h
    split at h
    · rename_i hlt
      rw [List.cons_append, NumberText.significand, if_pos hlt]
      exact ih h
    · cases h

theorem significand_digitsOf {n : Nat} (h : n < UInt64.size) :
    NumberText.significand 0 (digitsOf n) = (n, 0) := by
  induction n using Nat.strongRecOn with
  | ind n ih =>
    by_cases hn : n < 10
    · rw [digitsOf_of_lt hn, NumberText.significand, if_pos (by simpa using h)]
      simp [NumberText.significand]
    · rw [digitsOf_of_le (Nat.le_of_not_lt hn),
        significand_append _ (ih (n / 10) (by omega) (by omega)), NumberText.significand,
        if_pos (by omega), NumberText.significand]
      exact congrArg (·, 0) (by omega)

theorem lt_pow_two_of_lt {k m n : Nat} (hk : k < Nat.pow 2 m) (h : m < n) : k < Nat.pow 2 n :=
  Nat.lt_trans hk (Nat.pow_lt_pow_right Nat.one_lt_two h)

theorem roundToDouble_of_lt {n : Nat} (h : n < Nat.pow 2 53) : NumberText.roundToDouble n = n := by
  unfold NumberText.roundToDouble
  exact if_pos h

/-- An integer of no more than 53 bits is its own double. -/
theorem fits_integer {i : Int} (h : i.natAbs < Nat.pow 2 53) :
    NumberText.fits ⟨i < 0, digitsOf i.natAbs, [], none⟩ = true := by
  have hone : NumberText.roundToDouble (Nat.pow 10 0) = 1 := roundToDouble_of_lt (by decide)
  have hlarge := @lt_pow_two_of_lt i.natAbs 53 1024 h (by decide)
  have hproduct : NumberText.productFits i.natAbs 0 = true := by
    unfold NumberText.productFits
    rw [hone, roundToDouble_of_lt h, Nat.mul_one, roundToDouble_of_lt h]
    grind
  have hsize : i.natAbs < UInt64.size := Nat.lt_trans h (by decide)
  simp only [NumberText.fits, significand_digitsOf hsize, if_true, NumberText.significand]
  exact hproduct

end TextTunnel.Json
