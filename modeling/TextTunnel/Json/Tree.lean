/-!
# JSON documents as written

A document is kept as it was written: strings with their escapes by number, numbers as their digits.
What a text means is decided only where a value is wanted, because a reader that skips a part of a
document looks at its syntax alone, while a reader that keeps the part has to be able to represent
it.

* `Tree` -- a document.
* `Tree.text?` -- a string's characters: numbered escapes above U+FFFF come in surrogate pairs, and a
  surrogate that is no half of a pair has no character.
* `NumberText.integer?` -- the integers: digits alone, minus zero excluded.
* `Tree.representable` -- whether a whole part could be kept: every string has its characters, every
  number fits a double, and the nesting is within a limit.
-/

namespace TextTunnel.Json

/-! ## 1. The written form -/

/-- One element of a string. -/
inductive StringUnit where
  /-- A character that stands for itself, or its short escape. -/
  | char (c : Char)
  /-- An escape by number: sixteen bits. -/
  | code (n : Nat)
  deriving DecidableEq

/-- A number in digits. -/
structure NumberText where
  negative : Bool
  whole : List Nat
  /-- Digits behind the point; none if there is no point. -/
  fraction : List Nat
  /-- Whether the exponent is negative, and its digits. -/
  exponent : Option (Bool × List Nat)

/-- A document. The members of an object keep their order and may repeat. -/
inductive Tree where
  | null
  | bool (b : Bool)
  | number (n : NumberText)
  | string (units : List StringUnit)
  | array (items : List Tree)
  | object (members : List (List StringUnit × Tree))

/-! ## 2. Strings -/

/-- Whether a numbered escape is the first half of a pair. -/
def isHighSurrogate (n : Nat) : Bool := 0xD800 ≤ n && n < 0xDC00

/-- Whether a numbered escape is the second half of a pair. -/
def isLowSurrogate (n : Nat) : Bool := 0xDC00 ≤ n && n < 0xE000

/-- The character that a surrogate pair stands for. -/
def pairedChar (high low : Nat) : Char :=
  Char.ofNat (0x10000 + (high - 0xD800) * 0x400 + (low - 0xDC00))

/-- The characters of a string, if each of its escapes has one. -/
def charsOf? : List StringUnit → Option (List Char)
  | [] => some []
  | .char c :: rest => (c :: ·) <$> charsOf? rest
  | .code n :: rest =>
    if isHighSurrogate n then
      match rest with
      | .code m :: rest =>
        if isLowSurrogate m then (pairedChar n m :: ·) <$> charsOf? rest else none
      | _ => none
    else if isLowSurrogate n then none
    else (Char.ofNat n :: ·) <$> charsOf? rest

/-- The text of a string's elements. -/
def textOf? (units : List StringUnit) : Option String :=
  String.ofList <$> charsOf? units

/-- A text as string elements, each character for itself. -/
def unitsOf (s : String) : List StringUnit :=
  s.toList.map .char

theorem charsOf?_map_char (cs : List Char) : charsOf? (cs.map .char) = some cs := by
  induction cs with
  | nil => rfl
  | cons c cs ih => simp [charsOf?, ih]

@[simp] theorem textOf?_unitsOf (s : String) : textOf? (unitsOf s) = some s := by
  simp [textOf?, unitsOf, charsOf?_map_char]

/-! ## 3. Numbers -/

namespace NumberText

/-- The number that a row of decimal digits denotes. -/
def ofDigits (ds : List Nat) : Nat :=
  ds.foldl (fun n d => 10 * n + d) 0

/-- The value of a number written as an integer. Minus zero is a fraction. -/
def integer? (n : NumberText) : Option Int :=
  if n.fraction.isEmpty ∧ n.exponent.isNone then
    let m := ofDigits n.whole
    if n.negative then (if m = 0 then none else some (-(m : Int))) else some m
  else
    none

/-- The leading digits that fit in 64 bits, and how many digits did not. -/
def significand : Nat → List Nat → Nat × Nat
  | acc, [] => (acc, 0)
  | acc, d :: ds => if 10 * acc + d < UInt64.size then significand (10 * acc + d) ds
    else (acc, ds.length + 1)

/-- A natural number rounded to 53 significant bits, halves to the even neighbour. -/
def roundToDouble (n : Nat) : Nat :=
  if n < Nat.pow 2 53 then n
  else
    let unit := Nat.pow 2 (n.log2 - 52)
    let q := n / unit
    let r := n % unit
    if 2 * r < unit ∨ (2 * r = unit ∧ q % 2 = 0) then q * unit else (q + 1) * unit

/-- Whether a significand times a power of ten stays below the largest double's upper neighbour.
Both factors are rounded first, and then their product. -/
def productFits (significand exponent : Nat) : Bool :=
  significand == 0 ||
    (exponent ≤ 308 &&
      roundToDouble (roundToDouble significand * roundToDouble (Nat.pow 10 exponent)) < Nat.pow 2 1024)

/-- The largest written exponent that is read digit by digit. -/
def maxExponent : Nat := 0x7FFFFFFF

/-- Whether a number can be kept as a 64-bit integer or a double. Digits that do not fit in 64 bits
only count for the magnitude. -/
def fits (n : NumberText) : Bool :=
  let (kept, cut) := significand 0 n.whole
  let (sig, cutFraction) := if cut = 0 then significand kept n.fraction else (kept, n.fraction.length)
  let shift : Int := cut - ((n.fraction.length - cutFraction : Nat) : Int)
  match n.exponent with
  | none => productFits sig shift.toNat
  | some (true, ds) => productFits sig (shift - ofDigits ds).toNat
  | some (false, ds) =>
    sig == 0 || (ofDigits ds ≤ maxExponent && productFits sig (shift + ofDigits ds).toNat)

end NumberText

/-! ## 4. What can be kept -/

mutual

/-- Whether a document can be kept when `room` more levels of nesting are allowed. -/
def Tree.representable (room : Nat) : Tree → Bool
  | .null => true
  | .bool _ => true
  | .number n => n.fits
  | .string units => (charsOf? units).isSome
  | .array items => room != 0 && itemsRepresentable (room - 1) items
  | .object members => room != 0 && membersRepresentable (room - 1) members

/-- Whether every item of an array can be kept. -/
def itemsRepresentable (room : Nat) : List Tree → Bool
  | [] => true
  | t :: ts => t.representable room && itemsRepresentable room ts

/-- Whether every member of an object can be kept, its name included. -/
def membersRepresentable (room : Nat) : List (List StringUnit × Tree) → Bool
  | [] => true
  | (name, t) :: ms =>
    (charsOf? name).isSome && t.representable room && membersRepresentable room ms

end

namespace Tree

/-- The text of a document that is a string. -/
def text? : Tree → Option String
  | .string units => textOf? units
  | _ => none

/-- The value of a document that is an integer. -/
def integer? : Tree → Option Int
  | .number n => n.integer?
  | _ => none

/-- The value of a document that is a truth value. -/
def bool? : Tree → Option Bool
  | .bool b => some b
  | _ => none

/-- A text as a document. -/
def ofText (s : String) : Tree :=
  .string (unitsOf s)

/-- The decimal digits of a number, most significant first. -/
def digitsOf (n : Nat) : List Nat :=
  (Nat.toDigits 10 n).map fun c => c.toNat - 48

/-- An integer as a document. -/
def ofInteger (i : Int) : Tree :=
  .number ⟨i < 0, digitsOf i.natAbs, [], none⟩

end Tree

end TextTunnel.Json
