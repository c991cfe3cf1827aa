import TextTunnel.Toml.Value
import TextTunnel.Toml.Text

/-!
# Numbers and dates in TOML

A value that starts with a sign or a digit is a date or time if it can be read as one, else a float,
else an integer. Underscores may stand between digits.

* `numeric?` -- the three of them.
* `integer?` -- decimal with a sign, or hexadecimal, octal or binary without; 64 bits.
* `afterFloat?` -- with a fraction, an exponent or both, or one of the words `inf` and `nan`. A
  positive number that exceeds every double is refused.
-/

namespace TextTunnel.Toml

open TextTunnel.Text

/-! ## 1. Dates and times -/

/-- A number of exactly so many digits. -/
def fixedDigits? (width : Nat) (cs : List Char) : Option (Nat × List Char) :=
  let ds := (cs.take width).takeWhile isDigit
  if ds.length = width then some (decimal ds, cs.drop width) else none

/-- What follows a given character. -/
def after? (c : Char) : List Char → Option (List Char)
  | d :: cs => if c = d then some cs else none
  | [] => none

/-- The number of days in a month. -/
def daysIn (year month : Nat) : Nat :=
  if month = 2 then
    (if year % 4 = 0 ∧ (year % 100 ≠ 0 ∨ year % 400 = 0) then 29 else 28)
  else if month = 4 ∨ month = 6 ∨ month = 9 ∨ month = 11 then 30
  else 31

/-- What follows a date. -/
def afterDate? (cs : List Char) : Option (List Char) := do
  let (year, cs) ← fixedDigits? 4 cs
  let cs ← after? '-' cs
  let (month, cs) ← fixedDigits? 2 cs
  let cs ← after? '-' cs
  let (day, cs) ← fixedDigits? 2 cs
  if 1 ≤ month ∧ month ≤ 12 ∧ 1 ≤ day ∧ day ≤ daysIn year month then some cs else none

/-- What follows hours and minutes. -/
def afterMinutes? (cs : List Char) : Option (List Char) := do
  let (hour, cs) ← fixedDigits? 2 cs
  let cs ← after? ':' cs
  let (minute, cs) ← fixedDigits? 2 cs
  if hour < 24 ∧ minute < 60 then some cs else none

/-- What follows the fraction of a second, if there is one. -/
def afterFraction? : List Char → Option (List Char)
  | '.' :: cs => if (cs.takeWhile isDigit).isEmpty then none else some (cs.dropWhile isDigit)
  | cs => some cs

/-- What follows a time. A minute may have a leap second. -/
def afterTime? (cs : List Char) : Option (List Char) := do
  let cs ← afterMinutes? cs
  let cs ← after? ':' cs
  let (second, cs) ← fixedDigits? 2 cs
  if second ≤ 60 then afterFraction? cs else none

/-- What follows an offset, if there is one. -/
def afterOffset : List Char → List Char
  | 'Z' :: cs => cs
  | 'z' :: cs => cs
  | '+' :: cs => (afterMinutes? cs).getD ('+' :: cs)
  | '-' :: cs => (afterMinutes? cs).getD ('-' :: cs)
  | cs => cs

/-- What follows the time behind a date, if there is one. -/
def afterDateTime (cs : List Char) : List Char :=
  match cs with
  | c :: rest =>
    if c = 'T' ∨ c = 't' ∨ c = ' ' then
      match afterTime? rest with
      | some rest => afterOffset rest
      | none => cs
    else cs
  | [] => []

/-- What follows a date, a time, or both. -/
def afterMoment? (cs : List Char) : Option (List Char) :=
  match afterDate? cs with
  | some cs => some (afterDateTime cs)
  | none => afterTime? cs

/-! ## 2. Digits with underscores -/

/-- The digits at the front, of which `isMember` says which they are; a single underscore may stand
between two of them. -/
def groupedFrom? (isMember : Char → Bool) : List Char → List Char → Option (List Char × List Char)
  | done, '_' :: c :: cs =>
    if isMember c then groupedFrom? isMember (c :: done) cs else none
  | done, c :: cs =>
    if isMember c then groupedFrom? isMember (c :: done) cs
    else if c = '_' then none
    else some (done.reverse, c :: cs)
  | done, [] => some (done.reverse, [])

/-- At least one digit. -/
def grouped? (isMember : Char → Bool) : List Char → Option (List Char × List Char)
  | c :: cs => if isMember c then groupedFrom? isMember [c] cs else none
  | [] => none

/-- Decimal digits without a leading zero. -/
def wholeDigits? : List Char → Option (List Char × List Char)
  | '0' :: cs => some (['0'], cs)
  | cs => grouped? isDigit cs

/-- A sign: whether it is a minus. -/
def sign : List Char → Bool × List Char
  | '-' :: cs => (true, cs)
  | '+' :: cs => (false, cs)
  | cs => (false, cs)

/-! ## 3. Floats -/

/-- The digits of a fraction, if there is a point. -/
def fractionDigits? : List Char → Option (List Char × List Char)
  | '.' :: cs => grouped? isDigit cs
  | cs => some ([], cs)

/-- The value of an exponent, if there is one. -/
def exponent? : List Char → Option (Option Int × List Char)
  | c :: cs =>
    if c = 'e' ∨ c = 'E' then do
      let (negative, cs) := sign cs
      let (ds, cs) ← grouped? isDigit cs
      let n : Int := decimal ds
      return (some (if negative then -n else n), cs)
    else some (none, c :: cs)
  | [] => some (none, [])

/-- The least number that rounds to infinity: half a unit above the largest double. -/
def doubleOverflow : Nat := Nat.pow 2 1024 - Nat.pow 2 970

/-- Whether digits times a power of ten exceed every double. The number of digits decides, unless
it is close. -/
def overflows (digits : List Char) (exponent : Int) : Bool :=
  let digits := digits.dropWhile (· == '0')
  let magnitude := exponent + digits.length
  if digits.isEmpty ∨ magnitude < 300 then false
  else if 320 < magnitude then true
  else if 0 ≤ exponent then doubleOverflow ≤ decimal digits * Nat.pow 10 exponent.toNat
  else doubleOverflow * Nat.pow 10 (-exponent).toNat ≤ decimal digits

/-- What follows one of the words for infinity and for no number. -/
def afterFloatWord? : List Char → Option (List Char)
  | 'i' :: 'n' :: 'f' :: cs => some cs
  | 'n' :: 'a' :: 'n' :: cs => some cs
  | _ => none

/-- What follows a float in digits. -/
def afterFloatDigits? (negative : Bool) (cs : List Char) : Option (List Char) := do
  let (whole, cs) ← wholeDigits? cs
  let (fraction, cs) ← fractionDigits? cs
  let (exponent, cs) ← exponent? cs
  if fraction.isEmpty ∧ exponent.isNone then none
  else if !negative && overflows (whole ++ fraction) (exponent.getD 0 - fraction.length) then none
  else some cs

/-- What follows a float. -/
def afterFloat? (cs : List Char) : Option (List Char) :=
  let (negative, cs) := sign cs
  match afterFloatWord? cs with
  | some cs => some cs
  | none => afterFloatDigits? negative cs

/-! ## 4. Integers -/

/-- The least number over the range of signed 64-bit integers. -/
def integerBound : Nat := 0x8000000000000000

/-- The number that digits of a base denote. -/
def inBase (base : Nat) (cs : List Char) : Nat :=
  cs.foldl (fun n c => base * n + (hexValue? c).getD 0) 0

/-- A number of another base, behind the letter that announces it. -/
def otherBase? (base : Nat) (cs : List Char) : Option (Int × List Char) := do
  let isMember := fun c => match hexValue? c with
    | some d => d < base
    | none => false
  let (ds, cs) ← grouped? isMember cs
  let n := inBase base ds
  if n < integerBound then some ((n : Int), cs) else none

/-- An integer of 64 bits. -/
def integer? : List Char → Option (Int × List Char)
  | '0' :: 'x' :: cs => otherBase? 16 cs
  | '0' :: 'o' :: cs => otherBase? 8 cs
  | '0' :: 'b' :: cs => otherBase? 2 cs
  | cs => do
    let (negative, cs) := sign cs
    let (ds, cs) ← wholeDigits? cs
    let n : Int := if negative then -(decimal ds : Int) else decimal ds
    if -integerBound ≤ n ∧ n < integerBound then some (n, cs) else none

/-! ## 5. All of them -/

/-- The text that was read when `rest` is left of `cs`. -/
def readText (cs rest : List Char) : String :=
  String.ofList (cs.take (cs.length - rest.length))

/-- A date or time, a float, or an integer. -/
def numeric? (cs : List Char) : Option (Value × List Char) :=
  match afterMoment? cs with
  | some rest => some (.datetime (readText cs rest), rest)
  | none =>
    match afterFloat? cs with
    | some rest => some (.float (readText cs rest), rest)
    | none => (fun r => (.integer r.1, r.2)) <$> integer? cs

end TextTunnel.Toml
