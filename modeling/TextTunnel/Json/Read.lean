import TextTunnel.Json.Tree
import TextTunnel.Text.Digits

/-!
# Reading JSON

A reader for the JSON grammar that keeps the text as written. Blanks are the four characters space,
tab, line feed and carriage return. Numbers have no leading zeros and at least one digit wherever
digits may stand; strings hold no control characters, and their escapes are the eight letters and
four hexadecimal digits behind `u`.

* `Tree.ofString?` -- the one document of a text: blanks may surround it, and nothing else.

Values nest, so the readers of a value, of an array's items and of an object's members call each
other; a bound on the depth of these calls follows from the length of the text.
-/

namespace TextTunnel.Json

open TextTunnel.Text

/-! ## 1. Blanks and digits -/

/-- Whether a character is a blank. -/
def isBlank (c : Char) : Bool :=
  c = ' ' || c = '\t' || c = '\n' || c = '\r'

/-- Skips blanks. -/
def skipBlanks (cs : List Char) : List Char :=
  cs.dropWhile isBlank

/-- The digits at the front, as values, and what follows. -/
def takeDigits (cs : List Char) : List Nat × List Char :=
  ((cs.takeWhile isDigit).map (fun c => c.toNat - 48), cs.dropWhile isDigit)

/-- At least one digit, and what follows. -/
def someDigits? (cs : List Char) : Option (List Nat × List Char) :=
  match takeDigits cs with
  | ([], _) => none
  | r => some r

/-! ## 2. Numbers -/

/-- The digits in front of the point: a zero alone, or digits that start with another one. -/
def wholePart? (cs : List Char) : Option (List Nat × List Char) :=
  match someDigits? cs with
  | some (0 :: _ :: _, _) => none
  | r => r

/-- A point and the digits behind it, if there is a point. -/
def fractionPart? : List Char → Option (List Nat × List Char)
  | '.' :: cs => someDigits? cs
  | cs => some ([], cs)

/-- The sign in an exponent: whether it is a minus. -/
def exponentSign : List Char → Bool × List Char
  | '-' :: cs => (true, cs)
  | '+' :: cs => (false, cs)
  | cs => (false, cs)

/-- The sign and the digits of an exponent, behind its letter. -/
def exponentDigits? (cs : List Char) : Option (Option (Bool × List Nat) × List Char) := do
  let (negative, cs) := exponentSign cs
  let (ds, cs) ← someDigits? cs
  return (some (negative, ds), cs)

/-- An exponent, if there is one. -/
def exponentPart? : List Char → Option (Option (Bool × List Nat) × List Char)
  | 'e' :: cs => exponentDigits? cs
  | 'E' :: cs => exponentDigits? cs
  | cs => some (none, cs)

/-- A number behind its sign. -/
def unsigned? (negative : Bool) (cs : List Char) : Option (NumberText × List Char) := do
  let (whole, cs) ← wholePart? cs
  let (fraction, cs) ← fractionPart? cs
  let (exponent, cs) ← exponentPart? cs
  return (⟨negative, whole, fraction, exponent⟩, cs)

/-- A number. -/
def number? : List Char → Option (NumberText × List Char)
  | '-' :: cs => unsigned? true cs
  | cs => unsigned? false cs

/-! ## 3. Strings -/

/-- The character that a one-letter escape stands for. -/
def shortEscape? : Char → Option Char
  | '"' => some '"'
  | '\\' => some '\\'
  | '/' => some '/'
  | 'b' => some '\x08'
  | 'f' => some '\x0C'
  | 'n' => some '\n'
  | 'r' => some '\r'
  | 't' => some '\t'
  | _ => none

/-- The value of four hexadecimal digits. -/
def fourDigits? (a b c d : Char) : Option Nat := do
  let a ← hexValue? a
  let b ← hexValue? b
  let c ← hexValue? c
  let d ← hexValue? d
  return 4096 * a + 256 * b + 16 * c + d

/-- The elements of a string up to its closing quote, and what follows the quote. -/
def stringBody? : List Char → Option (List StringUnit × List Char)
  | [] => none
  | '"' :: cs => some ([], cs)
  | '\\' :: 'u' :: a :: b :: c :: d :: cs => do
    let n ← fourDigits? a b c d
    let (units, rest) ← stringBody? cs
    return (.code n :: units, rest)
  | '\\' :: e :: cs => do
    let c ← shortEscape? e
    let (units, rest) ← stringBody? cs
    return (.char c :: units, rest)
  | c :: cs =>
    if c = '\\' ∨ c.toNat < 0x20 then none
    else do
      let (units, rest) ← stringBody? cs
      return (.char c :: units, rest)

/-! ## 4. Documents -/

mutual

/-- A document at the front of the text, blanks before it skipped. -/
def value? : Nat → List Char → Option (Tree × List Char)
  | 0, _ => none
  | fuel + 1, cs =>
    match skipBlanks cs with
    | 'n' :: cs => (fun r => (.null, r)) <$> afterWord? ['u', 'l', 'l'] cs
    | 't' :: cs => (fun r => (.bool true, r)) <$> afterWord? ['r', 'u', 'e'] cs
    | 'f' :: cs => (fun r => (.bool false, r)) <$> afterWord? ['a', 'l', 's', 'e'] cs
    | '"' :: cs => (fun r => (.string r.1, r.2)) <$> stringBody? cs
    | '[' :: cs =>
      match skipBlanks cs with
      | ']' :: cs => some (.array [], cs)
      | cs => (fun r => (.array r.1, r.2)) <$> items? fuel cs
    | '\x7b' :: cs =>
      match skipBlanks cs with
      | '\x7d' :: cs => some (.object [], cs)
      | cs => (fun r => (.object r.1, r.2)) <$> members? fuel cs
    | cs => (fun r => (.number r.1, r.2)) <$> number? cs

/-- The items of an array from one of them on, with the closing bracket. -/
def items? : Nat → List Char → Option (List Tree × List Char)
  | 0, _ => none
  | fuel + 1, cs =>
    match value? fuel cs with
    | none => none
    | some (t, cs) =>
      match skipBlanks cs with
      | ']' :: cs => some ([t], cs)
      | ',' :: cs => (fun r => (t :: r.1, r.2)) <$> items? fuel cs
      | _ => none

/-- The members of an object from one of them on, with the closing brace. -/
def members? : Nat → List Char → Option (List (List StringUnit × Tree) × List Char)
  | 0, _ => none
  | fuel + 1, cs =>
    match skipBlanks cs with
    | '"' :: cs =>
      match stringBody? cs with
      | none => none
      | some (name, cs) =>
        match skipBlanks cs with
        | ':' :: cs =>
          match value? fuel cs with
          | none => none
          | some (t, cs) =>
            match skipBlanks cs with
            | '\x7d' :: cs => some ([(name, t)], cs)
            | ',' :: cs => (fun r => ((name, t) :: r.1, r.2)) <$> members? fuel cs
            | _ => none
        | _ => none
    | _ => none

end

/-- The document that makes up a whole text. -/
def Tree.ofChars? (cs : List Char) : Option Tree :=
  match value? (2 * cs.length + 2) cs with
  | some (t, rest) => if (skipBlanks rest).isEmpty then some t else none
  | none => none

/-- The document that makes up a whole text. -/
def Tree.ofString? (s : String) : Option Tree :=
  Tree.ofChars? s.toList

end TextTunnel.Json
