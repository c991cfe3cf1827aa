import TextTunnel.Json.Tree

/-!
# Writing JSON

The compact form: no blanks, and in strings only what has to be escaped -- the quote, the backslash
and the control characters, the latter by a letter where there is one and else by number.
-/

namespace TextTunnel.Json

/-- An escape by number: four hexadecimal digits in lower case. -/
def codeEscape (n : Nat) : List Char :=
  ['\\', 'u', Nat.digitChar (n / 4096 % 16), Nat.digitChar (n / 256 % 16),
    Nat.digitChar (n / 16 % 16), Nat.digitChar (n % 16)]

/-- One character of a string. -/
def escapedChar (c : Char) : List Char :=
  if c = '"' then ['\\', '"']
  else if c = '\\' then ['\\', '\\']
  else if c = '\x08' then ['\\', 'b']
  else if c = '\x0C' then ['\\', 'f']
  else if c = '\n' then ['\\', 'n']
  else if c = '\r' then ['\\', 'r']
  else if c = '\t' then ['\\', 't']
  else if c.toNat < 0x20 then codeEscape c.toNat
  else [c]

/-- One element of a string. -/
def unitChars : StringUnit → List Char
  | .char c => escapedChar c
  | .code n => codeEscape n

/-- A string with its quotes. -/
def stringChars (units : List StringUnit) : List Char :=
  '"' :: units.flatMap unitChars ++ ['"']

/-- A row of decimal digits. -/
def digitChars (ds : List Nat) : List Char :=
  ds.map Nat.digitChar

/-- A number. -/
def numberChars (n : NumberText) : List Char :=
  (if n.negative then ['-'] else [])
    ++ digitChars n.whole
    ++ (if n.fraction.isEmpty then [] else '.' :: digitChars n.fraction)
    ++ (match n.exponent with
        | none => []
        | some (negative, ds) => 'e' :: (if negative then ['-'] else []) ++ digitChars ds)

mutual

/-- The compact form of a document. -/
def Tree.chars : Tree → List Char
  | .null => ['n', 'u', 'l', 'l']
  | .bool true => ['t', 'r', 'u', 'e']
  | .bool false => ['f', 'a', 'l', 's', 'e']
  | .number n => numberChars n
  | .string units => stringChars units
  | .array items => '[' :: itemsChars items ++ [']']
  | .object members => '\x7b' :: membersChars members ++ ['\x7d']

/-- The items of an array, with commas between them. -/
def itemsChars : List Tree → List Char
  | [] => []
  | [t] => t.chars
  | t :: ts => t.chars ++ ',' :: itemsChars ts

/-- The members of an object, with commas between them. -/
def membersChars : List (List StringUnit × Tree) → List Char
  | [] => []
  | [(name, t)] => stringChars name ++ ':' :: t.chars
  | (name, t) :: ms => stringChars name ++ ':' :: t.chars ++ ',' :: membersChars ms

end

/-- The compact text of a document. -/
def Tree.compact (t : Tree) : String :=
  String.ofList t.chars

end TextTunnel.Json
