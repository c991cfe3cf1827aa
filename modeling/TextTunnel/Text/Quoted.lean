import TextTunnel.Text.Hidden

/-!
# Quoted text

Messages show foreign text between quotes, with every character that a reader could not see or
could mistake written as an escape.

* `quotedChar` -- one character between single quotes.
* `quotedString` -- a text between double quotes.

The two kinds differ in one point only: each escapes its own quote and leaves the other alone.
-/

namespace TextTunnel.Text

/-- A number in lowercase hexadecimal, without leading zeros. -/
def hexNumber (n : Nat) : List Char :=
  Nat.toDigits 16 n

/-- One character inside quotes of the given kind. -/
def escapeChar (quote c : Char) : List Char :=
  if c = '\x00' then ['\\', '0']
  else if c = '\t' then ['\\', 't']
  else if c = '\n' then ['\\', 'n']
  else if c = '\r' then ['\\', 'r']
  else if c = '\\' ∨ c = quote then ['\\', c]
  else if isHidden c then ['\\', 'u', '\x7b'] ++ hexNumber c.toNat ++ ['\x7d']
  else [c]

/-- A character between single quotes. -/
def quotedChar (c : Char) : String :=
  String.ofList ('\'' :: escapeChar '\'' c ++ ['\''])

/-- A text between double quotes. -/
def quotedString (s : String) : String :=
  String.ofList ('"' :: s.toList.flatMap (escapeChar '"') ++ ['"'])

end TextTunnel.Text
