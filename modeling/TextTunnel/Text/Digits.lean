/-!
# Digits and words

What the readers of all text formats share: which characters are digits, what digits denote, and
whether a word stands in front.

* `isDigit`, `decimal` -- decimal digits, and the number that a row of them denotes.
* `hexValue?` -- hexadecimal digits of either case. `Nat.digitChar` writes them in lower case, and
  `hexValue?_digitChar` says that they come back.
* `afterWord?` -- what follows a word.
-/

namespace TextTunnel.Text

/-- Whether a character is a decimal digit. -/
def isDigit (c : Char) : Bool :=
  '0' ≤ c && c ≤ '9'

/-- The number that decimal digits denote. -/
def decimal (cs : List Char) : Nat :=
  cs.foldl (fun n c => 10 * n + (c.toNat - 48)) 0

/-- The value of a hexadecimal digit of either case. -/
def hexValue? (c : Char) : Option Nat :=
  if isDigit c then some (c.toNat - 48)
  else if 'a' ≤ c ∧ c ≤ 'f' then some (c.toNat - 87)
  else if 'A' ≤ c ∧ c ≤ 'F' then some (c.toNat - 55)
  else none

/-- What follows a given word. -/
def afterWord? (word cs : List Char) : Option (List Char) :=
  if word.isPrefixOf cs then some (cs.drop word.length) else none

theorem isDigit_digitChar {d : Nat} (h : d < 10) : isDigit (Nat.digitChar d) = true := by
  have key : ∀ i : Fin 10, isDigit (Nat.digitChar i.val) = true := by decide
  exact key ⟨d, h⟩

theorem hexValue?_digitChar {n : Nat} (h : n < 16) : hexValue? (Nat.digitChar n) = some n := by
  have key : ∀ i : Fin 16, hexValue? (Nat.digitChar i.val) = some i.val := by decide
  exact key ⟨n, h⟩

theorem afterWord?_append (word cs : List Char) : afterWord? word (word ++ cs) = some cs := by
  simp [afterWord?]

end TextTunnel.Text
