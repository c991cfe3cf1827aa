import TextTunnel.Bytes

/-!
# Unique ids

A participant's stable identity is a UUID: sixteen bytes, shown as hexadecimal digits in groups of
8, 4, 4, 4 and 12.

* `Uuid.toString` -- the hyphenated lowercase form.
* `Uuid.ofString?` -- reads that form in either case, bare, in braces or behind `urn:uuid:`, and the
  thirty-two digits without hyphens.
-/

namespace TextTunnel

/-- Sixteen bytes. -/
structure Uuid where
  bytes : Bytes
  length_eq : bytes.length = 16
  deriving DecidableEq

namespace Uuid

/-- Sixteen bytes as an id. -/
def ofBytes? (bs : Bytes) : Option Uuid :=
  if h : bs.length = 16 then some ⟨bs, h⟩ else none

/-- Puts a hyphen behind the 4th, 6th, 8th and 10th byte. -/
def hyphenated (bs : Bytes) : List Char :=
  Bytes.hexChars (bs.take 4) ++ '-' :: Bytes.hexChars ((bs.drop 4).take 2)
    ++ '-' :: Bytes.hexChars ((bs.drop 6).take 2) ++ '-' :: Bytes.hexChars ((bs.drop 8).take 2)
    ++ '-' :: Bytes.hexChars (bs.drop 10)

/-- The usual form of an id. -/
protected def toString (u : Uuid) : String :=
  String.ofList (hyphenated u.bytes)

instance : ToString Uuid := ⟨Uuid.toString⟩

/-- The digits of hyphenated text, provided the hyphens stand where they belong. -/
def withoutHyphens? (cs : List Char) : Option (List Char) :=
  if cs.length = 36 ∧ [8, 13, 18, 23].all (fun i => cs[i]? == some '-') then
    some (cs.take 8 ++ (cs.drop 9).take 4 ++ (cs.drop 14).take 4 ++ (cs.drop 19).take 4 ++ cs.drop 24)
  else
    none

/-- Reads thirty-two hexadecimal digits. -/
def ofDigits? (cs : List Char) : Option Uuid := do
  let bs ← Bytes.ofHexChars? cs
  ofBytes? bs

/-- Reads a hyphenated id. -/
def ofHyphenated? (cs : List Char) : Option Uuid := do
  let digits ← withoutHyphens? cs
  ofDigits? digits

/-- The text in front of an id that is written as a resource name. -/
def resourceLabel : List Char := "urn:uuid:".toList

/-- Reads any of the accepted forms; the length tells which one it is. -/
def ofChars? (cs : List Char) : Option Uuid :=
  match cs.length with
  | 32 => ofDigits? cs
  | 36 => ofHyphenated? cs
  | 38 =>
    if cs.head? = some '\x7b' ∧ cs.getLast? = some '\x7d' then ofHyphenated? (cs.drop 1).dropLast
    else none
  | 45 => if resourceLabel.isPrefixOf cs then ofHyphenated? (cs.drop 9) else none
  | _ => none

/-- Reads an id in any of the accepted forms. -/
def ofString? (s : String) : Option Uuid :=
  ofChars? s.toList

end Uuid

end TextTunnel
