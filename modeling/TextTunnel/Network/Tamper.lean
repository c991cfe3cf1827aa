import TextTunnel.Envelope
import TextTunnel.Relay.Message
import TextTunnel.SafeText

/-!
# Captured messages

A message that was taken on its way can be looked at, changed, and shown to anybody.

* `Sketch.ofText` -- what can be told of a text without a key.
* `Tamper.apply` -- a captured text with blocks reordered or left out, cut, or extended.
-/

namespace TextTunnel

/-- The text before the header where it occurs first, and the text behind it. -/
def splitAtHeader : List Char → Option (List Char × List Char)
  | [] => none
  | c :: cs =>
    if Wire.envelopeHeader.toList.isPrefixOf (c :: cs) then
      some ([], (c :: cs).drop Wire.envelopeHeader.length)
    else (splitAtHeader cs).map fun (before, payload) => (c :: before, payload)

/-- What can be told of a text without a key. -/
inductive Sketch where
  /-- An envelope with at least one whole block. -/
  | envelope (before : String) (chars chunks rest : Nat)
  /-- Anything else. -/
  | text (text : String)
  deriving DecidableEq, Repr

/-- What can be told of a text without a key: whether it has a header with at least one block behind
it, what stands before the header, how many characters there are in all, and how many whole blocks
and single bytes there are in the payload. -/
def Sketch.ofText (text : String) : Sketch :=
  match splitAtHeader text.toList with
  | none => .text text
  | some (before, payload) =>
    match SafeText.decode (String.ofList payload) with
    | .error _ => .text text
    | .ok cipher =>
      if cipher.length < Wire.ciphertextChunkLen then .text text
      else
        .envelope (String.ofList before) text.length (cipher.length / Wire.ciphertextChunkLen)
          (cipher.length % Wire.ciphertextChunkLen)

/-- Changes to a captured text. -/
structure Tamper where
  /-- The blocks to keep, in this order. -/
  blocks : Option (List Nat) := none
  /-- Bytes to put behind the blocks. -/
  moreBytes : Option Bytes := none
  /-- How many characters to keep. -/
  keepChars : Option Nat := none
  behind : String := ""
  before : String := ""

namespace Tamper

/-- Changes the bytes of a ciphertext. -/
def applyToCipher (t : Tamper) (cipher : Bytes) : Bytes :=
  let kept := match t.blocks with
    | none => cipher
    | some ns => (ns.filterMap fun n => (Envelope.cipherBlocks cipher)[n]?).flatten
  kept ++ t.moreBytes.getD []

/-- Changes the payload of an envelope, if there is one. -/
def applyToEnvelope (t : Tamper) (text : String) : String :=
  match splitAtHeader text.toList with
  | none => text
  | some (_, payload) =>
    match SafeText.decode (String.ofList payload) with
    | .error _ => text
    | .ok cipher => Wire.envelopeHeader ++ SafeText.encode (t.applyToCipher cipher)

/-- Makes the changes: first those to the payload, then the cut, then what is added. -/
def apply (t : Tamper) (text : String) : String :=
  let text := if t.blocks.isSome || t.moreBytes.isSome then t.applyToEnvelope text else text
  let text := match t.keepChars with
    | none => text
    | some n => String.ofList (text.toList.take n)
  t.before ++ text ++ t.behind

end Tamper

end TextTunnel
