import Std.Data.HashMap
import TextTunnel.Gzip.Alphabet

/-!
# Finding repetitions

The first half of compression: a byte string becomes a row of tokens, each a byte or the copy of an
earlier stretch. At each place the longest earlier stretch is looked for among the latest places
with the same three bytes; if the next place offers a longer one, this place gives a byte.

* `tokenize` -- the tokens of a byte string.
-/

namespace TextTunnel.Gzip

/-- A byte, or a copy of output that is already there. -/
inductive Token where
  | byte (b : UInt8)
  | copy (length distance : Nat)

/-- The shortest copy. -/
def minCopy : Nat := 3

/-- The longest copy. -/
def maxCopy : Nat := 258

/-- How far back a copy reaches. -/
def maxDistance : Nat := 32768

/-- How many earlier places are tried. -/
def maxTries : Nat := 64

/-- The earlier places by the three bytes that stand there, the latest first. -/
abbrev PlaceIndex := Std.HashMap Nat (List Nat)

/-- The three bytes at a place as one number. -/
def keyAt (data : Array UInt8) (i : Nat) : Nat :=
  65536 * (data.getD i 0).toNat + 256 * (data.getD (i + 1) 0).toNat + (data.getD (i + 2) 0).toNat

/-- Adds a place to the index. -/
def addPlace (data : Array UInt8) (index : PlaceIndex) (i : Nat) : PlaceIndex :=
  let key := keyAt data i
  index.insert key (i :: (index.getD key []).take maxTries)

/-- How many bytes from two places on agree, up to a bound. -/
def agreement (data : Array UInt8) (i j : Nat) : Nat → Nat → Nat
  | 0, n => n
  | room + 1, n =>
    if data.getD (i + n) 0 = data.getD (j + n) 0 then agreement data i j room (n + 1) else n

/-- The longest copy that the index offers for a place: its length and distance. -/
def longestCopy (data : Array UInt8) (index : PlaceIndex) (i : Nat) : Nat × Nat :=
  let room := min maxCopy (data.size - i)
  if room < minCopy then (0, 0)
  else
    (index.getD (keyAt data i) []).foldl
      (fun best j =>
        if i - j ≤ maxDistance then
          let n := agreement data j i room 0
          if best.1 < n then (n, i - j) else best
        else best)
      (0, 0)

/-- Adds `n` places to the index. -/
def addPlaces (data : Array UInt8) : Nat → Nat → PlaceIndex → PlaceIndex
  | 0, _, index => index
  | n + 1, i, index => addPlaces data n (i + 1) (addPlace data index i)

/-- The tokens from a place on, behind those that are there, the latest first. -/
def tokenizeFrom (data : Array UInt8) : Nat → Nat → PlaceIndex → List Token → List Token
  | 0, _, _, done => done.reverse
  | fuel + 1, i, index, done =>
    if data.size ≤ i then done.reverse
    else
      let (length, distance) := longestCopy data index i
      let index' := addPlace data index i
      if length < minCopy ∨ length < (longestCopy data index' (i + 1)).1 then
        tokenizeFrom data fuel (i + 1) index' (.byte (data.getD i 0) :: done)
      else
        let index' := addPlaces data (length - 1) (i + 1) index'
        tokenizeFrom data fuel (i + length) index' (.copy length distance :: done)

/-- The tokens of a byte string. -/
def tokenize (bs : Bytes) : List Token :=
  let data := bs.toArray
  tokenizeFrom data data.size 0 ∅ []

end TextTunnel.Gzip
