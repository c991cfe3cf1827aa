import TextTunnel.Gzip.Lengths
import TextTunnel.Gzip.Member
import TextTunnel.Gzip.Tokens

/-!
# Deflating

A byte string is compressed in three ways -- its tokens with the fixed codes, its tokens with codes
of their own, and stored as it is -- and the shortest is taken.

**Nothing is lost.** A coded form is only used after it has been decompressed again and compared;
otherwise the bytes are stored. So `compress` rests on the stored form alone.

* `deflate` -- compressed data.
* `compress` -- a gzip member around it, without a name and with no time.
* `Compressor` -- whoever writes members; `Compressor.inMemory` is the one above.
-/

namespace TextTunnel.Gzip

/-! ## 1. Tokens as symbols -/

/-- The symbol of a value in a row of ranges, the number of extra bits and their value. -/
def rangeOf (ranges : Array (Nat × Nat)) (value : Nat) : Nat × Nat × Nat :=
  let symbol := (ranges.toList.takeWhile fun p => p.1 ≤ value).length - 1
  let (base, extra) := ranges.getD symbol (0, 0)
  (symbol, extra, value - base)

/-- How often each byte, the end and each copy length occur. -/
def literalCounts (tokens : List Token) : List Nat :=
  let counts := tokens.foldl
    (fun (cs : Array Nat) t =>
      match t with
      | .byte b => cs.modify b.toNat (· + 1)
      | .copy length _ => cs.modify (257 + (rangeOf lengthRanges length).1) (· + 1))
    (Array.replicate maxLiterals 0)
  (counts.modify endOfBlock (· + 1)).toList

/-- How often each copy distance occurs. -/
def distanceCounts (tokens : List Token) : List Nat :=
  (tokens.foldl
    (fun (cs : Array Nat) t =>
      match t with
      | .byte _ => cs
      | .copy _ distance => cs.modify (rangeOf distanceRanges distance).1 (· + 1))
    (Array.replicate maxDistances 0)).toList

/-! ## 2. Coded blocks -/

/-- The rows of a code by symbol. -/
def wordTable (lengths : List Nat) : Array (List Bool) :=
  (codeWords lengths).foldl (fun t w => t.setIfInBounds w.1 w.2) (Array.replicate lengths.length [])

/-- The bits of one token. -/
def tokenBits (literals distances : Array (List Bool)) : Token → List Bool
  | .byte b => literals.getD b.toNat []
  | .copy length distance =>
    let (ls, le, lv) := rangeOf lengthRanges length
    let (ds, de, dv) := rangeOf distanceRanges distance
    literals.getD (257 + ls) [] ++ numberBits le lv ++ distances.getD ds [] ++ numberBits de dv

/-- The bits of all tokens and the end of the block. -/
def bodyBits (literals distances : List Nat) (tokens : List Token) : List Bool :=
  let ls := wordTable literals
  let ds := wordTable distances
  tokens.flatMap (tokenBits ls ds) ++ ls.getD endOfBlock []

/-- One block with the fixed codes. -/
def fixedBlock (tokens : List Token) : List Bool :=
  true :: numberBits 2 1 ++ bodyBits fixedLiterals fixedDistances tokens

/-! ## 3. Blocks with codes of their own -/

/-- A symbol of the code for code lengths, with its extra bits. -/
structure LengthSymbol where
  symbol : Nat
  extra : List Bool

/-- Symbols for `n` zeros. -/
def zeroRun : Nat → Nat → List LengthSymbol
  | 0, _ => []
  | fuel + 1, n =>
    if n = 0 then []
    else if n < 3 then ⟨0, []⟩ :: zeroRun fuel (n - 1)
    else if n < 11 then [⟨17, numberBits 3 (n - 3)⟩]
    else
      let k := min n 138
      ⟨18, numberBits 7 (k - 11)⟩ :: zeroRun fuel (n - k)

/-- Symbols for `n` repetitions of the length before them. -/
def sameRun (l : Nat) : Nat → Nat → List LengthSymbol
  | 0, _ => []
  | fuel + 1, n =>
    if n = 0 then []
    else if n < 3 then ⟨l, []⟩ :: sameRun l fuel (n - 1)
    else
      let k := min n 6
      ⟨16, numberBits 2 (k - 3)⟩ :: sameRun l fuel (n - k)

/-- The symbols for a list of code lengths. -/
def lengthSymbols : Nat → List Nat → List LengthSymbol
  | 0, _ => []
  | _, [] => []
  | fuel + 1, l :: ls =>
    let n := (ls.takeWhile (· == l)).length
    let rest := ls.drop n
    (if l = 0 then zeroRun (n + 1) (n + 1) else ⟨l, []⟩ :: sameRun l n n) ++ lengthSymbols fuel rest

/-- A list without the zeros at its end, but with at least `least` elements. -/
def trimmed (least : Nat) (ls : List Nat) : List Nat :=
  ls.take (max least (ls.length - (ls.reverse.takeWhile (· == 0)).length))

/-- One block with codes made for its tokens. -/
def ownCodesBlock (tokens : List Token) : List Bool :=
  let literals := trimmed 257 (chooseLengths maxCodeLength (literalCounts tokens))
  let distances := trimmed 1 (chooseLengths maxCodeLength (distanceCounts tokens))
  let lengths := literals ++ distances
  let symbols := lengthSymbols lengths.length lengths
  let counts := symbols.foldl (fun (cs : Array Nat) s => cs.modify s.symbol (· + 1))
    (Array.replicate 19 0)
  let codeLengths := chooseLengths 7 counts.toList
  let stored := trimmed 4 (lengthOrder.map fun s => codeLengths.getD s 0)
  let words := wordTable codeLengths
  true :: numberBits 2 2
    ++ numberBits 5 (literals.length - 257)
    ++ numberBits 5 (distances.length - 1)
    ++ numberBits 4 (stored.length - 4)
    ++ stored.flatMap (numberBits 3)
    ++ symbols.flatMap (fun s => words.getD s.symbol [] ++ s.extra)
    ++ bodyBits literals distances tokens

/-! ## 4. Stored blocks -/

/-- The most bytes of a stored block. -/
def maxStored : Nat := 65535

/-- One stored block. -/
def storedBlock (isLast : Bool) (bs : Bytes) : Bytes :=
  let l0 := UInt8.ofNat bs.length
  let l1 := UInt8.ofNat (bs.length / 256)
  (if isLast then 1 else 0) :: l0 :: l1 :: ~~~ l0 :: ~~~ l1 :: bs

/-- A byte string in stored blocks. -/
def storedBlocks (bs : Bytes) : Bytes :=
  if _h : bs.length ≤ maxStored then storedBlock true bs
  else storedBlock false (bs.take maxStored) ++ storedBlocks (bs.drop maxStored)
termination_by bs.length
decreasing_by simp only [List.length_drop, maxStored] at *; omega

/-! ## 5. The choice -/

/-- Whether compressed data stands for the given bytes and ends with its last block. -/
def inflatesTo (compressed bs : Bytes) : Bool :=
  match inflate compressed with
  | (out, .ok []) => out.toList == bs
  | _ => false

/-- The shorter of two byte strings. -/
def shorter (a b : Bytes) : Bytes :=
  if b.length < a.length then b else a

/-- The shorter of the two coded forms. -/
def coded (bs : Bytes) : Bytes :=
  let tokens := tokenize bs
  shorter (packBits (fixedBlock tokens)) (packBits (ownCodesBlock tokens))

/-- Compressed data for a byte string. -/
def deflate (bs : Bytes) : Bytes :=
  let candidate := coded bs
  let stored := storedBlocks bs
  if candidate.length < stored.length ∧ inflatesTo candidate bs then candidate else stored

/-- The header of every member that is written: no options, no time, best compression, unknown
system. -/
def header : Bytes :=
  [0x1F, 0x8B, 8, 0, 0, 0, 0, 0, 2, 255]

/-- A byte string as a gzip member. -/
def compress (bs : Bytes) : Bytes :=
  header ++ deflate bs ++ trailer bs

/-- What writes byte strings as gzip members, or says why it cannot. A byte string has many members,
and which of them is written is up to the compressor. -/
def Compressor := Bytes → Except String Bytes

/-- A member is written in memory, and that never fails. -/
def Compressor.inMemory : Compressor := fun bs => .ok (compress bs)

end TextTunnel.Gzip
