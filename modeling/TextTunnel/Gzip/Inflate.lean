import TextTunnel.Gzip.Alphabet

/-!
# Inflating

Compressed data is a row of blocks, the last one marked. A block is stored as it is, coded with the
fixed codes, or coded with codes of its own that stand at its beginning.

* `inflate` -- the output, and either the bytes behind the last block or the fault that ended it.

A copy may reach back behind the start of the output: what is not there counts as zero bytes.
Output that came before a fault is kept, because a reader may have had it already.
-/

namespace TextTunnel.Gzip

/-- What has been put out so far. -/
abbrev Output := Array UInt8

/-! ## 1. Copies -/

/-- Copies `length` bytes from `distance` bytes back, which may run into what it writes. -/
def copyBack (distance : Nat) : Nat → Output → Output
  | 0, out => out
  | length + 1, out =>
    let b := if distance ≤ out.size then out.getD (out.size - distance) 0 else 0
    copyBack distance length (out.push b)

/-- A value from the range of a symbol and its extra bits. -/
def rangeValue (ranges : Array (Nat × Nat)) (symbol : Nat) (r : BitReader) :
    Except Fault (Nat × BitReader) :=
  match ranges[symbol]? with
  | none => .error .corrupt
  | some (base, extra) =>
    match r.number? extra with
    | none => .error .truncated
    | some (n, r) => .ok (base + n, r)

/-- The length and the distance of the copy that a symbol begins. -/
def readCopy (distances : CodeTree) (symbol : Nat) (r : BitReader) :
    Except Fault (Nat × Nat × BitReader) := do
  let (length, r) ← rangeValue lengthRanges (symbol - 257) r
  let (symbol, r) ← distances.decode r
  let (distance, r) ← rangeValue distanceRanges symbol r
  return (length, distance, r)

/-! ## 2. Coded blocks -/

/-- Decodes symbols up to the end of the block. Each takes at least one bit, so the number of bits
bounds their number. -/
def inflateSymbols (literals distances : CodeTree) :
    Nat → BitReader → Output → Output × Except Fault BitReader
  | 0, _, out => (out, .error .truncated)
  | fuel + 1, r, out =>
    match literals.decode r with
    | .error f => (out, .error f)
    | .ok (symbol, r) =>
      if symbol < endOfBlock then
        inflateSymbols literals distances fuel r (out.push (UInt8.ofNat symbol))
      else if symbol = endOfBlock then (out, .ok r)
      else
        match readCopy distances symbol r with
        | .error f => (out, .error f)
        | .ok (length, distance, r) =>
          inflateSymbols literals distances fuel r (copyBack distance length out)

/-- A number of bits, or the fault that the input has ended. -/
def readNumber (n : Nat) (r : BitReader) : Except Fault (Nat × BitReader) :=
  match r.number? n with
  | none => .error .truncated
  | some p => .ok p

/-- Reads `n` numbers of three bits. -/
def readTriples : Nat → BitReader → Except Fault (List Nat × BitReader)
  | 0, r => .ok ([], r)
  | n + 1, r => do
    let (l, r) ← readNumber 3 r
    let (ls, r) ← readTriples n r
    return (l :: ls, r)

/-- The lengths of the code for code lengths, put in the order of its symbols. -/
def unscrambled (stored : List Nat) : List Nat :=
  (List.range 19).map fun symbol =>
    match (lengthOrder.zip stored).find? fun p => p.1 == symbol with
    | some (_, l) => l
    | none => 0

/-- Reads code lengths until there are `total`, the latest first in `done`. A symbol below 16 is a
length; 16 repeats the last one, 17 and 18 stand for zeros. -/
def readLengths (tree : CodeTree) (total : Nat) :
    Nat → List Nat → BitReader → Except Fault (List Nat × BitReader)
  | 0, _, _ => .error .corrupt
  | fuel + 1, done, r =>
    if done.length = total then .ok (done.reverse, r)
    else if total < done.length then .error .corrupt
    else do
      let (symbol, r) ← tree.decode r
      if symbol < 16 then readLengths tree total fuel (symbol :: done) r
      else if symbol = 16 then
        match done with
        | [] => .error .corrupt
        | last :: _ =>
          let (n, r) ← readNumber 2 r
          readLengths tree total fuel (List.replicate (3 + n) last ++ done) r
      else if symbol = 17 then
        let (n, r) ← readNumber 3 r
        readLengths tree total fuel (List.replicate (3 + n) 0 ++ done) r
      else
        let (n, r) ← readNumber 7 r
        readLengths tree total fuel (List.replicate (11 + n) 0 ++ done) r

/-- The most symbols of a block's own codes for bytes and copies, and for distances. -/
def maxLiterals : Nat := 286

/-- The most distances that a block's own code has. -/
def maxDistances : Nat := 30

/-- Reads a block's own codes. -/
def readCodes (r : BitReader) : Except Fault (CodeTree × CodeTree × BitReader) := do
  let (nLiterals, r) ← readNumber 5 r
  let (nDistances, r) ← readNumber 5 r
  let (nLengths, r) ← readNumber 4 r
  let nLiterals := nLiterals + 257
  let nDistances := nDistances + 1
  if maxLiterals < nLiterals ∨ maxDistances < nDistances then throw .corrupt
  let (stored, r) ← readTriples (nLengths + 4) r
  let tree ← CodeTree.ofLengths? (unscrambled stored)
  let total := nLiterals + nDistances
  let (lengths, r) ← readLengths tree total (total + 1) [] r
  let literals ← CodeTree.ofLengths? (lengths.take nLiterals)
  let distances ← CodeTree.ofLengths? (lengths.drop nLiterals)
  return (literals, distances, r)

/-- The tree of the fixed code for bytes and copies. -/
def fixedLiteralTree : CodeTree := CodeTree.ofLengths fixedLiterals

/-- The tree of the fixed code for distances. -/
def fixedDistanceTree : CodeTree := CodeTree.ofLengths fixedDistances

/-! ## 3. Stored blocks -/

/-- A stored block: its length, the complement of the length, and the bytes. -/
def inflateStored (bs : Bytes) (out : Output) : Output × Except Fault BitReader :=
  match bs with
  | l0 :: l1 :: n0 :: n1 :: rest =>
    if l0 = ~~~ n0 ∧ l1 = ~~~ n1 then
      let length := l0.toNat + 256 * l1.toNat
      let out := out ++ rest.take length
      if length ≤ rest.length then (out, .ok (BitReader.ofBytes (rest.drop length)))
      else (out, .error .truncated)
    else (out, .error .corrupt)
  | _ => (out, .error .truncated)

/-! ## 4. Blocks -/

/-- One block, behind the bit that marks the last one. -/
def inflateBlock (fuel : Nat) (r : BitReader) (out : Output) : Output × Except Fault BitReader :=
  match r.number? 2 with
  | none => (out, .error .truncated)
  | some (0, r) => inflateStored r.aligned out
  | some (1, r) => inflateSymbols fixedLiteralTree fixedDistanceTree fuel r out
  | some (2, r) =>
    match readCodes r with
    | .error f => (out, .error f)
    | .ok (literals, distances, r) => inflateSymbols literals distances fuel r out
  | some (_, _) => (out, .error .corrupt)

/-- Blocks up to the one that is marked as the last. `symbols` bounds the symbols of one block. -/
def inflateBlocks (symbols : Nat) : Nat → BitReader → Output → Output × Except Fault Bytes
  | 0, _, out => (out, .error .truncated)
  | fuel + 1, r, out =>
    match r.next? with
    | none => (out, .error .truncated)
    | some (isLast, r) =>
      match inflateBlock symbols r out with
      | (out, .error f) => (out, .error f)
      | (out, .ok r) => if isLast then (out, .ok r.aligned) else inflateBlocks symbols fuel r out

/-- Decompresses the blocks at the front of a byte string. -/
def inflate (bs : Bytes) : Output × Except Fault Bytes :=
  inflateBlocks (8 * bs.length + 1) (8 * bs.length + 1) (BitReader.ofBytes bs) #[]

end TextTunnel.Gzip
