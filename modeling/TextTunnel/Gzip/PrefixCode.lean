import TextTunnel.Gzip.Bits

/-!
# Prefix codes

A code gives each symbol in use a row of bits such that none starts another. It is determined by the
lengths of the rows alone: in the order of length, and of the symbol among equals, each row is the
smallest number that starts with none of the rows before it.

* `codeWords` -- the rows that belong to a list of lengths, one for each symbol from zero on; length
  zero means that the symbol is not in use.
* `CodeTree.ofLengths?` -- the decoding tree. The rows must leave no row of bits without a meaning,
  except that a code of fewer than two symbols may.
* `CodeTree.decode` -- reads one symbol.
-/

namespace TextTunnel.Gzip

/-- Why compressed data stops making sense. -/
inductive Fault where
  /-- The input ends too early. -/
  | truncated
  /-- The input contradicts the format. -/
  | corrupt
  deriving DecidableEq

/-! ## 1. From lengths to rows -/

/-- The longest row. -/
def maxCodeLength : Nat := 15

/-- The bits of a row, first bit first. -/
def wordBits (length word : Nat) : List Bool :=
  (numberBits length word).reverse

/-- Numbers the rows, given the symbols in use with their lengths in the order of the rows; `next`
is the first row of length `length` that is free. -/
def assignWords (length next : Nat) : List (Nat × Nat) → List (Nat × List Bool)
  | [] => []
  | (symbol, l) :: rest =>
    let word := next <<< (l - length)
    (symbol, wordBits l word) :: assignWords l (word + 1) rest

/-- The symbols in use with their lengths, in the order of their rows. -/
def symbolsInOrder (lengths : List Nat) : List (Nat × Nat) :=
  ((lengths.zipIdx.filter fun p => p.1 != 0).map fun p => (p.2, p.1)).mergeSort
    fun a b => a.2 ≤ b.2

/-- The symbols in use with their rows. -/
def codeWords (lengths : List Nat) : List (Nat × List Bool) :=
  assignWords 0 0 (symbolsInOrder lengths)

/-- Whether the rows are a code that a decoder accepts. -/
def isUsable (lengths : List Nat) : Bool :=
  let used := lengths.filter (· != 0)
  used.length < 2 ||
    (used.map fun l => Nat.pow 2 (maxCodeLength - l)).foldl (· + ·) 0 == Nat.pow 2 maxCodeLength

/-! ## 2. The decoding tree -/

/-- The symbols at the ends of their rows. -/
inductive CodeTree where
  /-- No row leads here. -/
  | empty
  | leaf (symbol : Nat)
  | node (zero one : CodeTree)

namespace CodeTree

/-- Adds a row. -/
def insert (symbol : Nat) : List Bool → CodeTree → CodeTree
  | [], _ => .leaf symbol
  | false :: bits, .node zero one => .node (insert symbol bits zero) one
  | true :: bits, .node zero one => .node zero (insert symbol bits one)
  | false :: bits, _ => .node (insert symbol bits .empty) .empty
  | true :: bits, _ => .node .empty (insert symbol bits .empty)

/-- The tree of the given lengths. -/
def ofLengths (lengths : List Nat) : CodeTree :=
  (codeWords lengths).foldl (fun t w => t.insert w.1 w.2) .empty

/-- The tree of the given lengths, if they make a usable code. -/
def ofLengths? (lengths : List Nat) : Except Fault CodeTree :=
  if isUsable lengths then .ok (ofLengths lengths) else .error .corrupt

/-- Follows the bits to a symbol. -/
def decode : CodeTree → BitReader → Except Fault (Nat × BitReader)
  | .empty, _ => .error .corrupt
  | .leaf symbol, r => .ok (symbol, r)
  | .node zero one, r =>
    match r.next? with
    | none => .error .truncated
    | some (false, r) => zero.decode r
    | some (true, r) => one.decode r

end CodeTree

end TextTunnel.Gzip
