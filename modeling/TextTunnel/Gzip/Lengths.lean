import TextTunnel.Gzip.PrefixCode

/-!
# Choosing code lengths

Given how often each symbol occurs, the shortest code joins the two rarest groups of symbols again
and again; each time a group is joined, the rows of its symbols grow by one bit. If a row becomes
longer than allowed, the counts are evened out and the code is made again.

* `chooseLengths` -- the code lengths for a list of counts.
-/

namespace TextTunnel.Gzip

/-- Symbols that share the first bits of their rows, and how often they occur in all. -/
structure SymbolGroup where
  count : Nat
  symbols : List Nat

/-- Puts a group behind the groups that are no more frequent. -/
def insertGroup (g : SymbolGroup) : List SymbolGroup → List SymbolGroup
  | [] => [g]
  | h :: hs => if h.count ≤ g.count then h :: insertGroup g hs else g :: h :: hs

/-- Joins the two rarest groups until one is left, and counts how often each symbol was joined. -/
def joinGroups : Nat → List SymbolGroup → Array Nat → Array Nat
  | fuel + 1, g :: h :: rest, lengths =>
    let symbols := g.symbols ++ h.symbols
    let lengths := symbols.foldl (fun ls s => ls.modify s (· + 1)) lengths
    joinGroups fuel (insertGroup ⟨g.count + h.count, symbols⟩ rest) lengths
  | _, _, lengths => lengths

/-- The lengths of the shortest code. A symbol that is alone gets one bit. -/
def shortestLengths (counts : List Nat) : List Nat :=
  let used := counts.zipIdx.filter fun p => p.1 != 0
  match used with
  | [(_, s)] => (List.range counts.length).map fun i => if i = s then 1 else 0
  | _ =>
    let groups := used.foldl (fun gs p => insertGroup ⟨p.1, [p.2]⟩ gs) []
    (joinGroups used.length groups (Array.replicate counts.length 0)).toList

/-- Code lengths of at most `limit` bits, the counts evened out up to `fuel` times. -/
def limitedLengths (limit : Nat) : Nat → List Nat → List Nat
  | 0, counts => shortestLengths counts
  | fuel + 1, counts =>
    let lengths := shortestLengths counts
    if lengths.all (· ≤ limit) then lengths
    else limitedLengths limit fuel (counts.map fun n => (n + 1) / 2)

/-- Code lengths of at most `limit` bits for the given counts. -/
def chooseLengths (limit : Nat) (counts : List Nat) : List Nat :=
  limitedLengths limit (counts.foldl (· + ·) 0).log2.succ counts

end TextTunnel.Gzip
