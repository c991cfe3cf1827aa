import TextTunnel.Gzip.PrefixCode

/-!
# The symbols of compressed data

Compressed data is a row of symbols: 0 to 255 are bytes, 256 ends a block, and 257 to 285 begin a
copy of output that is already there. A copy has a length from 3 to 258 and a distance from 1 to
32768; each is a symbol for a range and extra bits for the place in it.

* `lengthRanges`, `distanceRanges` -- the first value of each range and its number of extra bits.
* `fixedLiterals`, `fixedDistances` -- the code lengths of blocks that carry none.
* `lengthOrder` -- the order in which the lengths of the code of code lengths are stored.
-/

namespace TextTunnel.Gzip

/-- The symbol that ends a block. -/
def endOfBlock : Nat := 256

/-- Lengths of copies: the first of each range and the number of extra bits, from symbol 257 on. -/
def lengthRanges : Array (Nat × Nat) :=
  #[(3, 0), (4, 0), (5, 0), (6, 0), (7, 0), (8, 0), (9, 0), (10, 0), (11, 1), (13, 1), (15, 1),
    (17, 1), (19, 2), (23, 2), (27, 2), (31, 2), (35, 3), (43, 3), (51, 3), (59, 3), (67, 4),
    (83, 4), (99, 4), (115, 4), (131, 5), (163, 5), (195, 5), (227, 5), (258, 0)]

/-- Distances of copies: the first of each range and the number of extra bits. -/
def distanceRanges : Array (Nat × Nat) :=
  #[(1, 0), (2, 0), (3, 0), (4, 0), (5, 1), (7, 1), (9, 2), (13, 2), (17, 3), (25, 3), (33, 4),
    (49, 4), (65, 5), (97, 5), (129, 6), (193, 6), (257, 7), (385, 7), (513, 8), (769, 8),
    (1025, 9), (1537, 9), (2049, 10), (3073, 10), (4097, 11), (6145, 11), (8193, 12), (12289, 12),
    (16385, 13), (24577, 13)]

/-- Code lengths of bytes, the end and copies in a block that carries no codes. -/
def fixedLiterals : List Nat :=
  List.replicate 144 8 ++ List.replicate 112 9 ++ List.replicate 24 7 ++ List.replicate 8 8

/-- Code lengths of distances in a block that carries no codes. -/
def fixedDistances : List Nat :=
  List.replicate 32 5

/-- The order in which a block stores the lengths of the code for its code lengths. -/
def lengthOrder : List Nat :=
  [16, 17, 18, 0, 8, 7, 9, 6, 10, 5, 11, 4, 12, 3, 13, 2, 14, 1, 15]

end TextTunnel.Gzip
