import Monochrome.Filter.PrefixCode

/-!
# The format of deflate data

The data is a header of two bytes, blocks of literal bytes and of copies from the text so far,
and a checksum of the text.  Literal bytes, the end of a block and the lengths of copies share
one code, distances have another.
-/

namespace Monochrome
namespace Deflate

/-- The checksum of bytes: two sums modulo 65521, one of the bytes and one of the first. -/
def checksum (bytes : Bytes) : Nat :=
  let (low, high) := bytes.foldl
    (fun (low, high) byte =>
      let low := (low + byte.toNat) % 65521
      (low, (high + low) % 65521))
    (1, 0)
  high * 65536 + low

/-- The base value and the number of extra bits of each length symbol from 257 on. -/
def lengthSymbols : Array (Nat × Nat) :=
  #[(3, 0), (4, 0), (5, 0), (6, 0), (7, 0), (8, 0), (9, 0), (10, 0), (11, 1), (13, 1), (15, 1),
    (17, 1), (19, 2), (23, 2), (27, 2), (31, 2), (35, 3), (43, 3), (51, 3), (59, 3), (67, 4),
    (83, 4), (99, 4), (115, 4), (131, 5), (163, 5), (195, 5), (227, 5), (258, 0)]

/-- The base value and the number of extra bits of each distance symbol. -/
def distanceSymbols : Array (Nat × Nat) :=
  #[(1, 0), (2, 0), (3, 0), (4, 0), (5, 1), (7, 1), (9, 2), (13, 2), (17, 3), (25, 3), (33, 4),
    (49, 4), (65, 5), (97, 5), (129, 6), (193, 6), (257, 7), (385, 7), (513, 8), (769, 8),
    (1025, 9), (1537, 9), (2049, 10), (3073, 10), (4097, 11), (6145, 11), (8193, 12), (12289, 12),
    (16385, 13), (24577, 13)]

/-- The code of the literal bytes, lengths and ends of blocks that do not bring their own. -/
def fixedLiterals : PrefixCode :=
  PrefixCode.ofLengths <|
    List.replicate 144 8 ++ List.replicate 112 9 ++ List.replicate 24 7 ++ List.replicate 8 8

/-- The code of the distances in such blocks. -/
def fixedDistances : PrefixCode :=
  PrefixCode.ofLengths (List.replicate 32 5)

/-- The symbol that ends a coded block. -/
def endSymbol : Nat := 256

end Deflate
end Monochrome
