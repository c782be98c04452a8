import RayTracer.Binary.BitReader

/-!
Codes of which no codeword begins another. They are given by how many codewords there are of every length and
by the symbols in their order: shorter codewords come before longer ones, and codewords of one length follow
one another as numbers do.
-/

namespace RayTracer.Compression

structure PrefixCode where
  /-- The number of codewords of one bit, of two bits and so on. -/
  counts : List Nat
  symbols : Array Nat
  deriving DecidableEq, Repr

namespace PrefixCode

def longest : Nat := 15

/-- The code of the lengths of the codewords for symbols; those of length zero have none. -/
def ofLengths (lengths : List Nat) : PrefixCode :=
  let sizes := (List.range longest).map (· + 1)
  { counts := sizes.map fun size => lengths.count size
    symbols := (sizes.flatMap fun size =>
      (lengths.zipIdx.filter fun entry => entry.1 = size).map (·.2)).toArray }

/-- The number of sequences of as many bits as the longest codeword can have. -/
def sequences (code : PrefixCode) : Nat := 1 <<< code.counts.length

/-- How many of those sequences begin with codewords, each counted as often as it has one. -/
def coverage (code : PrefixCode) : Nat :=
  code.counts.foldl (fun (covered, weight) count => (covered + weight * count, weight / 2))
    (0, code.sequences / 2) |>.1

def isPossible (code : PrefixCode) : Bool := code.coverage ≤ code.sequences

/-- Whether every sequence of bits begins with one codeword. -/
def isComplete (code : PrefixCode) : Bool := code.coverage == code.sequences

/-- Whether the code has at most one codeword, of one bit. -/
def isTrivial (code : PrefixCode) : Bool :=
  code.symbols.size = 0 || code.symbols.size = 1 && code.counts.head? = some 1

/-- The symbol of the next codeword, where its length is one of those whose counts are left: `offset` tells
the bits so far among the sequences of their length that begin with no shorter codeword, and `index` is the
number of those codewords. -/
def readFrom (bit : BitReader Nat) (symbols : Array Nat) : List Nat → Nat → Nat → BitReader Nat
  | [], _, _ => failure
  | count :: longer, offset, index => do
    let here := 2 * offset + (← bit)
    if here < count then symbols[index + here]?.elim failure pure
    else readFrom bit symbols longer (here - count) (index + count)

/-- The symbol of the next codeword, of which `bit` gives one bit after another. -/
def read (bit : BitReader Nat) (code : PrefixCode) : BitReader Nat :=
  readFrom bit code.symbols code.counts 0 0

end PrefixCode

end RayTracer.Compression
