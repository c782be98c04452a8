import RayTracer.Compression.PrefixCode

/-!
Unpacking compressed streams: two bytes that tell the method, blocks, and a checksum, which is not compared.
A block holds bytes as they are, or codewords for bytes and for copies of what came before, in a code of its
own or in one that is fixed.
-/

namespace RayTracer.Compression

open BitReader

/-- Ranges of numbers that follow one another: the first number of each and the number of bits that tell which
one is meant. A row says how many ranges there are with so many bits. -/
def ranges (rows : List (Nat × Nat)) (first : Nat) : Array (Nat × Nat) :=
  let bits := rows.flatMap fun (count, bits) => List.replicate count bits
  (bits.foldl (fun (found, start) bits => (found.push (start, bits), start + (1 <<< bits))) (#[], first)).1

/-- The ranges of lengths of copies. The last is a single length, which the range before it has also. -/
def lengthRanges : Array (Nat × Nat) :=
  (ranges [(8, 0), (4, 1), (4, 2), (4, 3), (4, 4), (4, 5)] 3).push (258, 0)

def distanceRanges : Array (Nat × Nat) :=
  ranges ((4, 0) :: ((List.range 13).map fun bits => (2, bits + 1))) 1

def readRange (ranges : Array (Nat × Nat)) (index : Nat) : BitReader Nat := do
  match ranges[index]? with
  | some (first, bits) => return first + (← number bits)
  | none => failure

/-- The two codes of a block: one for bytes, lengths and the end, and one for distances. -/
structure BlockCodes where
  symbols : PrefixCode
  distances : PrefixCode
  deriving DecidableEq, Repr

/-- The symbol for the end of a block. Those below it are bytes, those above it lengths. -/
def endSymbol : Nat := 256

def fixedCodes : BlockCodes :=
  ⟨.ofLengths (List.replicate 144 8 ++ List.replicate 112 9 ++ List.replicate 24 7 ++ List.replicate 8 8),
    .ofLengths (List.replicate 32 5)⟩

/-- What has been unpacked, with a copy of what is so far back. A copy can overlap what it copies. -/
def copyBack (length distance : Nat) (output : Array UInt8) : Array UInt8 :=
  Nat.repeat (fun output => output.push (output.getD (output.size - distance) 0)) length output

/-- A block of codewords behind what has been unpacked. Every codeword takes one unit of fuel. -/
def readCoded (codes : BlockCodes) : Nat → Array UInt8 → BitReader (Array UInt8)
  | 0, _ => failure
  | fuel + 1, output => do
    let symbol ← codes.symbols.read bit
    if symbol < endSymbol then readCoded codes fuel (output.push (UInt8.ofNat symbol))
    else if symbol = endSymbol then return output
    else
      let length ← readRange lengthRanges (symbol - endSymbol - 1)
      let distance ← readRange distanceRanges (← codes.distances.read bit)
      guard (distance ≤ output.size)
      readCoded codes fuel (copyBack length distance output)

/-- The order in which the lengths are given of the codewords for lengths. -/
def lengthOrder : List Nat := [16, 17, 18, 0, 8, 7, 9, 6, 10, 5, 11, 4, 12, 3, 13, 2, 14, 1, 15]

def readLengthCode (count : Nat) : BitReader PrefixCode := do
  let given ← (lengthOrder.take count).mapM fun symbol => return (symbol, ← number 3)
  let code := PrefixCode.ofLengths
    ((List.range lengthOrder.length).map fun symbol => (given.lookup symbol).getD 0)
  guard code.isComplete
  return code

/-- A number of lengths behind those that have been read: the symbols up to 15 are lengths, 16 repeats the
last, 17 and 18 stand for zeros. Every symbol takes one unit of fuel. -/
def readLengths (code : PrefixCode) (count : Nat) : Nat → Array Nat → BitReader (Array Nat)
  | 0, _ => failure
  | fuel + 1, lengths => do
    if count ≤ lengths.size then return lengths
    let symbol ← code.read bit
    let (length, times) ←
      if symbol = 16 then do
        let some last := lengths.back? | failure
        pure (last, 3 + (← number 2))
      else if symbol = 17 then do pure (0, 3 + (← number 3))
      else if symbol = 18 then do pure (0, 11 + (← number 7))
      else pure (symbol, 1)
    guard (lengths.size + times ≤ count)
    readLengths code count fuel (lengths ++ Array.replicate times length)

/-- The codes that the head of a block tells. There is a codeword for the end, all sequences of bits are used
in the code for symbols, and distances may have a single codeword or none. -/
def readCodes : BitReader BlockCodes := do
  let symbolCount := 257 + (← number 5)
  let distanceCount := 1 + (← number 5)
  let lengthCode ← readLengthCode (4 + (← number 4))
  guard (symbolCount ≤ 286 ∧ distanceCount ≤ 30)
  let count := symbolCount + distanceCount
  let lengths := (← readLengths lengthCode count (count + 1) #[]).toList
  let codes : BlockCodes :=
    ⟨.ofLengths (lengths.take symbolCount), .ofLengths (lengths.drop symbolCount)⟩
  guard (lengths.getD endSymbol 0 ≠ 0 ∧ codes.symbols.isComplete)
  guard (codes.distances.isComplete ∨ codes.distances.isTrivial)
  return codes

/-- A block of bytes as they are: their number, its complement, the bytes. -/
def readStored : BitReader (Array UInt8) := do
  align
  let length ← number 16
  guard (length + (← number 16) + 1 = UInt16.size)
  bytes length

/-- Blocks behind what has been unpacked, up to the last one. No block and no codeword is without a bit, so
fuel for every bit suffices for both. -/
def readBlocks (bitCount : Nat) : Nat → Array UInt8 → BitReader (Array UInt8)
  | 0, _ => failure
  | fuel + 1, output => do
    let isLast ← bit
    let unpacked ← match ← number 2 with
      | 0 => do pure (output ++ (← readStored))
      | 1 => readCoded fixedCodes bitCount output
      | 2 => do readCoded (← readCodes) bitCount output
      | _ => failure
    if isLast = 1 then return unpacked else readBlocks bitCount fuel unpacked

/-- The two bytes that tell the method: eight in the low half of the first, a window that is not too large in
the high half, no dictionary, and a check on both together. -/
def readMethod : BitReader Unit := do
  let method ← number 8
  let flags ← number 8
  guard (method % 16 = 8 ∧ method / 16 ≤ 7 ∧ flags / 32 % 2 = 0 ∧ (256 * method + flags) % 31 = 0)

/-- What a stream unpacks to. Bytes after its end do not matter. -/
def inflate? (stream : Array UInt8) : Option (Array UInt8) := do
  let unpack : BitReader (Array UInt8) := do
    readMethod
    let output ← readBlocks (8 * stream.size) (8 * stream.size) #[]
    let _ ← bytes 4
    return output
  return (← unpack stream 0).1

end RayTracer.Compression
