import RayTracer.Image.Jpeg.Color

/-!
Writing photographs: a header, the tables, and one scan of blocks, luminance and both differences in turn. A
block is transformed, its coefficients are divided by quantization steps, and what is left is coded.
-/

namespace RayTracer.Jpeg

/-- The luminance at a place of a picture. Beyond its edges the last pixels are repeated. -/
def luminanceAt (colors : Array Luminance) (width height column row : Nat) : Luminance :=
  colors.getD (min row (height - 1) * width + min column (width - 1)) ⟨0, 0, 0⟩

def samplesIn (colors : Array Luminance) (width height : Nat) (channel : Luminance → UInt8)
    (column row : Nat) : Block :=
  ((List.range 64).map fun index =>
    ((channel (luminanceAt colors width height (column + index % blockSide)
      (row + index / blockSide))).toNat : Int)).toArray

/-- The nearest number to a quotient; halves go away from zero. -/
def nearestQuotient (x : Int) (step : Nat) : Int :=
  let magnitude : Int := ((2 * x.natAbs + step) / (2 * step) : Nat)
  if x < 0 then -magnitude else magnitude

/-- The coefficients of samples in quantization steps. -/
def quantized (steps : Array Nat) (samples : Block) : Block :=
  (coefficientsOf samples).mapIdx fun index x => nearestQuotient (x.tdiv 8) (steps.getD index 1)

/-- The bits of a number, the highest first. -/
def bitsOf (n : Nat) : Nat → List Bool
  | 0 => []
  | count + 1 => n.testBit count :: bitsOf n count

/-- The bits of a number by its size, which is the length of its magnitude. A negative number is written as the
sum of itself and the greatest number of its size. -/
def sizedBits (x : Int) : Nat × List Bool :=
  let size := if x = 0 then 0 else x.natAbs.log2 + 1
  let written := if x < 0 then (x + (1 <<< size : Nat) - 1).toNat else x.toNat
  (size, bitsOf written size)

def codewords (code : Compression.PrefixCode) : Array (List Bool) :=
  let sizes := code.counts.zipIdx.flatMap fun (count, index) => List.replicate count (index + 1)
  let place (state : Array (List Bool) × Nat × Nat) (entry : Nat × Nat) : Array (List Bool) × Nat × Nat :=
    let (table, next, last) := state
    let (size, symbol) := entry
    let word := next <<< (size - last)
    (table.setIfInBounds symbol (bitsOf word size), word + 1, size)
  ((sizes.zip code.symbols.toList).foldl place (Array.replicate 256 [], 0, 0)).1

structure BlockWords where
  sizes : Array (List Bool)
  runs : Array (List Bool)

/-- The bits of the other coefficients, in the order of files: zeros are counted, sixteen of them at a time
are a symbol of their own, and those at the end are left to the symbol zero. -/
def runBits (words : BlockWords) : Nat → List Int → List Bool
  | zeros, [] => if zeros = 0 then [] else words.runs.getD 0 []
  | zeros, x :: rest =>
    if x = 0 then runBits words (zeros + 1) rest
    else
      let (size, bits) := sizedBits x
      (List.replicate (zeros / 16) (words.runs.getD 0xf0 [])).flatten
        ++ words.runs.getD (16 * (zeros % 16) + size) [] ++ bits ++ runBits words 0 rest

/-- The bits of a block. Of the first coefficient only the difference from the block before it is written. -/
def blockBits (words : BlockWords) (before : Int) (block : Block) : List Bool :=
  let (size, bits) := sizedBits (block.getD 0 0 - before)
  words.sizes.getD size [] ++ bits
    ++ runBits words 0 ((diagonalOrder.toList.drop 1).map fun index => block.getD index 0)

/-- The bytes of bits, the highest first; ones fill the last byte up, and a zero follows every byte that could
begin a marker. -/
def packBits : List Bool → List UInt8
  | [] => []
  | first :: others =>
    let bits := (others ++ List.replicate 7 true).take 7
    let byte := UInt8.ofNat (bits.foldl (fun n bit => 2 * n + bit.toNat) first.toNat)
    (if byte = 0xff then [byte, 0] else [byte]) ++ packBits (others.drop 7)
termination_by bits => bits.length

/-- A number of two bytes, the higher first. -/
def field (n : Nat) : List UInt8 := [UInt8.ofNat (n / 256), UInt8.ofNat n]

def segment (marker : UInt8) (content : List UInt8) : List UInt8 :=
  [0xff, marker] ++ field (content.length + 2) ++ content

/-- The name of the format, its version and square pixels. -/
def nameSegment : List UInt8 :=
  segment 0xe0 [0x4a, 0x46, 0x49, 0x46, 0, 1, 2, 0, 0, 1, 0, 1, 0, 0]

/-- The size of a picture and its three channels, of which the last two share their tables. -/
def frameSegment (width height : Nat) : List UInt8 :=
  segment 0xc0 ([8] ++ field height ++ field width ++ [3, 1, 0x11, 0, 2, 0x11, 1, 3, 0x11, 1])

def stepsSegment (place : UInt8) (steps : Array Nat) : List UInt8 :=
  segment 0xdb (place :: diagonalOrder.toList.map fun index => UInt8.ofNat (steps.getD index 0))

def codeSegment (place : UInt8) (code : Compression.PrefixCode) : List UInt8 :=
  segment 0xc4 (place :: code.counts.map UInt8.ofNat ++ code.symbols.toList.map UInt8.ofNat)

def scanSegment : List UInt8 := segment 0xda [3, 1, 0, 2, 0x11, 3, 0x11, 0, 63, 0]

/-- The three channels in their order, with their steps and their codewords. -/
def channels : List ((Luminance → UInt8) × Array Nat × BlockWords) :=
  let differences : BlockWords := ⟨codewords chrominanceSizes, codewords chrominanceRuns⟩
  [(Luminance.y, scaledSteps luminanceSteps, ⟨codewords luminanceSizes, codewords luminanceRuns⟩),
    (Luminance.blue, scaledSteps chrominanceSteps, differences),
    (Luminance.red, scaledSteps chrominanceSteps, differences)]

/-- The corners of the blocks of a picture, row by row. -/
def blockCorners (width height : Nat) : List (Nat × Nat) :=
  (Rectangle.positions ⟨0, 0, (width + 7) / blockSide, (height + 7) / blockSide⟩).map
    fun (column, row) => (blockSide * column, blockSide * row)

/-- The bits of the blocks at some corners, after blocks whose first coefficients are known. -/
def scanBits (colors : Array Luminance) (width height : Nat) :
    List Int → List (Nat × Nat) → List (List Bool)
  | _, [] => []
  | before, (column, row) :: corners =>
    let blocks := channels.map fun (channel, steps, words) =>
      (quantized steps (samplesIn colors width height channel column row), words)
    let bits := (blocks.zip before).flatMap fun ((block, words), first) => blockBits words first block
    bits :: scanBits colors width height (blocks.map fun block => block.1.getD 0 0) corners

def encode (picture : Picture) : List UInt8 :=
  let colors := picture.pixels.map Luminance.ofRgb8
  let bits := scanBits colors picture.width picture.height [0, 0, 0]
    (blockCorners picture.width picture.height)
  [0xff, 0xd8] ++ nameSegment ++ frameSegment picture.width picture.height
    ++ stepsSegment 0 (scaledSteps luminanceSteps) ++ stepsSegment 1 (scaledSteps chrominanceSteps)
    ++ codeSegment 0 luminanceSizes ++ codeSegment 0x10 luminanceRuns
    ++ codeSegment 1 chrominanceSizes ++ codeSegment 0x11 chrominanceRuns
    ++ scanSegment ++ packBits bits.flatten ++ [0xff, 0xd9]

end RayTracer.Jpeg
