import RayTracer.Compression.PrefixCode

/-!
What writers and readers of photographs agree on: the order of the coefficients of a block, and the usual
tables of quantization steps and of codes.
-/

namespace RayTracer.Jpeg

def blockSide : Nat := 8

abbrev Block := Array Int

def Block.zero : Block := Array.replicate 64 0

/-- The positions of coefficients in the order of files: along the diagonals, up and down in turn, from the
lowest frequencies to the highest. -/
def diagonalOrder : Array Nat :=
  ((List.range 15).flatMap fun diagonal =>
    let rows := (List.range 8).filter fun row => row ≤ diagonal ∧ diagonal - row < 8
    let downwards := rows.map fun row => blockSide * row + (diagonal - row)
    if diagonal % 2 = 0 then downwards.reverse else downwards).toArray

/-- The usual steps for luminance, row by row. -/
def luminanceSteps : List Nat :=
  [16, 11, 10, 16, 24, 40, 51, 61,
   12, 12, 14, 19, 26, 58, 60, 55,
   14, 13, 16, 24, 40, 57, 69, 56,
   14, 17, 22, 29, 51, 87, 80, 62,
   18, 22, 37, 56, 68, 109, 103, 77,
   24, 35, 55, 64, 81, 104, 113, 92,
   49, 64, 78, 87, 103, 121, 120, 101,
   72, 92, 95, 98, 112, 100, 103, 99]

/-- The usual steps for chrominance, row by row. -/
def chrominanceSteps : List Nat :=
  [17, 18, 24, 47, 99, 99, 99, 99,
   18, 21, 26, 66, 99, 99, 99, 99,
   24, 26, 56, 99, 99, 99, 99, 99,
   47, 66, 99, 99, 99, 99, 99, 99]
    ++ List.replicate 32 99

/-- The steps at the quality of three quarters, which are half of the usual ones. -/
def scaledSteps (steps : List Nat) : Array Nat :=
  (steps.map fun step => max 1 (min 255 ((step * 50 + 50) / 100))).toArray

def luminanceSizes : Compression.PrefixCode :=
  ⟨[0, 1, 5, 1, 1, 1, 1, 1, 1, 0, 0, 0, 0, 0, 0, 0], (List.range 12).toArray⟩

def chrominanceSizes : Compression.PrefixCode :=
  ⟨[0, 3, 1, 1, 1, 1, 1, 1, 1, 1, 1, 0, 0, 0, 0, 0], (List.range 12).toArray⟩

/-- The symbols from the second up to the tenth size after numbers of zeros from one on, which the usual codes
for the other coefficients end with. -/
def commonSymbols (firstSizes : List Nat) : List Nat :=
  (firstSizes.zipIdx.flatMap fun (first, zeros) =>
    ((List.range 11).drop first).map fun size => 16 * zeros + size)

/-- The code for the other coefficients of luminance. A symbol tells how many zeros come before a coefficient,
in units of sixteen, and the size of that coefficient. -/
def luminanceRuns : Compression.PrefixCode :=
  ⟨[0, 2, 1, 3, 3, 2, 4, 3, 5, 5, 4, 4, 0, 0, 1, 125],
    ([0x01, 0x02, 0x03, 0x00, 0x04, 0x11, 0x05, 0x12, 0x21, 0x31, 0x41, 0x06, 0x13, 0x51, 0x61, 0x07, 0x22,
      0x71, 0x14, 0x32, 0x81, 0x91, 0xa1, 0x08, 0x23, 0x42, 0xb1, 0xc1, 0x15, 0x52, 0xd1, 0xf0, 0x24, 0x33,
      0x62, 0x72, 0x82]
      ++ commonSymbols [9, 6, 5, 4, 3, 3, 3, 3, 3, 2, 2, 2, 2, 2, 1, 1]).toArray⟩

def chrominanceRuns : Compression.PrefixCode :=
  ⟨[0, 2, 1, 2, 4, 4, 3, 4, 7, 5, 4, 4, 0, 1, 2, 119],
    ([0x00, 0x01, 0x02, 0x03, 0x11, 0x04, 0x05, 0x21, 0x31, 0x06, 0x12, 0x41, 0x51, 0x07, 0x61, 0x71, 0x13,
      0x22, 0x32, 0x81, 0x08, 0x14, 0x42, 0x91, 0xa1, 0xb1, 0xc1, 0x09, 0x23, 0x33, 0x52, 0xf0, 0x15, 0x62,
      0x72, 0xd1, 0x0a, 0x16, 0x24, 0x34, 0xe1, 0x25, 0xf1]
      ++ commonSymbols [11, 7, 6, 5, 3, 3, 3, 3, 2, 2, 2, 2, 2, 2, 2, 2]).toArray⟩

end RayTracer.Jpeg
