import RayTracer.Binary.ByteReader
import RayTracer.Compression.Inflate
import RayTracer.Image.Png

/-!
Reading portable network graphics. Chunks before the data say what the samples of the pixels mean, the data
are compressed, and its rows are filtered: every byte is told by what it differs from bytes beside it and
above it. Rows can come in seven passes over the picture. Opacity is passed over.
-/

namespace RayTracer.Png

open ByteReader

/-- What the samples of a pixel are. -/
inductive Samples where
  | gray
  | color
  | indexed
  | grayAlpha
  | colorAlpha
  deriving DecidableEq, Repr

namespace Samples

def ofNumber? : Nat → Option Samples
  | 0 => some .gray
  | 2 => some .color
  | 3 => some .indexed
  | 4 => some .grayAlpha
  | 6 => some .colorAlpha
  | _ => none

def count : Samples → Nat
  | .gray | .indexed => 1
  | .grayAlpha => 2
  | .color => 3
  | .colorAlpha => 4

/-- The numbers of bits that a sample can have. -/
def depths : Samples → List Nat
  | .gray => [1, 2, 4, 8, 16]
  | .indexed => [1, 2, 4, 8]
  | .color | .grayAlpha | .colorAlpha => [8, 16]

end Samples

structure Header where
  width : Nat
  height : Nat
  depth : Nat
  samples : Samples
  interlaced : Bool
  deriving DecidableEq, Repr

namespace Header

def pixelBits (header : Header) : Nat := header.depth * header.samples.count

def rowBytes (header : Header) (columns : Nat) : Nat := (header.pixelBits * columns + 7) / 8

/-- The distance in bytes to what is beside a byte. -/
def stride (header : Header) : Nat := max 1 (header.pixelBits / 8)

end Header

def readHeader : ByteReader Header := do
  let width ← nat32 .bigEndian
  let height ← nat32 .bigEndian
  let depth ← nat8
  let samples ← Samples.ofNumber? (← nat8)
  let methods ← take 2
  let interlacing ← nat8
  guard (0 < width ∧ 0 < height ∧ depth ∈ samples.depths ∧ methods = [0, 0] ∧ interlacing ≤ 1)
  return ⟨width, height, depth, samples, interlacing = 1⟩

def headerName : List UInt8 := [0x49, 0x48, 0x44, 0x52]

def paletteName : List UInt8 := [0x50, 0x4c, 0x54, 0x45]

def transparencyName : List UInt8 := [0x74, 0x52, 0x4e, 0x53]

def dataName : List UInt8 := [0x49, 0x44, 0x41, 0x54]

def endName : List UInt8 := [0x49, 0x45, 0x4e, 0x44]

/-- The name of the data of a further picture in a sequence of pictures. -/
def frameName : List UInt8 := [0x66, 0x64, 0x41, 0x54]

/-- Whether a picture makes sense without the chunks of a name. Their first letter is a small one. -/
def isAncillary (name : List UInt8) : Bool := name.headD 0 &&& 0x20 != 0

structure Chunk where
  name : List UInt8
  content : List UInt8
  deriving DecidableEq, Repr

/-- A chunk. The checksum counts for those that a picture cannot do without. -/
def readChunk : ByteReader Chunk := do
  let length ← nat32 .bigEndian
  let name ← take 4
  let content ← take length
  let checksum ← word .bigEndian
  guard (isAncillary name ∨ checksum = cyclicChecksum (name ++ content))
  return ⟨name, content⟩

/-- What the chunks before the data say. -/
structure Preamble where
  header : Header
  palette : Option (Array Rgb8)
  hasTransparency : Bool
  deriving DecidableEq, Repr

namespace Preamble

/-- The colors that bytes list, three for each. -/
def colors : List UInt8 → List Rgb8
  | r :: g :: b :: rest => ⟨r, g, b⟩ :: colors rest
  | _ => []

/-- Whether bytes can tell which colors are transparent: two for every sample of a color, or at most one for
every entry of a palette, which comes before them. -/
def acceptsTransparency (preamble : Preamble) (content : List UInt8) : Bool :=
  !preamble.hasTransparency && match preamble.header.samples with
    | .gray => 2 ≤ content.length
    | .color => 6 ≤ content.length
    | .indexed => preamble.palette.isSome
    | .grayAlpha | .colorAlpha => false

/-- The preamble with what one more chunk says. -/
def add? (preamble : Preamble) (chunk : Chunk) : Option Preamble :=
  if chunk.name ∈ [headerName, endName, frameName] then none
  else if chunk.name = paletteName then
    if preamble.palette.isSome then none
    else some { preamble with palette := some (colors chunk.content).toArray }
  else if chunk.name = transparencyName then
    if preamble.acceptsTransparency chunk.content then some { preamble with hasTransparency := true }
    else none
  else some preamble

/-- The bytes of a pixel when it has been read: palettes stand for colors, and samples are filled up to whole
bytes. -/
def storedBytes (preamble : Preamble) : Nat :=
  let channels := match preamble.header.samples with
    | .indexed => 3
    | samples => samples.count
  (channels + if preamble.hasTransparency then 1 else 0) * ((preamble.header.depth + 7) / 8)

end Preamble

/-- The chunks up to the first of the data. Every chunk takes one unit of fuel. -/
def readPreamble : Nat → Preamble → ByteReader Preamble
  | 0, _ => failure
  | fuel + 1, preamble => do
    let start ← get
    let chunk ← readChunk
    if chunk.name = dataName then
      set start
      return preamble
    readPreamble fuel (← preamble.add? chunk)

/-- The data chunks that follow one another, behind those that have been read. Another chunk begins after
them. Every chunk takes one unit of fuel. -/
def readData : Nat → Array UInt8 → ByteReader (Array UInt8)
  | 0, _ => failure
  | fuel + 1, data => do
    let start ← get
    let head ← take 8
    if head.drop 4 ≠ dataName then return data
    set start
    readData fuel (data.appendList (← readChunk).content)

/-- Of three bytes the one that is nearest to the first plus the second less the third. -/
def nearestOf (left above aboveLeft : UInt8) : UInt8 :=
  let guess : Int := (left.toNat : Int) + above.toNat - aboveLeft.toNat
  let distance (byte : UInt8) : Nat := (guess - byte.toNat).natAbs
  if distance left ≤ distance above ∧ distance left ≤ distance aboveLeft then left
  else if distance above ≤ distance aboveLeft then above
  else aboveLeft

/-- What a filter takes away from a byte. -/
def prediction? (filter : UInt8) : Option (UInt8 → UInt8 → UInt8 → UInt8) :=
  match filter.toNat with
  | 0 => some fun _ _ _ => 0
  | 1 => some fun left _ _ => left
  | 2 => some fun _ above _ => above
  | 3 => some fun left above _ => UInt8.ofNat ((left.toNat + above.toNat) / 2)
  | 4 => some nearestOf
  | _ => none

/-- A row without its filter. Beside and above the picture there are zeros. -/
def unfilter (stride : Nat) (predict : UInt8 → UInt8 → UInt8 → UInt8) (above row : Array UInt8) :
    Array UInt8 :=
  row.foldl
    (fun found byte =>
      let place := found.size
      let beside (bytes : Array UInt8) : UInt8 := if stride ≤ place then bytes.getD (place - stride) 0 else 0
      found.push (byte + predict (beside found) (above.getD place 0) (beside above)))
    #[]

/-- A number of so many bits in a row, the highest bits of a byte first and the higher byte of two first. -/
def sampleAt (row : Array UInt8) (depth index : Nat) : Nat :=
  if depth = 16 then 256 * (row.getD (2 * index) 0).toNat + (row.getD (2 * index + 1) 0).toNat
  else
    let place := depth * index
    ((row.getD (place / 8) 0).toNat >>> (8 - depth - place % 8)) % (1 <<< depth)

/-- The byte that is nearest to a sample. -/
def sampleByte (depth sample : Nat) : UInt8 :=
  let top := (1 <<< depth) - 1
  UInt8.ofNat ((2 * 255 * sample + top) / (2 * top))

/-- The pixel in a column of a row. Positions beyond the palette are black. -/
def pixelAt (header : Header) (palette : Array Rgb8) (row : Array UInt8) (column : Nat) : Rgb8 :=
  let sample (offset : Nat) : Nat := sampleAt row header.depth (header.samples.count * column + offset)
  let byte (offset : Nat) : UInt8 := sampleByte header.depth (sample offset)
  match header.samples with
  | .gray | .grayAlpha => ⟨byte 0, byte 0, byte 0⟩
  | .color | .colorAlpha => ⟨byte 0, byte 1, byte 2⟩
  | .indexed => palette.getD (sample 0) ⟨0, 0, 0⟩

/-- Pixels that are so many columns and rows apart. -/
structure Pass where
  column : Nat
  row : Nat
  columnStep : Nat
  rowStep : Nat
  deriving DecidableEq, Repr

namespace Pass

/-- The seven passes over an interlaced picture. -/
def interlaced : List Pass :=
  [⟨0, 0, 8, 8⟩, ⟨4, 0, 8, 8⟩, ⟨0, 4, 4, 8⟩, ⟨2, 0, 4, 4⟩, ⟨0, 2, 2, 4⟩, ⟨1, 0, 2, 2⟩, ⟨0, 1, 1, 2⟩]

def columns (pass : Pass) (header : Header) : Nat :=
  (header.width - pass.column + pass.columnStep - 1) / pass.columnStep

/-- The number of rows; a pass without columns has none. -/
def rows (pass : Pass) (header : Header) : Nat :=
  if pass.columns header = 0 then 0 else (header.height - pass.row + pass.rowStep - 1) / pass.rowStep

/-- The bytes of the rows, each of which tells its filter first. -/
def byteCount (pass : Pass) (header : Header) : Nat :=
  pass.rows header * (1 + header.rowBytes (pass.columns header))

end Pass

/-- The passes that are made over a picture. -/
def Header.passes (header : Header) : List Pass :=
  if header.interlaced then Pass.interlaced else [⟨0, 0, 1, 1⟩]

/-- What has been drawn of a picture, where the next row begins among the bytes, and the row above it. -/
structure Progress where
  pixels : Array Rgb8
  position : Nat
  above : Array UInt8
  deriving Repr

/-- One more row of a pass. -/
def drawRow? (header : Header) (palette : Array Rgb8) (data : Array UInt8) (pass : Pass)
    (progress : Progress) (row : Nat) : Option Progress := do
  let columns := pass.columns header
  let start := progress.position + 1
  let stop := start + header.rowBytes columns
  let predict ← prediction? (← data[progress.position]?)
  let bytes := unfilter header.stride predict progress.above (data.extract start stop)
  let first := (pass.row + pass.rowStep * row) * header.width + pass.column
  let draw (pixels : Array Rgb8) (column : Nat) : Array Rgb8 :=
    pixels.setIfInBounds (first + pass.columnStep * column) (pixelAt header palette bytes column)
  return ⟨(List.range columns).foldl draw progress.pixels, stop, bytes⟩

/-- The rows of a pass. Nothing is above the first of them. -/
def drawPass? (header : Header) (palette : Array Rgb8) (data : Array UInt8) (progress : Progress)
    (pass : Pass) : Option Progress :=
  (List.range (pass.rows header)).foldlM (drawRow? header palette data pass) { progress with above := #[] }

/-- The pixels that the rows of all passes draw. Bytes after the last row do not matter. -/
def pixels? (header : Header) (palette : Array Rgb8) (data : Array UInt8) : Option (Array Rgb8) := do
  guard ((header.passes.map (·.byteCount header)).foldl (· + ·) 0 ≤ data.size)
  let blank := Array.replicate (header.width * header.height) ⟨0, 0, 0⟩
  return (← header.passes.foldlM (drawPass? header palette data) ⟨blank, 0, #[]⟩).pixels

def read : ByteReader Picture := do
  guard ((← take signature.length) = signature)
  let first ← readChunk
  guard (first.name = headerName ∧ first.content.length = 13)
  let (header, _) ← readHeader first.content
  let preamble ← readPreamble ((← get).length + 1) ⟨header, none, false⟩
  guard (header.width * header.height * preamble.storedBytes ≤ Picture.decodingLimit)
  guard (header.samples ≠ .indexed ∨ preamble.palette.isSome)
  let data ← readData ((← get).length + 1) #[]
  let unpacked ← Compression.inflate? data
  return ⟨header.width, header.height, ← pixels? header (preamble.palette.getD #[]) unpacked⟩

def decode? (bytes : List UInt8) : Option Picture := (read bytes).map (·.1)

end RayTracer.Png
