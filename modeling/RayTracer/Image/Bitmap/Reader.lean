import RayTracer.Binary.ByteReader
import RayTracer.Image.Picture

/-!
Reading the bitmap format. A file header says where the pixels begin, a second header, of which there are
several lengths, how they are stored: as positions in a palette, plainly or in runs, as whole bytes or as
groups of bits that masks single out. Rows go from the bottom to the top unless the height is negative;
opacity is passed over.
-/

namespace RayTracer.Bitmap

/-- The bits of one channel in a stored pixel: how many there are and how many lie below them. -/
structure BitField where
  size : Nat
  shift : Nat
  deriving DecidableEq, Repr

namespace BitField

def trailingZeros (n : Nat) : Nat := ((List.range 32).takeWhile fun bit => !n.testBit bit).length

/-- The field of a mask, of whose bits the highest eight count. The mask has no gaps and does not reach
beyond the pixel; it may be empty. -/
def ofMask? (pixelBits mask : Nat) : Option BitField :=
  if mask = 0 then some ⟨0, 0⟩
  else
    let shift := trailingZeros mask
    let ones := mask >>> shift
    let size := ones.log2 + 1
    if ones + 1 = 1 <<< size ∧ size + shift ≤ pixelBits then some ⟨min size 8, shift + (size - 8)⟩
    else none

def channel (field : BitField) (pixel : Nat) : UInt8 :=
  let top := (1 <<< field.size) - 1
  UInt8.ofNat ((2 * 255 * ((pixel >>> field.shift) % (1 <<< field.size)) + top) / (2 * top))

end BitField

structure BitFields where
  red : BitField
  green : BitField
  blue : BitField
  hasOpacity : Bool
  deriving DecidableEq, Repr

namespace BitFields

/-- Five bits for each channel, as they are where there are no masks. -/
def five : BitFields := ⟨⟨5, 10⟩, ⟨5, 5⟩, ⟨5, 0⟩, false⟩

/-- The fields of four masks, of which the last, for opacity, has only to be one. -/
def ofMasks? (pixelBits red green blue opacity : Nat) : Option BitFields := do
  let fields : BitFields := ⟨← BitField.ofMask? pixelBits red, ← BitField.ofMask? pixelBits green,
    ← BitField.ofMask? pixelBits blue, opacity ≠ 0⟩
  let _ ← BitField.ofMask? pixelBits opacity
  guard (red ≠ 0 ∧ green ≠ 0 ∧ blue ≠ 0)
  return fields

def pixel (fields : BitFields) (stored : Nat) : Rgb8 :=
  ⟨fields.red.channel stored, fields.green.channel stored, fields.blue.channel stored⟩

end BitFields

inductive Storage where
  /-- Positions of some bits in a palette. -/
  | indexed (bits : Nat)
  /-- Runs of positions of four or eight bits. -/
  | runs (bits : Nat)
  /-- Blue, green and red bytes, with a spare one or without. -/
  | whole (bytes : Nat)
  /-- Groups of bits in a number of bytes. -/
  | masked (bytes : Nat) (fields : BitFields)
  deriving DecidableEq, Repr

def Storage.paletteBits? : Storage → Option Nat
  | .indexed bits | .runs bits => some bits
  | .whole _ | .masked _ _ => none

def Storage.channels : Storage → Nat
  | .masked _ fields => if fields.hasOpacity then 4 else 3
  | _ => 3

/-- The bytes of a row, which fill words of four. -/
def Storage.rowBytes (storage : Storage) (width : Nat) : Nat :=
  let bits := match storage with
    | .indexed bits | .runs bits => bits
    | .whole bytes | .masked bytes _ => 8 * bytes
  (bits * width + 31) / 32 * 4

structure Layout where
  width : Nat
  height : Nat
  startsAtTop : Bool
  storage : Storage
  /-- The entries of the palette that the file states to have. -/
  paletteSize : Nat
  deriving DecidableEq, Repr

open ByteReader

def nat32 : ByteReader Nat := ByteReader.nat32 .littleEndian

/-- The least number that is no positive one of four bytes. -/
def signLimit : Nat := UInt32.size / 2

/-- The longest side but for a height that is negative. -/
def longestSide : Nat := 65535

def readFileHeader : ByteReader Nat := do
  guard ((← take 2) = [0x42, 0x4d])
  let _ ← take 8
  nat32

/-- The header of twelve bytes, less its length. -/
def readShortHeader : ByteReader Layout := do
  let width ← nat16
  let height ← nat16
  guard ((← nat16) = 1)
  let bits ← nat16
  let storage ← match bits with
    | 1 | 4 | 8 => pure (Storage.indexed bits)
    | 24 => pure (.whole 3)
    | _ => failure
  return ⟨width, height, false, storage, 0⟩

/-- The masks behind a header, and the fields that they single out. The longer headers have one for
opacity. -/
def readFields (headerLength bits : Nat) : ByteReader BitFields := do
  let red ← nat32
  let green ← nat32
  let blue ← nat32
  let opacity ← if 56 ≤ headerLength then nat32 else pure 0
  BitFields.ofMasks? bits red green blue opacity

/-- The storage that a compression and a number of bits per pixel stand for. -/
def readStorage (headerLength compression bits : Nat) : ByteReader Storage := do
  match compression, bits with
  | 0, 1 | 0, 2 | 0, 4 | 0, 8 => return .indexed bits
  | 0, 16 => return .masked 2 .five
  | 0, 24 => return .whole 3
  | 0, 32 => return .whole 4
  | 1, 8 | 2, 4 => return .runs bits
  | 3, 16 => return .masked 2 (← readFields headerLength 16)
  | 3, 32 => return .masked 4 (← readFields headerLength 32)
  | _, _ => failure

/-- A longer header, less its length. Only pixels without runs can start at the top. -/
def readLongHeader (headerLength : Nat) : ByteReader Layout := do
  let width ← nat32
  let height ← nat32
  let startsAtTop := signLimit ≤ height
  guard (width ≤ longestSide ∧ (height ≤ longestSide ∨ signLimit < height))
  guard ((← nat16) = 1)
  let bits ← nat16
  let compression ← nat32
  guard (¬ startsAtTop ∨ compression = 0 ∨ compression = 3)
  let _ ← take 12
  let paletteSize ← nat32
  let _ ← take 4
  let storage ← readStorage headerLength compression bits
  return ⟨width, if startsAtTop then UInt32.size - height else height, startsAtTop, storage, paletteSize⟩

def readHeader : ByteReader (Nat × Layout) := do
  let length ← nat32
  if length = 12 then return (length, ← readShortHeader)
  else if length ∈ [40, 52, 56, 108, 124] then return (length, ← readLongHeader length)
  else failure

/-- The palette of a layout: entries of three bytes after the short header and of four after others, blue
before green before red. -/
def readPalette (headerLength : Nat) (layout : Layout) (bits : Nat) : ByteReader (Array Rgb8) := do
  let most := 1 <<< bits
  guard (layout.paletteSize ≤ most)
  let entryBytes := if headerLength = 12 then 3 else 4
  let size := if layout.paletteSize = 0 then most else layout.paletteSize
  let bytes := (← take (entryBytes * size)).toArray
  let entry (index : Nat) : Rgb8 :=
    let byte (offset : Nat) : UInt8 := bytes.getD (entryBytes * index + offset) 0
    ⟨byte 2, byte 1, byte 0⟩
  return (Array.range size).map entry

/-- The color of a palette at a position; beyond its end there is black. -/
def colorAt (palette : Array Rgb8) (position : Nat) : Rgb8 := palette.getD position ⟨0, 0, 0⟩

def littleEndian (bytes : List UInt8) : Nat := bytes.foldr (fun byte n => byte.toNat + 256 * n) 0

/-- The position in the palette that some bits of a row write, the highest bits of a byte first. -/
def positionAt (data : Array UInt8) (start bits column : Nat) : Nat :=
  let place := bits * column
  ((data.getD (start + place / 8) 0).toNat >>> (8 - bits - place % 8)) % (1 <<< bits)

/-- The pixel in a column of a row that starts somewhere in the data. -/
def pixelAt (storage : Storage) (palette : Array Rgb8) (data : Array UInt8) (start column : Nat) : Rgb8 :=
  let byte (position : Nat) : UInt8 := data.getD (start + position) 0
  match storage with
  | .indexed bits | .runs bits => colorAt palette (positionAt data start bits column)
  | .whole bytes => ⟨byte (bytes * column + 2), byte (bytes * column + 1), byte (bytes * column)⟩
  | .masked bytes fields =>
    fields.pixel (littleEndian ((List.range bytes).map fun offset => byte (bytes * column + offset)))

/-- The pixels of all rows, the first row of the file first. Every row is there to its last byte. -/
def rowPixels? (layout : Layout) (palette : Array Rgb8) (data : Array UInt8) : Option (Array Rgb8) :=
  let rowBytes := layout.storage.rowBytes layout.width
  if rowBytes * layout.height ≤ data.size then
    some ((Image.coordinates layout.width layout.height).toArray.map fun (column, row) =>
      pixelAt layout.storage palette data (rowBytes * row) column)
  else none

inductive RunStep where
  /-- Pixels side by side, given by their positions in the palette. -/
  | pixels (positions : List Nat)
  | endOfRow
  | endOfPicture
  | skip (columns rows : Nat)
  deriving DecidableEq, Repr

/-- The positions that the first bits of some bytes write. -/
def positions (bits count : Nat) (bytes : List UInt8) : List Nat :=
  let data := bytes.toArray
  (List.range count).map (positionAt data 0 bits)

/-- A step: the length of a run and the byte that it repeats, or a zero and what else is to be done. Pixels
that are listed fill pairs of bytes. -/
def readStep (bits : Nat) : ByteReader RunStep := do
  let length ← nat8
  let second ← byte
  if length ≠ 0 then return .pixels (positions bits length (List.replicate length second))
  match second.toNat with
  | 0 => return .endOfRow
  | 1 => return .endOfPicture
  | 2 => return .skip (← nat8) (← nat8)
  | count => return .pixels (positions bits count (← take ((bits * count + 15) / 16 * 2)))

/-- The pixels drawn so far, the lowest row first, and where the next one goes. -/
structure Canvas where
  pixels : Array Rgb8
  column : Nat
  row : Nat

namespace Canvas

def black (width height : Nat) : Canvas := ⟨Array.replicate (width * height) ⟨0, 0, 0⟩, 0, 0⟩

/-- The canvas with colors side by side. A row that is too short for them is refused. -/
def draw? (canvas : Canvas) (width : Nat) (colors : List Rgb8) : Option Canvas :=
  if canvas.column + colors.length ≤ width then
    let start := canvas.row * width + canvas.column
    some { canvas with
      pixels := colors.zipIdx.foldl (fun pixels (color, offset) => pixels.setIfInBounds (start + offset) color)
        canvas.pixels
      column := canvas.column + colors.length }
  else none

/-- The canvas with the place moved, which stays inside. -/
def skip? (canvas : Canvas) (width height columns rows : Nat) : Option Canvas :=
  if (rows = 0 ∨ canvas.row + rows < height) ∧ canvas.column + columns ≤ width then
    some { canvas with column := canvas.column + columns, row := canvas.row + rows }
  else none

end Canvas

/-- The pixels that steps draw until the last row is done. Every step takes one unit of fuel. -/
def readRuns (layout : Layout) (palette : Array Rgb8) (bits : Nat) :
    Nat → Canvas → ByteReader (Array Rgb8)
  | 0, _ => failure
  | fuel + 1, canvas => do
    if layout.height ≤ canvas.row then return canvas.pixels
    match ← readStep bits with
    | .endOfPicture => return canvas.pixels
    | .endOfRow =>
      readRuns layout palette bits fuel { canvas with column := 0, row := canvas.row + 1 }
    | .pixels positions =>
      readRuns layout palette bits fuel (← canvas.draw? layout.width (positions.map (colorAt palette)))
    | .skip columns rows =>
      readRuns layout palette bits fuel (← canvas.skip? layout.width layout.height columns rows)

/-- The pixels of a layout, the first row of the file first. A step has two bytes at least, so the fuel
outlasts the data. -/
def pixels? (layout : Layout) (palette : Array Rgb8) (data : List UInt8) : Option (Array Rgb8) :=
  match layout.storage with
  | .runs bits =>
    (readRuns layout palette bits (data.length + 1) (.black layout.width layout.height) data).map (·.1)
  | _ => rowPixels? layout palette data.toArray

/-- The picture in a file. One without columns has no pixels, whatever follows its headers. -/
def decode? (file : List UInt8) : Option Picture := do
  let (dataStart, rest) ← readFileHeader file
  let ((headerLength, layout), _) ← readHeader rest
  guard (layout.width * layout.height * layout.storage.channels ≤ Picture.decodingLimit)
  let (palette, _) ← match layout.storage.paletteBits? with
    | some bits => readPalette headerLength layout bits (rest.drop headerLength)
    | none => some (#[], [])
  if layout.width = 0 then return ⟨0, layout.height, #[]⟩
  let picture : Picture := ⟨layout.width, layout.height, ← pixels? layout palette (file.drop dataStart)⟩
  return if layout.startsAtTop then picture else picture.upsideDown

end RayTracer.Bitmap
