import RayTracer.Binary.ByteReader
import RayTracer.Image.Picture
import RayTracer.Text.Blank
import RayTracer.Text.Numeral
import RayTracer.Text.Utf8

/-!
Reading radiance pictures: lines of text that end with an empty one, a line that states the size, and rows
of colors whose channels share an exponent. What is read is what a display shows of them, in bytes.
-/

namespace RayTracer.Radiance

/-- A stored color: three mantissas and the exponent that they share. -/
structure SharedExponent where
  r : UInt8
  g : UInt8
  b : UInt8
  exponent : UInt8
  deriving DecidableEq, Repr

namespace SharedExponent

/-- The value of a channel. Its mantissa is a fraction of eight bits, and the exponent is offset by 128; the
exponent zero stands for black. -/
def value (exponent mantissa : UInt8) : Float32 :=
  if exponent = 0 then 0.0
  else (Float32.ofNat mantissa.toNat).scaleB ((exponent.toNat : Int) - 136)

/-- The byte of a channel, raised to a power as displays take it. What is too bright becomes white. -/
def channelByte (exponent mantissa : UInt8) : UInt8 :=
  (value exponent mantissa ^ (2.2 : Float32) * 255.0 + 0.5).toUInt8

def toRgb8 (color : SharedExponent) : Rgb8 :=
  ⟨channelByte color.exponent color.r, channelByte color.exponent color.g,
    channelByte color.exponent color.b⟩

/-- Whether a color stands for a run of the color before it, as long as its exponent tells. -/
def isRun (color : SharedExponent) : Bool := color.r == 1 && color.g == 1 && color.b == 1

/-- Whether a color stands for a row that is stored channel by channel. -/
def isRowMark (color : SharedExponent) : Bool := color.r == 2 && color.g == 2 && color.b < 128

end SharedExponent

def signature : List Char := "#?RADIANCE".toList

/-- A line of the header as a name without blanks around it and a value. Both have at least one
character. -/
def splitLine? (line : List Char) : Option (List Char × List Char) :=
  let name := line.takeWhile (· ≠ '=')
  let value := (line.dropWhile (· ≠ '=')).drop 1
  if name = [] ∨ value = [] then none else some (Text.trim name, value)

def isNumeral (text : List Char) : Bool := (Text.readFloat? text).isSome

/-- Whether a line may stand in the header. Lines whose names mean nothing here are passed over, as are
remarks. -/
def isHeaderLine (line : List Char) : Bool :=
  if line.head? = some '#' then true
  else match splitLine? line with
    | none => true
    | some (name, value) =>
      if name = "FORMAT".toList then Text.trim value = "32-bit_rle_rgbe".toList
      else if name = "EXPOSURE".toList ∨ name = "PIXASPECT".toList then isNumeral (Text.trim value)
      else if name = "COLORCORR".toList then
        (Text.words value).length = 3 ∧ (Text.words value).all isNumeral
      else true

/-- The lines up to an empty one. Every line takes one unit of fuel. -/
def readHeaderLines : Nat → ByteReader Unit
  | 0 => failure
  | fuel + 1 => do
    let line ← ByteReader.line
    if line = [] then return
    guard (isHeaderLine (Text.decodeLossy line))
    readHeaderLines fuel

/-- The width and the height that a line states. Rows go from the top to the bottom and from the left to the
right. -/
def size? (line : List Char) : Option (Nat × Nat) :=
  match Text.words line with
  | [down, height, right, width] => do
    guard (down = "-Y".toList ∧ right = "+X".toList)
    let height ← Text.readCount? UInt32.size height
    return (← Text.readCount? UInt32.size width, height)
  | _ => none

/-- All lines, and the size that the last of them states. -/
def readHeader : ByteReader (Nat × Nat) := do
  guard ((← ByteReader.take signature.length) = signature.map fun c => UInt8.ofNat c.toNat)
  let _ ← ByteReader.line
  readHeaderLines ((← get).length + 1)
  size? (Text.decodeLossy (← ByteReader.line))

def readColor : ByteReader SharedExponent := do
  return ⟨← ByteReader.byte, ← ByteReader.byte, ← ByteReader.byte, ← ByteReader.byte⟩

/-- A channel of a row: parts that list bytes or repeat one, as their heads tell. Every part takes one unit of
fuel. -/
def readChannel (width : Nat) : Nat → Array UInt8 → ByteReader (Array UInt8)
  | 0, _ => failure
  | fuel + 1, values => do
    if width ≤ values.size then return values
    let head ← ByteReader.nat8
    let part ←
      if head ≤ 128 then ByteReader.take head
      else pure (List.replicate (head - 128) (← ByteReader.byte))
    guard (values.size + part.length ≤ width)
    readChannel width fuel (values.appendList part)

/-- A row that is stored channel by channel. No part is without a byte, so the fuel outlasts the file. -/
def readChannels (width : Nat) : ByteReader (Array SharedExponent) := do
  let fuel := (← get).length + 1
  let r ← readChannel width fuel #[]
  let g ← readChannel width fuel #[]
  let b ← readChannel width fuel #[]
  let exponent ← readChannel width fuel #[]
  return (Array.range width).map fun column =>
    ⟨r.getD column 0, g.getD column 0, b.getD column 0, exponent.getD column 0⟩

/-- A row that is stored color by color, after its first colors. Runs that follow one another are the digits
of one length, the lowest first, and `unit` is what the next of them counts. Every color takes one unit of
fuel. -/
def readColors (width : Nat) : Nat → Nat → SharedExponent → Array SharedExponent →
    ByteReader (Array SharedExponent)
  | 0, _, _, _ => failure
  | fuel + 1, unit, last, colors => do
    if width ≤ colors.size then return colors
    let color ← readColor
    if color.isRun then
      let length := color.exponent.toNat * unit
      guard (colors.size + length ≤ width)
      readColors width fuel (256 * unit) last (colors ++ Array.replicate length last)
    else readColors width fuel 1 color (colors.push color)

/-- A row, of which the first color tells how it is stored. -/
def readRow (width : Nat) : ByteReader (Array SharedExponent) := do
  let first ← readColor
  if first.isRowMark then readChannels width
  else
    guard (¬ first.isRun)
    readColors width ((← get).length + 1) 1 first #[first]

/-- A number of rows behind those that have been read. -/
def readRows (width : Nat) : Nat → Array Rgb8 → ByteReader (Array Rgb8)
  | 0, pixels => return pixels
  | count + 1, pixels => do
    readRows width count (pixels ++ (← readRow width).map SharedExponent.toRgb8)

/-- The picture at the head of a file. Without a pixel there are no rows either. -/
def read : ByteReader Picture := do
  let (width, height) ← readHeader
  guard (3 * (width * height) ≤ Picture.decodingLimit)
  return ⟨width, height, ← readRows width (if width = 0 then 0 else height) #[]⟩

def decode? (bytes : List UInt8) : Option Picture := (read bytes).map (·.1)

end RayTracer.Radiance
