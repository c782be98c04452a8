import RayTracer.Binary.ByteReader
import RayTracer.Binary.Single
import RayTracer.Image.Basic
import RayTracer.Text.Blank
import RayTracer.Text.Numeral
import RayTracer.Text.Quoted
import RayTracer.Text.Utf8

/-!
The portable float map. Three lines of text state that the file has colors, its size and its byte order;
then come the rows from the bottom to the top, three binary32 numbers for every pixel. Reading accepts
the numerals of the header in any spelling, writing produces one.
-/

namespace RayTracer.Pfm

/-- Why bytes are not a portable float map; the line at fault is kept. -/
inductive FormatError where
  | invalidMagic (line : List Char)
  | invalidSize (line : List Char)
  | invalidByteOrder (line : List Char)
  | truncated
  deriving DecidableEq, Repr

def FormatError.message : FormatError → String
  | .invalidMagic line =>
    "invalid magic in PFM file: expected \"PF\", found " ++ Text.quoted line
  | .invalidSize line => "invalid image size specification: " ++ Text.quoted line
  | .invalidByteOrder line => "invalid endianness specification: " ++ Text.quoted line
  | .truncated => "impossible to read binary data from the file"

/-- The numeral of the header that states a byte order. -/
def orderNumeral : ByteOrder → String
  | .littleEndian => "-1.0"
  | .bigEndian => "1.0"

def colorBytes (order : ByteOrder) (color : Color Double) : List UInt8 :=
  order.bytes (Binary.narrow color.r) ++ order.bytes (Binary.narrow color.g)
    ++ order.bytes (Binary.narrow color.b)

def header (order : ByteOrder) (width height : Nat) : List UInt8 :=
  Text.encode ("PF\n" ++ toString width ++ " " ++ toString height ++ "\n" ++ orderNumeral order ++ "\n")

/-- The file of an image. It exists whenever the pixels fill the size of the image. -/
def encode (order : ByteOrder) (image : Image Double) : Except Fault (List UInt8) := do
  let colors ← Rectangle.visit (fun (col, line) => image.get col (image.height - 1 - line))
    ⟨0, 0, image.width, image.height⟩
  return header order image.width image.height ++ colors.toList.flatMap (colorBytes order)

/-- What there is of a file when a pixel of the image turns out to be missing. The last row comes first, and
it is the first one to lack pixels. -/
def encodeBegun (order : ByteOrder) (image : Image Double) : List UInt8 :=
  let found := image.pixels.extract ((image.height - 1) * image.width) image.pixels.size
  header order image.width image.height ++ found.toList.flatMap (colorBytes order)

/-- A size: two counts with one space between them, both positive, whose pixels can be addressed. -/
def readSize (line : List Char) : Except FormatError (Nat × Nat) :=
  let first := line.takeWhile (· ≠ ' ')
  match line.dropWhile (· ≠ ' ') with
  | [] => .error (.invalidSize line)
  | _ :: second =>
    match Text.readCount? UInt64.size first, Text.readCount? UInt64.size second with
    | some width, some height =>
      if 0 < width ∧ 0 < height ∧ 12 * (width * height) < UInt64.size then .ok (width, height)
      else .error (.invalidSize line)
    | _, _ => .error (.invalidSize line)

/-- A byte order: a numeral for one or minus one, with any blanks around it. -/
def readByteOrder (line : List Char) : Except FormatError ByteOrder :=
  match Text.readFloat? (Text.trim line) with
  | none => .error (.invalidByteOrder line)
  | some value =>
    if value == 1.0 then .ok .bigEndian
    else if value == -1.0 then .ok .littleEndian
    else .error (.invalidByteOrder line)

/-- The colors that bytes spell, twelve bytes each. -/
def readColors (order : ByteOrder) : List UInt8 → List (Color Double)
  | r₀ :: r₁ :: r₂ :: r₃ :: g₀ :: g₁ :: g₂ :: g₃ :: b₀ :: b₁ :: b₂ :: b₃ :: rest =>
    ⟨Binary.widen (order.word r₀ r₁ r₂ r₃), Binary.widen (order.word g₀ g₁ g₂ g₃),
      Binary.widen (order.word b₀ b₁ b₂ b₃)⟩ :: readColors order rest
  | _ => []

def splitRows {β : Type} (width : Nat) : Nat → List β → List (List β)
  | 0, _ => []
  | count + 1, items => items.take width :: splitRows width count (items.drop width)

/-- The image of a size whose rows are spelled by bytes, the lowest row first. -/
def imageOf (order : ByteOrder) (width height : Nat) (bytes : List UInt8) : Image Double :=
  ⟨width, height, ((splitRows width height (readColors order bytes)).reverse.flatten).toArray⟩

/-- The image in a file. Bytes after the last pixel do not matter. -/
def decode (bytes : List UInt8) : Except FormatError (Image Double) := do
  let (magic, afterMagic) := Binary.takeLine bytes
  let magicText := Text.decodeLossy magic
  if magicText ≠ ['P', 'F'] then throw (.invalidMagic magicText)
  let (size, afterSize) := Binary.takeLine afterMagic
  let (width, height) ← readSize (Text.decodeLossy size)
  let (orderLine, payload) := Binary.takeLine afterSize
  let order ← readByteOrder (Text.decodeLossy orderLine)
  let needed := 12 * (width * height)
  if payload.length < needed then throw .truncated
  return imageOf order width height (payload.take needed)

end RayTracer.Pfm
