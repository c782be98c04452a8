import RayTracer.Image.ToneMapping

/-!
Pictures of one byte per channel, as displays and most files hold them, and the formats that a file name
selects by its extension.
-/

namespace RayTracer

structure Picture where
  width : Nat
  height : Nat
  /-- Row by row from the top. -/
  pixels : Array Rgb8
  deriving DecidableEq, Repr

namespace Picture

/-- The most bytes that the channels of a picture take that is read from a file. -/
def decodingLimit : Nat := 1 <<< 29

def row (picture : Picture) (position : Nat) : Array Rgb8 :=
  picture.pixels.extract (position * picture.width) ((position + 1) * picture.width)

def upsideDown (picture : Picture) : Picture :=
  { picture with pixels := (Array.range picture.height).reverse.flatMap picture.row }

end Picture

/-- The picture formats that extensions name. Some are known by name only, and radiance pictures can be read
but not written. -/
inductive PictureFormat where
  | png
  | jpeg
  | bmp
  | tga
  | radiance
  | other
  deriving DecidableEq, Repr

namespace PictureFormat

/-- Extensions of formats that are known by name only. -/
def knownExtensions : List String :=
  ["avif", "gif", "webp", "tif", "tiff", "dds", "ico", "exr", "pbm", "pam", "ppm", "pgm",
    "ff", "farbfeld", "qoi"]

/-- The format of an extension, in any case. -/
def ofExtension? (extension : String) : Option PictureFormat :=
  let name := extension.toLower
  if name = "png" then some .png
  else if name = "jpg" ∨ name = "jpeg" then some .jpeg
  else if name = "bmp" then some .bmp
  else if name = "tga" then some .tga
  else if name = "hdr" then some .radiance
  else if name ∈ knownExtensions then some .other
  else none

/-- Whether a picture of a size can be written in the format. -/
def canWrite (format : PictureFormat) (width height : Nat) : Bool :=
  match format with
  | .png => decide (0 < width ∧ 0 < height)
  | .jpeg | .tga => decide (width < UInt16.size ∧ height < UInt16.size)
  | .bmp => true
  | .radiance | .other => false

end PictureFormat

def Picture.toImage {α : Type} [Scalar α] (picture : Picture) : Image α :=
  { width := picture.width
    height := picture.height
    pixels := picture.pixels.map fun rgb =>
      ⟨Color.linearOfByte rgb.r, Color.linearOfByte rgb.g, Color.linearOfByte rgb.b⟩ }

def Color.toRgb8 {α : Type} [Scalar α] (gamma : α) (color : Color α) : Rgb8 :=
  ⟨Image.channelByte gamma color.r, Image.channelByte gamma color.g, Image.channelByte gamma color.b⟩

/-- The check that the bytes of a picture can be had at all. -/
def Picture.checkBytes (width height : Nat) : Except Fault Unit :=
  let count := 3 * (width * height)
  if UInt64.size ≤ count then .error .pictureTooLarge
  else if UInt64.size / 2 ≤ count then .error .bufferTooLarge
  else .ok ()

/-- The picture of an image whose channels lie in the unit interval; others are cut off. The sides of a
picture are counted in 32 bits. -/
def Image.toPicture {α : Type} [Scalar α] (image : Image α) (gamma : α) : Except Fault Picture := do
  let width := image.width % UInt32.size
  let height := image.height % UInt32.size
  Picture.checkBytes width height
  let colors ← Rectangle.visit (fun (col, row) => image.get col row) ⟨0, 0, width, height⟩
  return ⟨width, height, colors.map (Color.toRgb8 gamma)⟩

end RayTracer
