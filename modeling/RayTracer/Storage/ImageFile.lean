import RayTracer.Image.Bitmap.Reader
import RayTracer.Image.Jpeg.Reader
import RayTracer.Image.Pfm
import RayTracer.Image.Png.Reader
import RayTracer.Image.Radiance
import RayTracer.Image.Targa.Reader
import RayTracer.Storage.Encoding

/-!
Image files. The extension of a name says how its content is meant: float maps hold radiance as it is,
all other formats hold pictures of bytes.
-/

namespace RayTracer

inductive ImageError where
  | unreachable
  | floatMap (path : String) (reason : Pfm.FormatError)
  | codec
  | unsupportedFormat (path : String)
  | noPixels (path : String)
  deriving DecidableEq, Repr

/-- The wording of an error, where it does not come from the system or a picture format. -/
def ImageError.message? : ImageError → Option String
  | .unreachable => none
  | .floatMap path reason => some ("Invalid PFM file " ++ path ++ ": " ++ reason.message)
  | .codec => none
  | .unsupportedFormat path => some ("Unsupported image format: " ++ path)
  | .noPixels path => some ("Image " ++ path ++ " has no pixels")

namespace ImageFile

def isFloatMap (path : String) : Bool :=
  match FileName.extension? path with
  | some extension => extension.toLower == "pfm"
  | none => false

def format? (path : String) : Option PictureFormat :=
  (FileName.extension? path).bind PictureFormat.ofExtension?

/-- The picture in a file of a format, if it can be read. -/
def decodePicture? (format : PictureFormat) (bytes : List UInt8) : Option Picture :=
  match format with
  | .png => Png.decode? bytes
  | .bmp => Bitmap.decode? bytes
  | .tga => Targa.decode? bytes
  | .radiance => Radiance.decode? bytes
  | .jpeg => Jpeg.decode? bytes
  | .other => none

/-- The picture that a content holds when read as one of a format, which is what its bytes are read as. The rows of
a bitmap are told apart by their pixels. -/
def pictureOf (format : PictureFormat) (content : FileContent) :
    Except (Halt ImageError) Picture := do
  match content.encode?.bind (decodePicture? format) with
  | none => throw (.reported .codec)
  | some picture =>
    if format = .bmp ∧ picture.width = 0 then throw (.fault .emptyRows)
    return picture

def loadFloatMap (folder : Folder) (path : String) : Except (Halt ImageError) (Image Double) :=
  match folder.read? path with
  | none => .error (.reported .unreachable)
  | some (.bytes content) =>
    match Pfm.decode content with
    | .ok image => .ok image
    | .error reason => .error (.reported (.floatMap path reason))
  | some _ => .error (.reported (.floatMap path (.invalidMagic [])))

def loadPicture (folder : Folder) (path : String) : Except (Halt ImageError) (Image Double) :=
  match format? path, folder.read? path with
  | some format, some content => do
    let picture ← pictureOf format content
    if picture.width = 0 ∨ picture.height = 0 then throw (.reported (.noPixels path))
    return picture.toImage
  | _, _ => .error (.reported .codec)

def load (folder : Folder) (path : String) : Except (Halt ImageError) (Image Double) :=
  if isFloatMap path then loadFloatMap folder path else loadPicture folder path

/-- The folder after an attempt to write, and why it failed if it did: the file refused the image, or the image
itself has a fault. -/
structure Written where
  folder : Folder
  failure : Option (Halt ImageError)

/-- Save an image as a float map with the lowest byte first. The pixels are written as they are fetched,
so a missing one leaves those before it in the file. -/
def saveFloatMap (folder : Folder) (path : String) (image : Image Double) : Written :=
  let (bytes, fault) := match Pfm.encode .littleEndian image with
    | .ok bytes => (bytes, none)
    | .error fault => (Pfm.encodeBegun .littleEndian image, some (Halt.fault fault))
  match folder.write? path (.bytes bytes) with
  | none => ⟨folder, some (.reported .unreachable)⟩
  | some after => ⟨after, fault⟩

/-- Save an image as a picture in the format of the extension. The file comes into being before its
format is tried, so a format that cannot be written leaves an incomplete one. -/
def savePicture (folder : Folder) (path : String) (gamma : Double) (image : Image Double) : Written :=
  match format? path with
  | none => ⟨folder, some (.reported (.unsupportedFormat path))⟩
  | some format =>
    match image.toPicture gamma with
    | .error fault => ⟨folder, some (.fault fault)⟩
    | .ok picture =>
      let content : FileContent :=
        if format.canWrite picture.width picture.height then .picture format picture else .incomplete
      match folder.write? path content with
      | none => ⟨folder, some (.reported .codec)⟩
      | some after => ⟨after, if content = .incomplete then some (.reported .codec) else none⟩

end ImageFile

end RayTracer
