import RayTracer.Image.Bitmap
import RayTracer.Image.Jpeg.Writer
import RayTracer.Image.Png
import RayTracer.Image.Targa
import RayTracer.Storage.Folder

/-!
The bytes that stand for a content on a disk.
-/

namespace RayTracer

/-- The file of a picture in a format, if there is an encoder for it. -/
def Picture.encode? (format : PictureFormat) (picture : Picture) : Option (List UInt8) :=
  match format with
  | .png => some (Png.encode picture)
  | .bmp => some (Bitmap.encode picture)
  | .tga => some (Targa.encode picture)
  | .jpeg => some (Jpeg.encode picture)
  | .radiance | .other => none

/-- The bytes of a content. Nothing of an incomplete file has been written. -/
def FileContent.encode? : FileContent → Option (List UInt8)
  | .bytes content => some content
  | .picture format content => content.encode? format
  | .incomplete => some []

end RayTracer
