import RayTracer.Binary.ByteOrder
import RayTracer.Image.Picture

/-!
Writing the uncompressed bitmap format: two headers and the rows from the bottom to the top, each filled
up to a multiple of four bytes.
-/

namespace RayTracer.Bitmap

def headerLength : Nat := 54

/-- The bytes that fill a row up. -/
def padding (width : Nat) : Nat := (4 - 3 * width % 4) % 4

def dataLength (width height : Nat) : Nat := (3 * width + padding width) * height

def field (n : Nat) : List UInt8 := ByteOrder.littleEndian.bytes (UInt32.ofNat n)

/-- The length of the file and where its rows begin, then the size of the picture, one plane of twenty-four
bits without compression or palette. -/
def header (width height : Nat) : List UInt8 :=
  [0x42, 0x4d] ++ field (headerLength + dataLength width height) ++ field 0 ++ field headerLength
    ++ field 40 ++ field width ++ field height ++ [1, 0, 24, 0] ++ field 0
    ++ field (dataLength width height) ++ field 0 ++ field 0 ++ field 0 ++ field 0

def rowBytes (picture : Picture) (row : Nat) : List UInt8 :=
  (picture.row row).toList.flatMap (fun pixel => [pixel.b, pixel.g, pixel.r])
    ++ List.replicate (padding picture.width) 0

def encode (picture : Picture) : List UInt8 :=
  header picture.width picture.height
    ++ (List.range picture.height).reverse.flatMap (rowBytes picture)

end RayTracer.Bitmap
