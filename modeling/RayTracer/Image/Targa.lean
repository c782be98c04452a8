import RayTracer.Binary.ByteOrder
import RayTracer.Image.Picture

/-!
Writing the uncompressed true-color form of the Targa format: a header of eighteen bytes and the pixels from
the top row on, blue before green before red.
-/

namespace RayTracer.Targa

/-- The two bytes of a side, the lower one first. -/
def sideBytes (side : Nat) : List UInt8 := (ByteOrder.littleEndian.bytes (UInt32.ofNat side)).take 2

def header (width height : Nat) : List UInt8 :=
  [0, 0, 2, 0, 0, 0, 0, 0, 0, 0, 0, 0] ++ sideBytes width ++ sideBytes height ++ [24, 32]

/-- The file of a picture whose sides fit sixteen bits. -/
def encode (picture : Picture) : List UInt8 :=
  header picture.width picture.height
    ++ picture.pixels.toList.flatMap fun pixel => [pixel.b, pixel.g, pixel.r]

end RayTracer.Targa
