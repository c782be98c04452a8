import RayTracer.Image.Basic

/-!
From radiance to what a display can show. The image is scaled so that its logarithmic mean becomes a
chosen brightness, every channel is compressed below one, and a power and a factor make bytes of it.
-/

namespace RayTracer

variable {α : Type} [Scalar α]

structure Rgb8 where
  r : UInt8
  g : UInt8
  b : UInt8
  deriving DecidableEq, Repr

namespace Image

/-- The logarithmic mean of the luminosities. What is added to each keeps the logarithm of black finite. -/
def averageLuminosity (image : Image α) (offset : α) : α :=
  let sum : α := image.pixels.foldl (fun sum color => sum + Scalar.log10 (offset + color.luminosity)) 0.0
  Scalar.pow 10.0 (sum / Scalar.ofNat image.pixels.size)

/-- The image scaled by `factor` over a luminosity, which is by default that of the image itself. -/
def normalize (image : Image α) (factor : α) (luminosity : Option α) : Image α :=
  let reference := luminosity.getD (image.averageLuminosity 1e-10)
  let scale := factor / reference
  image.map (· * scale)

/-- Compression of a channel from the non-negative numbers into the unit interval. -/
def compressChannel (x : α) : α := x / (1.0 + x)

def compress (image : Image α) : Image α := image.map (Color.map compressChannel)

/-- The byte of a channel of the unit interval. -/
def channelByte (gamma x : α) : UInt8 := Scalar.truncateByte (255.0 * Scalar.pow x (1.0 / gamma))

end Image

end RayTracer
