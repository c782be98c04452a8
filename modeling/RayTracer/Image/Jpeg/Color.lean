import RayTracer.Image.Jpeg.Transform
import RayTracer.Image.Picture

/-!
Between the colors of a display and luminance with two differences, blue and red, that count from the middle
of the bytes.
-/

namespace RayTracer.Jpeg

structure Luminance where
  y : UInt8
  blue : UInt8
  red : UInt8
  deriving DecidableEq, Repr

/-- The luminance and the differences of a color; what is left of a byte is dropped. -/
def Luminance.ofRgb8 (color : Rgb8) : Luminance :=
  let r : Float32 := Float32.ofNat color.r.toNat
  let g : Float32 := Float32.ofNat color.g.toNat
  let b : Float32 := Float32.ofNat color.b.toNat
  { y := (76.245 / 255.0 * r + 149.685 / 255.0 * g + 29.07 / 255.0 * b).toUInt8
    blue := (-43.0185 / 255.0 * r - 84.4815 / 255.0 * g + 127.5 / 255.0 * b + 128.0).toUInt8
    red := (127.5 / 255.0 * r - 106.7685 / 255.0 * g - 20.7315 / 255.0 * b + 128.0).toUInt8 }

/-- The byte of a number that carries some bits below it. -/
def channelByte (bits : Nat) (x : Int) : UInt8 := UInt8.ofNat (min 255 (x >>> bits).toNat)

/-- The color of a luminance, with factors of twenty bits. -/
def Luminance.toRgb8 (color : Luminance) : Rgb8 :=
  let y : Int := (color.y.toNat <<< 20 : Nat) + (1 <<< 19 : Nat)
  let blue : Int := (color.blue.toNat : Int) - 128
  let red : Int := (color.red.toNat : Int) - 128
  { r := channelByte 20 (y + 1470104 * red)
    g := channelByte 20 (y - 360857 * blue - 748830 * red)
    b := channelByte 20 (y + 1858077 * blue) }

/-- The color of a luminance, with numbers of six bits and factors of fifteen. -/
def Luminance.toRgb8Short (color : Luminance) : Rgb8 :=
  let y : Int := (color.y.toNat <<< 6 : Nat) + 32
  let blue : Int := 64 * ((color.blue.toNat : Int) - 128)
  let red : Int := 64 * ((color.red.toNat : Int) - 128)
  { r := channelByte 6 (y + (scaled 13173 red + red))
    g := channelByte 6 (y - (scaled 11276 blue + scaled 23401 red))
    b := channelByte 6 (y + (scaled 25297 blue + blue)) }

/-- The color of a luminance in a column of a row. Columns in whole groups of eight are converted with short
numbers, but for the last group. -/
def Luminance.toRgb8At (width column : Nat) (color : Luminance) : Rgb8 :=
  if column < (width / 8 - 1) * 8 then color.toRgb8Short else color.toRgb8

/-- The color of inks, of which one is black. -/
def colorOfInks (cyan magenta yellow black : UInt8) : Rgb8 :=
  let shown (ink : UInt8) : UInt8 := UInt8.ofNat ((255 - black.toNat) * (255 - ink.toNat) / 255)
  ⟨shown cyan, shown magenta, shown yellow⟩

end RayTracer.Jpeg
