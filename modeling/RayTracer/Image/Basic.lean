import RayTracer.Color
import RayTracer.Fault
import RayTracer.Image.Rectangle

/-!
Images as rows of linear colors. Pixel `(0, 0)` is the top left one. Sizes are kept apart from the pixels,
so an image whose pixels do not fill its size can be expressed; reaching for one that is not there is a
fault.
-/

namespace RayTracer

structure Image (α : Type) where
  width : Nat
  height : Nat
  /-- Row by row from the top, each row from the left. -/
  pixels : Array (Color α)
  deriving Repr

namespace Image

variable {α : Type}

/-- The bytes that a pixel takes in memory. -/
def pixelBytes : Nat := 24

/-- The check that a buffer of a number of pixels can be had at all. -/
def checkBuffer (count : Nat) : Except Fault Unit :=
  if count * pixelBytes < UInt64.size / 2 then .ok () else .error .bufferTooLarge

/-- A black image. -/
def blank [Scalar α] (width height : Nat) : Except Fault (Image α) := do
  let count ← mulSizes width height
  checkBuffer count
  return ⟨width, height, Array.replicate count Color.black⟩

/-- Whether the pixels fill the size. -/
def isFilled (image : Image α) : Bool := image.pixels.size == image.width * image.height

def contains (image : Image α) (x y : Nat) : Bool := decide (x < image.width ∧ y < image.height)

def offset (image : Image α) (x y : Nat) : Except Fault Nat := do
  addSizes (← mulSizes y image.width) x

/-- The position of a pixel of the image; a fault outside it. -/
def locate (image : Image α) (x y : Nat) : Except Fault Nat :=
  if image.contains x y then image.offset x y
  else .error (.pixelOutside x y image.width image.height)

def get (image : Image α) (x y : Nat) : Except Fault (Color α) := do
  let position ← image.locate x y
  match image.pixels[position]? with
  | some color => return color
  | none => .error (.pixelMissing image.pixels.size position)

def set (image : Image α) (x y : Nat) (color : Color α) : Except Fault (Image α) := do
  let position ← image.locate x y
  if h : position < image.pixels.size then
    return { image with pixels := image.pixels.set position color h }
  else .error (.pixelMissing image.pixels.size position)

def map {β : Type} (f : Color α → Color β) (image : Image α) : Image β :=
  ⟨image.width, image.height, image.pixels.map f⟩

def aspectRatio [Scalar α] (image : Image α) : α :=
  Scalar.ofNat image.width / Scalar.ofNat image.height

/-- The coordinates of all pixels, in the order in which they are stored. -/
def coordinates (width height : Nat) : List (Nat × Nat) := Rectangle.positions ⟨0, 0, width, height⟩

end Image

end RayTracer
