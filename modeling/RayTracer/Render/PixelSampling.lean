import RayTracer.Scene.Camera
import RayTracer.Scene.Material

/-!
The color of one pixel. Without sampling it is that of the ray through the center; with it the pixel is
cut into a grid of cells, a ray goes through a random place of every cell, and the colors are averaged.
-/

namespace RayTracer

/-- How colors of rays are found, in a monad that threads the generator. -/
abbrev RayColoring (m : Type → Type) (α : Type) := Ray α → StateT Pcg m (Color α)

/-- What every pixel of an image shares: the camera, the size and the side of the grid of cells. -/
structure Viewport (α : Type) where
  camera : Camera α
  width : Nat
  height : Nat
  /-- Zero stands for a single ray through the center. -/
  samplesPerSide : Nat
  deriving Repr

namespace Viewport

section Samples

variable {α : Type} [Scalar α] {m : Type → Type} [Monad m]

/-- The color of the ray through a position of a pixel. -/
def colorThrough (view : Viewport α) (coloring : RayColoring m α) (pixel : Nat × Nat)
    (right down : α) : StateT Pcg m (Color α) :=
  coloring (view.camera.pixelRay view.width view.height pixel right down)

/-- The position inside a pixel of a place of a cell. -/
def withinPixel (view : Viewport α) (cell : Nat) (place : α) : α :=
  (Scalar.ofNat cell + place) / Scalar.ofNat view.samplesPerSide

/-- The color of a ray through a random place of a cell, given by its column and row. The place across
is drawn before the place down, and the coloring goes on with the same generator. -/
def cellColor (view : Viewport α) (coloring : RayColoring m α) (pixel cell : Nat × Nat) :
    StateT Pcg m (Color α) := do
  let across ← Pcg.sampleUnit
  let down ← Pcg.sampleUnit
  view.colorThrough coloring pixel (view.withinPixel cell.1 across) (view.withinPixel cell.2 down)

/-- The sum of the colors of cells, in their order. -/
def sumCells (view : Viewport α) (coloring : RayColoring m α) (pixel : Nat × Nat) :
    List (Nat × Nat) → Color α → StateT Pcg m (Color α)
  | [], sum => return sum
  | cell :: cells, sum => do
    let color ← view.cellColor coloring pixel cell
    sumCells view coloring pixel cells (sum + color)

end Samples

variable {α : Type} [Scalar α] {m : Type → Type} [Monad m] [MonadLiftT (Except Fault) m]

/-- The color of a pixel. The cells are visited row by row, and they are counted when all of them have been. -/
def pixelColor (view : Viewport α) (coloring : RayColoring m α) (pixel : Nat × Nat) :
    StateT Pcg m (Color α) :=
  let n := view.samplesPerSide
  if n = 0 then view.colorThrough coloring pixel 0.5 0.5
  else do
    let sum ← view.sumCells coloring pixel (Image.coordinates n n) Color.black
    let count ← mulCounts n n
    return sum * (1.0 / Scalar.ofNat count : α)

/-- An image with one pixel traced: the color that is found for it is written at once. -/
def tracePixel (view : Viewport α) (coloring : RayColoring m α) (image : Image α) (pixel : Nat × Nat) :
    StateT Pcg m (Image α) := do
  let color ← view.pixelColor coloring pixel
  image.set pixel.1 pixel.2 color

end Viewport

section Tracing

variable {α : Type} [Scalar α] {m : Type → Type} [Monad m] [MonadLiftT (Except Fault) m]

/-- An image traced anew, pixel by pixel in the order in which pixels are stored. All pixels share one
generator. What the image held before is lost. -/
def Image.retrace (image : Image α) (camera : Camera α) (samplesPerSide : Nat)
    (coloring : RayColoring m α) : StateT Pcg m (Image α) :=
  let view : Viewport α := ⟨camera, image.width, image.height, samplesPerSide⟩
  Rectangle.foldM (view.tracePixel coloring) image ⟨0, 0, image.width, image.height⟩

/-- An image is traced pixel by pixel in the order of its coordinates. -/
theorem Image.retrace_eq [LawfulMonad m] (image : Image α) (camera : Camera α) (samplesPerSide : Nat)
    (coloring : RayColoring m α) :
    image.retrace camera samplesPerSide coloring =
      (Image.coordinates image.width image.height).foldlM
        (Viewport.tracePixel ⟨camera, image.width, image.height, samplesPerSide⟩ coloring) image :=
  Rectangle.foldM_eq _ _ _

/-- The image of a view: a black one, traced. -/
def Viewport.traceImage (view : Viewport α) (coloring : RayColoring m α) : StateT Pcg m (Image α) := do
  let blank ← Image.blank view.width view.height
  blank.retrace view.camera view.samplesPerSide coloring

end Tracing

/-- How often the progress of tracing is told. -/
inductive ProgressPace where
  | onlyStart
  | everyPixel
  deriving DecidableEq, Repr

/-- The pixels at which progress is told: the first one at the start, then each one that is done. -/
def progressReports (pace : ProgressPace) (width height : Nat) : List (Nat × Nat) :=
  match pace with
  | .onlyStart => [(0, 0)]
  | .everyPixel => (0, 0) :: Image.coordinates width height

end RayTracer
