import RayTracer.Render.PixelSampling

/-!
Rendering in buckets, the rectangles that an image is cut into. Every pixel has a generator of its own,
on the stream that its position selects, so the image does not depend on how it is cut or in which order
the buckets are rendered. Buckets near the center come first.
-/

namespace RayTracer

structure Bucket where
  x : Nat
  y : Nat
  width : Nat
  height : Nat
  index : Nat
  deriving DecidableEq, Repr

namespace Bucket

def defaultSize : Nat := 64

def pixelCount (bucket : Bucket) : Except Fault Nat := mulSizes bucket.width bucket.height

/-- The corners along an extent: every multiple of the bucket size below it. -/
def corners (extent size : Nat) : List Nat :=
  (List.range ((extent + size - 1) / size)).map (· * size)

/-- The buckets of an image row by row, cut off at the right and the lower edge. -/
def grid (width height size : Nat) : List Bucket :=
  if width = 0 then []
  else (corners height size).flatMap fun y =>
    (corners width size).map fun x =>
      ⟨x, y, min size (width - x), min size (height - y), 0⟩

/-- The squared distance from the center of a bucket to that of the image. -/
def squaredDistance {α : Type} [Scalar α] (width height : Nat) (bucket : Bucket) : α :=
  let across : α :=
    Scalar.ofNat bucket.x + Scalar.ofNat bucket.width / 2.0 - Scalar.ofNat width / 2.0
  let down : α :=
    Scalar.ofNat bucket.y + Scalar.ofNat bucket.height / 2.0 - Scalar.ofNat height / 2.0
  across * across + down * down

/-- Buckets with their distance from the center, the nearest first. Equal distances keep their order. -/
def sortByDistance (α : Type) [Scalar α] (width height : Nat) (buckets : List Bucket) : List Bucket :=
  let keyed := buckets.map fun bucket => ((squaredDistance width height bucket : α), bucket)
  (keyed.mergeSort fun a b => Scalar.totalLe a.1 b.1).map (·.2)

def number (buckets : List Bucket) : List Bucket :=
  buckets.mapIdx fun index bucket => { bucket with index := index }

/-- The buckets of an image in the order of rendering, with distances computed in `α`. -/
def plan (α : Type) [Scalar α] (width height size : Nat) : Except Fault (List Bucket) :=
  if size = 0 then .error .zeroBucketSize
  else .ok (number (sortByDistance α width height (grid width height size)))

def rectangle (bucket : Bucket) : Rectangle := ⟨bucket.x, bucket.y, bucket.width, bucket.height⟩

def coordinates (bucket : Bucket) : List (Nat × Nat) := bucket.rectangle.positions

/-- The number of a pixel of an image, which selects its stream. -/
def streamOf (width : Nat) (pixel : Nat × Nat) : Except Fault Nat := do
  addSizes (← mulSizes pixel.2 width) pixel.1

end Bucket

variable {α : Type} [Scalar α]

namespace Viewport

/-- The color of a pixel computed for itself, on the stream of the pixel. -/
def ownColor (view : Viewport α) (coloring : RayColoring (Except Fault) α) (seed : UInt64)
    (pixel : Nat × Nat) : Except Fault (Color α) := do
  let stream ← Bucket.streamOf view.width pixel
  let (color, _) ← view.pixelColor coloring pixel |>.run (Pcg.seeded seed (UInt64.ofNat stream))
  return color

/-- The colors of the pixels of a bucket. A bucket whose pixels cannot be counted or held is a fault, and
so is one that reaches beyond the range of sizes. -/
def renderBucket (view : Viewport α) (coloring : RayColoring (Except Fault) α) (seed : UInt64)
    (bucket : Bucket) : Except Fault (Array (Color α)) := do
  Image.checkBuffer (← bucket.pixelCount)
  let _ ← addSizes bucket.y bucket.height
  if bucket.height ≠ 0 then
    let _ ← addSizes bucket.x bucket.width
  bucket.rectangle.visit (view.ownColor coloring seed)

def renderEach (view : Viewport α) (coloring : RayColoring (Except Fault) α) (seed : UInt64)
    (buckets : List Bucket) : Except Fault (List (Bucket × Array (Color α))) :=
  buckets.mapM fun bucket => do return (bucket, ← view.renderBucket coloring seed bucket)

/-- An image with the pixels of a bucket filled in. Its colors come row by row, so the place of a color
among them gives the column and the row inside the bucket. -/
def writeBucket (image : Image α) (bucket : Bucket) (colors : Array (Color α)) :
    Except Fault (Image α) :=
  colors.toList.zipIdx.foldlM (fun image (color, place) =>
    image.set (bucket.x + place % bucket.width) (bucket.y + place / bucket.width) color) image

/-- The image of a view with the colors of some buckets written in their order; it is black elsewhere. -/
def assemble (view : Viewport α) (rendered : List (Bucket × Array (Color α))) :
    Except Fault (Image α) := do
  let image ← Image.blank view.width view.height
  rendered.foldlM (fun image (bucket, colors) => writeBucket image bucket colors) image

/-- The image of a view of which some buckets are rendered and written, in their order. -/
def renderInOrder (view : Viewport α) (coloring : RayColoring (Except Fault) α) (seed : UInt64)
    (buckets : List Bucket) : Except Fault (Image α) := do
  view.assemble (← view.renderEach coloring seed buckets)

def renderBuckets (view : Viewport α) (coloring : RayColoring (Except Fault) α) (seed : UInt64)
    (bucketSize : Nat) : Except Fault (Image α) := do
  view.renderInOrder coloring seed (← Bucket.plan α view.width view.height bucketSize)

end Viewport

end RayTracer
