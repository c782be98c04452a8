import RayTracer.Image.Jpeg.Frame
import RayTracer.Image.Jpeg.Transform

/-!
The samples of a channel as they cover a picture. A channel that is sampled more coarsely is enlarged: to twice
its size by going over smoothly from sample to sample, and more by repeating samples.
-/

namespace RayTracer.Jpeg

/-- How many pixels a sample stands for along both directions. -/
structure Enlargement where
  across : Nat
  down : Nat
  /-- Whether there are values between those of samples. -/
  isSmooth : Bool
  deriving DecidableEq, Repr

/-- The smooth enlargement along a direction of some pixels, for a channel with so many blocks where another
has the most. A single pixel needs none. -/
def smoothFactor? (most own pixels : Nat) : Option Nat :=
  if own = most ∨ pixels = 1 then some 1
  else if 2 * own = most then some 2
  else none

/-- The enlargement of a channel. Without a smooth one both factors have to be whole. -/
def Frame.enlargement? (frame : Frame) (channel : Channel) : Option Enlargement :=
  match smoothFactor? frame.across channel.across frame.width,
      smoothFactor? frame.down channel.down frame.height with
  | some across, some down => some ⟨across, down, true⟩
  | _, _ =>
    if frame.across % channel.across = 0 ∧ frame.down % channel.down = 0 then
      some ⟨frame.across / channel.across, frame.down / channel.down, false⟩
    else none

structure Plane where
  /-- The number of samples in a row, without those outside the picture. -/
  columns : Nat
  rows : Nat
  /-- The number of blocks in a row. -/
  blockColumns : Nat
  enlargement : Enlargement
  /-- The samples of the blocks, row by row. -/
  blocks : Array (Array UInt8)

namespace Plane

def ofBlocks? (frame : Frame) (channel : Channel) (blocks : Array (Array UInt8)) : Option Plane := do
  let enlargement ← frame.enlargement? channel
  return { columns := (frame.width * channel.across + frame.across - 1) / frame.across
           rows := (frame.height * channel.down + frame.down - 1) / frame.down
           blockColumns := frame.blockColumns channel
           enlargement := enlargement
           blocks := blocks }

def sample (plane : Plane) (column row : Nat) : Nat :=
  let block := plane.blocks.getD (row / blockSide * plane.blockColumns + column / blockSide) #[]
  (block.getD (row % blockSide * blockSide + column % blockSide) 0).toNat

/-- The weight of the samples in a column at a row of the picture: four where two rows are mixed. -/
def columnWeight (plane : Plane) : Nat := if plane.enlargement.down = 2 then 4 else 1

/-- The weighted sum of the samples in a column at a row of the picture. Of two rows the nearer one counts
three times. -/
def columnSum (plane : Plane) (column row : Nat) : Nat :=
  if plane.enlargement.down = 2 then
    let near := row / 2
    let far := if row % 2 = 0 then near - 1 else min (near + 1) (plane.rows - 1)
    3 * plane.sample column near + plane.sample column far
  else plane.sample column row

/-- The value at a pixel between samples, rounded. Of two columns the nearer one counts three times; at the
edges there is only one. -/
def smoothValue (plane : Plane) (column row : Nat) : Nat :=
  let weight := plane.columnWeight
  if plane.enlargement.across = 2 then
    let near := column / 2
    let isEdge := if column % 2 = 0 then near = 0 else plane.columns ≤ near + 1
    if isEdge then (plane.columnSum near row + weight / 2) / weight
    else
      let far := if column % 2 = 0 then near - 1 else near + 1
      (3 * plane.columnSum near row + plane.columnSum far row + 2 * weight) / (4 * weight)
  else (plane.columnSum column row + weight / 2) / weight

def value (plane : Plane) (column row : Nat) : UInt8 :=
  let enlargement := plane.enlargement
  UInt8.ofNat
    (if enlargement.isSmooth then plane.smoothValue column row
     else plane.sample (column / enlargement.across) (row / enlargement.down))

end Plane

end RayTracer.Jpeg
