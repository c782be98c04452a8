import RayTracer.Binary.ByteReader
import RayTracer.Image.Jpeg.Tables
import RayTracer.Image.Rectangle

/-!
The heads of photographs. A frame tells the channels of the pixels, some of which are sampled more finely than
others. A scan tells which channels and which coefficients of their blocks it holds, and in what order the
blocks follow one another.
-/

namespace RayTracer.Jpeg

open ByteReader Compression

/-- A number of two bytes, the higher first. -/
def readField : ByteReader Nat := do return 256 * (← nat8) + (← nat8)

/-- One of the channels that the colors of pixels consist of. -/
structure Channel where
  identifier : UInt8
  /-- The number of blocks side by side in an area for which other channels have other numbers. -/
  across : Nat
  /-- The number of blocks one below the other in that area. -/
  down : Nat
  steps : Nat
  deriving DecidableEq, Repr

/-- How the coefficients are spread over scans. The first two ways have whole blocks in a scan. -/
inductive Process where
  | baseline
  | sequential
  | progressive
  deriving DecidableEq, Repr

/-- The process that the marker of a frame stands for. -/
def Process.ofMarker? (marker : UInt8) : Option Process :=
  if marker = 0xc0 then some .baseline
  else if marker = 0xc1 then some .sequential
  else if marker = 0xc2 then some .progressive
  else none

def Process.codePlaces (process : Process) : Nat := if process = .baseline then 2 else 4

structure Frame where
  process : Process
  width : Nat
  height : Nat
  channels : List Channel
  deriving DecidableEq, Repr

namespace Frame

/-- The most blocks of a channel side by side in an area. -/
def across (frame : Frame) : Nat := (frame.channels.map (·.across)).foldl max 1

/-- The most blocks of a channel one below the other in an area. -/
def down (frame : Frame) : Nat := (frame.channels.map (·.down)).foldl max 1

def areaColumns (frame : Frame) : Nat :=
  (frame.width + blockSide * frame.across - 1) / (blockSide * frame.across)

def areaRows (frame : Frame) : Nat :=
  (frame.height + blockSide * frame.down - 1) / (blockSide * frame.down)

/-- The blocks of a channel, of which those at the far edges may lie outside the picture. -/
def blockColumns (frame : Frame) (channel : Channel) : Nat := frame.areaColumns * channel.across

def blockRows (frame : Frame) (channel : Channel) : Nat := frame.areaRows * channel.down

end Frame

def readChannel : ByteReader Channel := do
  let identifier ← byte
  let sampling ← nat8
  let steps ← nat8
  let channel : Channel := ⟨identifier, sampling / 16, sampling % 16, steps⟩
  guard (1 ≤ channel.across ∧ channel.across ≤ 4 ∧ 1 ≤ channel.down ∧ channel.down ≤ 4 ∧ steps ≤ 3)
  return channel

/-- A frame of samples of eight bits, with one, three or four channels. -/
def readFrame (process : Process) : ByteReader Frame := do
  let precision ← nat8
  let height ← readField
  let width ← readField
  let count ← nat8
  guard (precision = 8 ∧ 0 < height ∧ 0 < width ∧ count ∈ [1, 3, 4])
  let channels ← (List.range count).mapM fun _ => readChannel
  guard (channels.map (·.identifier)).Nodup
  return ⟨process, width, height, channels⟩

structure Member where
  channel : Nat
  /-- The place of the code for the sizes of first coefficients. -/
  sizes : Nat
  /-- The place of the code for the other coefficients. -/
  runs : Nat
  deriving DecidableEq, Repr

structure Scan where
  members : List Member
  /-- The first of the coefficients that the scan holds, in the order of files. -/
  start : Nat
  /-- The first coefficient after them. -/
  stop : Nat
  /-- Whether the coefficients have been told before, without their lowest bits. -/
  refines : Bool
  /-- The number of bits of coefficients that are left to later scans. -/
  low : Nat
  deriving DecidableEq, Repr

def readMember (frame : Frame) : ByteReader Member := do
  let identifier ← byte
  let places ← nat8
  let some channel := frame.channels.findIdx? fun channel => channel.identifier = identifier | failure
  guard (places / 16 < frame.process.codePlaces ∧ places % 16 < frame.process.codePlaces)
  return ⟨channel, places / 16, places % 16⟩

/-- The number of blocks of some channels in an area. -/
def Frame.areaBlocks (frame : Frame) (members : List Member) : Nat :=
  (members.filterMap fun member => frame.channels[member.channel]?).foldl
    (fun blocks channel => blocks + channel.across * channel.down) 0

/-- The coefficients that a scan of a picture holds. Scans of whole blocks hold all of them, and can leave the
last one unsaid. Otherwise the first coefficients are told apart from the others, which are told for one
channel at a time; and every later scan tells one more bit. -/
def readSelection (process : Process) (members : List Member) : ByteReader Scan := do
  let start ← nat8
  let last ← nat8
  let bits ← nat8
  let high := bits / 16
  let low := bits % 16
  if process = .progressive then
    guard (start ≤ last ∧ last ≤ 63 ∧ (start = 0 → last = 0) ∧ (start ≠ 0 → members.length = 1))
    guard (high ≤ 13 ∧ low ≤ 13 ∧ (high = 0 ∨ high = low + 1))
    return ⟨members, start, last + 1, high ≠ 0, low⟩
  else
    guard (start = 0 ∧ (last = 0 ∨ last = 63) ∧ bits = 0)
    return ⟨members, 0, 64, false, 0⟩

/-- The head of a scan. Its channels come in the order of the frame. -/
def readScan (frame : Frame) : ByteReader Scan := do
  let count ← nat8
  guard (1 ≤ count ∧ count ≤ 4)
  let members ← (List.range count).mapM fun _ => readMember frame
  guard ((members.map (·.channel)).Pairwise (· < ·))
  guard (count = 1 ∨ frame.areaBlocks members ≤ 10)
  readSelection frame.process members

/-- The blocks of a scan in their order, as members of the scan and positions among the blocks of a channel.
They come in groups that can be parted from one another: areas, or single blocks where there is only one
channel, in which case those outside the picture are missing. -/
def Frame.groups (frame : Frame) (scan : Scan) : List (List (Nat × Nat)) :=
  let channels := scan.members.filterMap fun member => frame.channels[member.channel]?
  match channels with
  | [channel] =>
    let columns := min (frame.blockColumns channel) ((frame.width + blockSide - 1) / blockSide)
    let rows := min (frame.blockRows channel) ((frame.height + blockSide - 1) / blockSide)
    (Rectangle.positions ⟨0, 0, columns, rows⟩).map fun (column, row) =>
      [(0, row * frame.blockColumns channel + column)]
  | channels =>
    let offsets := channels.zipIdx.flatMap fun (channel, member) =>
      (Rectangle.positions ⟨0, 0, channel.across, channel.down⟩).map fun (column, row) =>
        (channel, member, column, row)
    (Rectangle.positions ⟨0, 0, frame.areaColumns, frame.areaRows⟩).map fun (areaColumn, areaRow) =>
      offsets.map fun (channel, member, column, row) =>
        (member, (areaRow * channel.down + row) * frame.blockColumns channel
          + areaColumn * channel.across + column)

/-- The tables that count for the next scan. Those that come later stand before those that they replace. -/
structure Tables where
  /-- Quantization steps by their places, row by row. -/
  steps : List (Nat × Array Nat)
  /-- Codes by their kinds, sizes first and runs then, and by their places. -/
  codes : List ((Nat × Nat) × PrefixCode)
  /-- The number of groups of blocks between restarts, or zero where there are none. -/
  interval : Nat
  deriving DecidableEq, Repr

def Tables.empty : Tables := ⟨[], [], 0⟩

/-- What comes in the order of files, row by row. -/
def rowByRow (values : List Nat) : Array Nat :=
  (diagonalOrder.toList.zip values).foldl (fun table (place, value) => table.setIfInBounds place value)
    (Array.replicate 64 0)

/-- Quantization steps up to the end of a segment, before others. Every table takes one unit of fuel. -/
def readSteps : Nat → List (Nat × Array Nat) → ByteReader (List (Nat × Array Nat))
  | 0, _ => failure
  | fuel + 1, others => do
    if (← get).isEmpty then return others
    let head ← nat8
    guard (head / 16 ≤ 1 ∧ head % 16 ≤ 3)
    let values ← (List.range 64).mapM fun _ => if head / 16 = 0 then nat8 else readField
    guard (∀ value ∈ values, value ≠ 0)
    readSteps fuel ((head % 16, rowByRow values) :: others)

/-- Codes up to the end of a segment, before others. Every code takes one unit of fuel. -/
def readCodes (places : Nat) :
    Nat → List ((Nat × Nat) × PrefixCode) → ByteReader (List ((Nat × Nat) × PrefixCode))
  | 0, _ => failure
  | fuel + 1, others => do
    if (← get).isEmpty then return others
    let head ← nat8
    guard (head / 16 ≤ 1 ∧ head % 16 < places)
    let counts := (← take 16).map (·.toNat)
    let size := counts.foldl (· + ·) 0
    guard (1 ≤ size ∧ size ≤ 256)
    let symbols := (← take size).map (·.toNat)
    let code : PrefixCode := ⟨counts, symbols.toArray⟩
    guard code.isPossible
    readCodes places fuel (((head / 16, head % 16), code) :: others)

end RayTracer.Jpeg
