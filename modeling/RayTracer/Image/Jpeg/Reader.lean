import RayTracer.Image.Jpeg.Color
import RayTracer.Image.Jpeg.Plane
import RayTracer.Image.Jpeg.Scan

/-!
Reading photographs. Segments follow one another up to the end: tables, the frame, scans, and notes that can
tell what the channels mean. A channel is complete when scans have told all of its coefficients; what comes
later does not change it. In a progressive picture the others are shown as far as they have been told.
-/

namespace RayTracer.Jpeg

open ByteReader

inductive Meaning where
  | gray
  | color
  | luminance
  | inks
  /-- The inks but for the black one, as luminance with its differences. -/
  | luminanceInks
  deriving DecidableEq, Repr

/-- What notes say about the meaning of channels. -/
structure Notes where
  /-- Whether the name of the usual format for files is there. -/
  isNamed : Bool
  /-- The number of a transformation of colors. -/
  transformation : Option Nat
  deriving DecidableEq, Repr

/-- The meaning of the channels, which some identifiers tell at once. -/
def Frame.meaning? (frame : Frame) (notes : Notes) : Option Meaning :=
  match frame.channels.map (·.identifier.toNat) with
  | [_] => some .gray
  | [first, second, third] =>
    if (first, second, third) = (1, 2, 3) then some .luminance
    else if (first, second, third) = (82, 71, 66) then some .color
    else if (first, second, third) ∈ [(1, 34, 35), (114, 103, 98)] then none
    else if notes.isNamed then some .luminance
    else match notes.transformation with
      | none | some 1 => some .luminance
      | some 0 => some .color
      | some _ => none
  | _ => match notes.transformation with
    | none | some 0 => some .inks
    | some 2 => some .luminanceInks
    | some _ => none

def Meaning.toRgb8 (meaning : Meaning) (width column : Nat) (values : List UInt8) : Rgb8 :=
  let value (channel : Nat) : UInt8 := values.getD channel 0
  match meaning with
  | .gray => ⟨value 0, value 0, value 0⟩
  | .color => ⟨value 0, value 1, value 2⟩
  | .luminance => Luminance.toRgb8At width column ⟨value 0, value 1, value 2⟩
  | .inks => colorOfInks (255 - value 0) (255 - value 1) (255 - value 2) (255 - value 3)
  | .luminanceInks =>
    let inks := Luminance.toRgb8 ⟨value 0, value 1, value 2⟩
    colorOfInks inks.r inks.g inks.b (255 - value 3)

structure ChannelState where
  /-- The coefficients that have not been told up to their last bit. -/
  missing : List Nat
  /-- The samples, as soon as nothing is missing. -/
  samples : Option (Array (Array UInt8))

structure Progress where
  tables : Tables
  notes : Notes
  frame : Option Frame
  /-- The channels of the frame; there are none before the first scan. -/
  channels : Array ChannelState
  blocks : Array (Array Block)

namespace Progress

def empty : Progress := ⟨.empty, ⟨false, none⟩, none, #[], #[]⟩

/-- The state with all blocks blank, if no scan has been read. -/
def prepare (progress : Progress) (frame : Frame) : Progress :=
  if progress.channels.isEmpty then
    { progress with
      channels := (frame.channels.map fun _ => ⟨List.range 64, none⟩).toArray
      blocks := (frame.channels.map fun channel =>
        Array.replicate (frame.blockColumns channel * frame.blockRows channel) Block.zero).toArray }
  else progress

/-- The samples of the blocks of a channel with the steps that count now. -/
def render? (progress : Progress) (frame : Frame) (channel : Nat) : Option (Array (Array UInt8)) := do
  let steps ← progress.tables.steps.lookup (← frame.channels[channel]?).steps
  return (progress.blocks.getD channel #[]).map (samplesOf steps)

/-- The state after a scan of a channel: where nothing is missing any more, its samples are fixed. -/
def complete? (frame : Frame) (scan : Scan) (progress : Progress) (member : Member) : Option Progress := do
  let state ← progress.channels[member.channel]?
  if state.missing.isEmpty ∨ scan.low ≠ 0 then return progress
  let missing := state.missing.filter fun place => ¬ (scan.start ≤ place ∧ place < scan.stop)
  let samples ← if missing.isEmpty then (progress.render? frame member.channel).map some else some none
  return { progress with channels := progress.channels.setIfInBounds member.channel ⟨missing, samples⟩ }

/-- A scan, whose head is known, and the marker that follows it. Its channels need their steps. -/
def readScanBody (progress : Progress) (frame : Frame) (scan : Scan) : ByteReader (Progress × UInt8) := do
  let ⟨tables, notes, known, channels, blocks⟩ := progress.prepare frame
  guard (∀ member ∈ scan.members,
    (frame.channels[member.channel]?.bind fun channel => tables.steps.lookup channel.steps).isSome)
  let (blocks, marker) ← readCoefficients frame tables scan blocks
  let told : Progress := ⟨tables, notes, known, channels, blocks⟩
  let progress ← (scan.members.foldlM (complete? frame scan) told : Option Progress)
  return (progress, marker)

end Progress

/-- The content of a segment, whose length is told with the two bytes that tell it. -/
def readSegment : ByteReader (List UInt8) := do
  let length ← readField
  guard (2 ≤ length)
  take (length - 2)

def formatName : List UInt8 := [0x4a, 0x46, 0x49, 0x46, 0]

def transformationName : List UInt8 := [0x41, 0x64, 0x6f, 0x62, 0x65, 0]

/-- The notes with what a segment says. -/
def Notes.add? (notes : Notes) (marker : UInt8) (content : List UInt8) : Option Notes :=
  if marker = 0xe0 ∧ formatName.isPrefixOf content then some { notes with isNamed := true }
  else if marker = 0xee ∧ transformationName.isPrefixOf content then
    match content[11]? with
    | none => some notes
    | some number =>
      if number ≤ 2 then some { notes with transformation := some number.toNat } else none
  else some notes

def isNote (marker : UInt8) : Bool := 0xe0 ≤ marker && marker ≤ 0xef || marker = 0xfe

/-- A segment, and the marker that follows it if that has been read. -/
def Progress.readNext (progress : Progress) (marker : UInt8) : ByteReader (Progress × Option UInt8) := do
  let content ← readSegment
  let tables := progress.tables
  let fuel := content.length + 1
  if marker = 0xda then
    let some frame := progress.frame | failure
    let (scan, rest) ← readScan frame content
    guard rest.isEmpty
    let (progress, marker) ← progress.readScanBody frame scan
    return (progress, some marker)
  else if marker = 0xdb then
    let (steps, _) ← readSteps fuel tables.steps content
    return ({ progress with tables := { tables with steps := steps } }, none)
  else if marker = 0xc4 then
    let places := (progress.frame.map (·.process.codePlaces)).getD 4
    let (codes, _) ← readCodes places fuel tables.codes content
    return ({ progress with tables := { tables with codes := codes } }, none)
  else if marker = 0xdd then
    let (interval, rest) ← readField content
    guard rest.isEmpty
    return ({ progress with tables := { tables with interval := interval } }, none)
  else if isNote marker then
    return ({ progress with notes := ← progress.notes.add? marker content }, none)
  else
    let process ← Process.ofMarker? marker
    let (frame, rest) ← readFrame process content
    guard (rest.isEmpty ∧ progress.frame.isNone)
    guard (∀ channel ∈ frame.channels, (frame.enlargement? channel).isSome)
    let bytes := if frame.channels.length = 1 then 1 else 3
    guard (bytes * frame.width * frame.height ≤ Picture.decodingLimit)
    return ({ progress with frame := some frame }, none)

/-- Segments from a marker on up to the end. Every segment takes one unit of fuel. -/
def readSegments : Nat → UInt8 → Progress → ByteReader Progress
  | 0, _, _ => failure
  | fuel + 1, marker, progress => do
    if marker = 0xd9 then return progress
    let (progress, next) ← progress.readNext marker
    readSegments fuel (← match next with
      | some marker => pure marker
      | none => nextMarker fun _ => false) progress

/-- The planes of all channels. Those that are not complete count in a progressive picture only. -/
def Progress.planes? (progress : Progress) (frame : Frame) : Option (List Plane) :=
  frame.channels.zipIdx.mapM fun (channel, place) => do
    let state ← progress.channels[place]?
    let samples ← match state.samples with
      | some samples => some samples
      | none => if frame.process = .progressive then progress.render? frame place else none
    Plane.ofBlocks? frame channel samples

def Progress.picture? (progress : Progress) : Option Picture := do
  let frame ← progress.frame
  let planes ← progress.planes? frame
  let meaning ← frame.meaning? progress.notes
  let pixels : Id (Array Rgb8) := Rectangle.visit
    (fun (column, row) => pure (meaning.toRgb8 frame.width column (planes.map (·.value column row))))
    ⟨0, 0, frame.width, frame.height⟩
  return ⟨frame.width, frame.height, pixels.run⟩

def decode? (bytes : List UInt8) : Option Picture := do
  guard ([0xff, 0xd8].isPrefixOf bytes)
  let (marker, rest) ← nextMarker (fun _ => false) (bytes.drop 2)
  let (progress, _) ← readSegments bytes.length marker .empty rest
  progress.picture?

end RayTracer.Jpeg
