import RayTracer.Binary.ByteReader
import RayTracer.Image.Picture

/-!
Reading the Targa format. A header of eighteen bytes is followed by a comment, a map of colors and the
pixels, which are colors, shades of gray or positions in the map, either one by one or in packets of equal
and of different pixels. Colors are stored blue before green before red; opacity is passed over.
-/

namespace RayTracer.Targa

structure Header where
  commentLength : Nat
  mapKind : Nat
  kind : Nat
  mapOrigin : Nat
  mapLength : Nat
  mapEntryBits : Nat
  width : Nat
  height : Nat
  depth : Nat
  /-- The bits of opacity, and in which corner the picture starts. -/
  descriptor : Nat
  deriving DecidableEq, Repr

open ByteReader in
def readHeader : ByteReader Header := do
  let commentLength ← nat8
  let mapKind ← nat8
  let kind ← nat8
  let mapOrigin ← nat16
  let mapLength ← nat16
  let mapEntryBits ← nat8
  let _ ← take 4
  return ⟨commentLength, mapKind, kind, mapOrigin, mapLength, mapEntryBits, ← nat16, ← nat16, ← nat8,
    ← nat8⟩

/-- What the bytes of a pixel are. -/
inductive Channels where
  | gray
  | grayAlpha
  | color
  | colorAlpha
  deriving DecidableEq, Repr

def Channels.count : Channels → Nat
  | .gray => 1
  | .grayAlpha => 2
  | .color => 3
  | .colorAlpha => 4

/-- The pixel that bytes of its channels show. -/
def Channels.pixel (channels : Channels) (bytes : List UInt8) : Rgb8 :=
  match channels, bytes with
  | .gray, shade :: _ | .grayAlpha, shade :: _ => ⟨shade, shade, shade⟩
  | _, blue :: green :: red :: _ => ⟨red, green, blue⟩
  | _, _ => ⟨0, 0, 0⟩

namespace Header

def isMapped (header : Header) : Bool := header.kind = 1 || header.kind = 9

def isColored (header : Header) : Bool := header.isMapped || header.kind = 2 || header.kind = 10

def isPacked (header : Header) : Bool := header.kind = 9 || header.kind = 10 || header.kind = 11

def startsAtTop (header : Header) : Bool := header.descriptor / 32 % 2 = 1

def pixelBytes (header : Header) : Nat := (header.depth + 7) / 8

def entryBytes (header : Header) : Nat := (header.mapEntryBits + 7) / 8

/-- The channels of the picture, as the bits of opacity and the other bits tell. Where there is a map its
entries count, otherwise the stored pixels. -/
def channels? (header : Header) : Option Channels := do
  guard (header.depth % 8 = 0 ∧ header.depth ≤ 32)
  let opacity := header.descriptor % 16
  guard (header.mapKind ≠ 0 ∨ opacity ≤ header.depth)
  let others := if header.mapKind = 0 then header.depth - opacity else header.mapEntryBits
  if header.isColored then
    if others = 24 ∧ opacity = 0 then some .color
    else if others = 32 ∧ opacity = 0 ∨ others = 24 ∧ opacity = 8 then some .colorAlpha
    else none
  else if others = 8 ∧ opacity = 8 then some .grayAlpha
  else if others = 8 ∧ opacity = 0 ∨ others = 0 ∧ opacity = 8 then some .gray
  else none

end Header

/-- Bytes over and over, up to a length. -/
def cycle (length : Nat) (bytes : List UInt8) : List UInt8 :=
  ((List.replicate length bytes).flatten).take length

/-- The bytes of a packet: one pixel many times or many pixels, as its first byte tells. Bytes that the file
lacks at its end are left out. -/
def readPacket (pixelBytes : Nat) : ByteReader (List UInt8) := do
  let head ← ByteReader.nat8
  let length := (head % 128 + 1) * pixelBytes
  if 128 ≤ head then return cycle length (← ByteReader.takeUpTo pixelBytes)
  else ByteReader.takeUpTo length

/-- Packets up to a number of bytes at least. Every packet takes one unit of fuel. -/
def readPackets (pixelBytes needed : Nat) : Nat → Array UInt8 → ByteReader (Array UInt8)
  | 0, _ => failure
  | fuel + 1, stored => do
    if needed ≤ stored.size then return stored
    readPackets pixelBytes needed fuel (stored.appendList (← readPacket pixelBytes))

/-- The bytes of the stored pixels. No packet is without a byte, so the fuel outlasts the file. -/
def readStored (header : Header) : ByteReader (Array UInt8) := do
  let needed := header.width * header.height * header.pixelBytes
  if header.isPacked then
    let stored ← readPackets header.pixelBytes needed ((← get).length + 2) #[]
    return stored.take needed
  else return (← ByteReader.take needed).toArray

/-- The bytes of one of many things of a size; zeros stand for those that are missing. -/
def slice (bytes : Array UInt8) (size index : Nat) : List UInt8 :=
  (List.range size).map fun offset => bytes.getD (size * index + offset) 0

/-- The number that the bytes of a stored pixel write, the highest first. -/
def position (bytes : List UInt8) : Nat := bytes.foldl (fun n byte => 256 * n + byte.toNat) 0

/-- The entry of a map at a position. The origin of the map counts in bytes. -/
def entry? (header : Header) (map : Array UInt8) (index : Nat) : Option (List UInt8) :=
  let start := header.mapOrigin + header.entryBytes * index
  if start + header.entryBytes ≤ map.size then
    some (map.extract start (start + header.entryBytes)).toList
  else none

/-- The pixels of a file whose stored ones are positions in a map. -/
def mappedPixels? (header : Header) (channels : Channels) (map stored : Array UInt8) :
    Option (List Rgb8) := do
  let count := header.width * header.height
  guard (header.mapKind = 1 ∧ header.pixelBytes ≠ 0 ∧ (count = 0 ∨ header.entryBytes = channels.count))
  (List.range count).mapM fun index => do
    return channels.pixel (← entry? header map (position (slice stored header.pixelBytes index)))

/-- The pixels of a file that stores them as they are. Stored pixels of another size than their channels do
not line up with them: shorter ones leave the last pixels black, and of longer ones nothing is taken. -/
def plainPixels (header : Header) (channels : Channels) (stored : Array UInt8) : List Rgb8 :=
  let taken := if header.pixelBytes ≤ channels.count then stored else #[]
  (List.range (header.width * header.height)).map fun index =>
    channels.pixel (slice taken channels.count index)

def read : ByteReader Picture := do
  let header ← readHeader
  let _ ← ByteReader.takeUpTo header.commentLength
  let map ← ByteReader.take (if header.mapKind = 1 then header.entryBytes * header.mapLength else 0)
  let channels ← header.channels?
  guard (header.width * header.height * channels.count ≤ Picture.decodingLimit)
  let stored ← readStored header
  let pixels ←
    if header.isMapped then mappedPixels? header channels map.toArray stored
    else pure (plainPixels header channels stored)
  let picture : Picture := ⟨header.width, header.height, pixels.toArray⟩
  return if header.startsAtTop then picture else picture.upsideDown

def decode? (bytes : List UInt8) : Option Picture := (read bytes).map (·.1)

end RayTracer.Targa
