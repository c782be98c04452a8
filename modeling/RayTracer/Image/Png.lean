import RayTracer.Binary.ByteOrder
import RayTracer.Image.Picture

/-!
Writing portable network graphics without compression: three chunks, of which the second holds the rows in
blocks that are stored as they are. Every chunk ends with a cyclic checksum and the blocks with a sum of
their own.
-/

namespace RayTracer.Png

def field (word : UInt32) : List UInt8 := ByteOrder.bigEndian.bytes word

/-- One bit of the cyclic checksum. -/
def cyclicBit (register : UInt32) : UInt32 :=
  if register &&& 1 = 1 then (register >>> 1) ^^^ 0xedb88320 else register >>> 1

def cyclicByte (register : UInt32) (byte : UInt8) : UInt32 :=
  Nat.repeat cyclicBit 8 (register ^^^ byte.toUInt32)

def cyclicChecksum (bytes : List UInt8) : UInt32 :=
  bytes.foldl cyclicByte 0xffffffff ^^^ 0xffffffff

/-- The sum of all bytes and the sum of its values on the way, both modulo a prime. -/
def runningSums (bytes : List UInt8) : Nat × Nat :=
  bytes.foldl
    (fun (sum, total) byte =>
      let next := (sum + byte.toNat) % 65521
      (next, (total + next) % 65521))
    (1, 0)

def blockChecksum (bytes : List UInt8) : UInt32 :=
  let (sum, total) := runningSums bytes
  UInt32.ofNat (65536 * total + sum)

def blockSize : Nat := 65535

/-- A stored block: whether it is the last, its length, the complement of its length, its bytes. -/
def storedBlock (isLast : Bool) (bytes : List UInt8) : List UInt8 :=
  let length := (ByteOrder.littleEndian.bytes (UInt32.ofNat bytes.length)).take 2
  [if isLast then 1 else 0] ++ length ++ length.map (~~~ ·) ++ bytes

/-- Bytes in stored blocks, of which at least one is written. -/
def storedBlocks (bytes : List UInt8) : List UInt8 :=
  if _ : bytes.length ≤ blockSize then storedBlock true bytes
  else storedBlock false (bytes.take blockSize) ++ storedBlocks (bytes.drop blockSize)
termination_by bytes.length
decreasing_by
  simp only [blockSize, List.length_drop] at *
  omega

/-- A stream of stored blocks: two bytes that state the window and the level, the blocks and their
checksum. -/
def stream (bytes : List UInt8) : List UInt8 :=
  [0x78, 0x01] ++ storedBlocks bytes ++ field (blockChecksum bytes)

def signature : List UInt8 := [0x89, 0x50, 0x4e, 0x47, 0x0d, 0x0a, 0x1a, 0x0a]

/-- A chunk: its length, its name, its content and the checksum of the two. -/
def chunk (name : List UInt8) (content : List UInt8) : List UInt8 :=
  field (UInt32.ofNat content.length) ++ name ++ content ++ field (cyclicChecksum (name ++ content))

/-- The size, eight bits for each of three channels, and the only methods that there are. -/
def headerChunk (width height : Nat) : List UInt8 :=
  chunk [0x49, 0x48, 0x44, 0x52]
    (field (UInt32.ofNat width) ++ field (UInt32.ofNat height) ++ [8, 2, 0, 0, 0])

/-- A row: the mark that its bytes are not filtered, then the bytes. -/
def rowBytes (picture : Picture) (row : Nat) : List UInt8 :=
  0 :: (picture.row row).toList.flatMap fun pixel => [pixel.r, pixel.g, pixel.b]

def dataChunk (picture : Picture) : List UInt8 :=
  chunk [0x49, 0x44, 0x41, 0x54]
    (stream ((List.range picture.height).flatMap (rowBytes picture)))

def endChunk : List UInt8 := chunk [0x49, 0x45, 0x4e, 0x44] []

def encode (picture : Picture) : List UInt8 :=
  signature ++ headerChunk picture.width picture.height ++ dataChunk picture ++ endChunk

end RayTracer.Png
