/-!
The two orders in which the bytes of a word are stored.
-/

namespace RayTracer

inductive ByteOrder where
  | littleEndian
  | bigEndian
  deriving DecidableEq, Repr

namespace ByteOrder

def bytes (order : ByteOrder) (word : UInt32) : List UInt8 :=
  let ascending :=
    [word.toUInt8, (word >>> 8).toUInt8, (word >>> 16).toUInt8, (word >>> 24).toUInt8]
  match order with
  | .littleEndian => ascending
  | .bigEndian => ascending.reverse

def word (order : ByteOrder) (a b c d : UInt8) : UInt32 :=
  match order with
  | .littleEndian =>
    a.toUInt32 ||| (b.toUInt32 <<< 8) ||| (c.toUInt32 <<< 16) ||| (d.toUInt32 <<< 24)
  | .bigEndian =>
    d.toUInt32 ||| (c.toUInt32 <<< 8) ||| (b.toUInt32 <<< 16) ||| (a.toUInt32 <<< 24)

end ByteOrder

end RayTracer
