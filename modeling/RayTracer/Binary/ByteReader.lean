import RayTracer.Binary.ByteOrder

/-!
Reading from the head of a list of bytes. A reader takes what it reads away and fails where the bytes end
too early.
-/

namespace RayTracer

/-- The bytes up to the next line feed or the end, and the bytes after that line feed. -/
def Binary.takeLine (bytes : List UInt8) : List UInt8 × List UInt8 :=
  (bytes.takeWhile (· ≠ 10), (bytes.dropWhile (· ≠ 10)).drop 1)

abbrev ByteReader := StateT (List UInt8) Option

namespace ByteReader

def byte : ByteReader UInt8
  | [] => none
  | first :: rest => some (first, rest)

def take (count : Nat) : ByteReader (List UInt8) := fun bytes =>
  let taken := bytes.take count
  if taken.length = count then some (taken, bytes.drop count) else none

/-- A number of bytes, or as many as there are. -/
def takeUpTo (count : Nat) : ByteReader (List UInt8) := fun bytes =>
  some (bytes.take count, bytes.drop count)

/-- A line, without the line feed that ends it. There is none where the bytes have ended. -/
def line : ByteReader (List UInt8)
  | [] => none
  | bytes => some (Binary.takeLine bytes)

def nat8 : ByteReader Nat := do return (← byte).toNat

/-- A number of two bytes, the lower one first. -/
def nat16 : ByteReader Nat := do
  let low ← nat8
  return low + 256 * (← nat8)

def word (order : ByteOrder) : ByteReader UInt32 := do
  return order.word (← byte) (← byte) (← byte) (← byte)

def nat32 (order : ByteOrder) : ByteReader Nat := do return (← word order).toNat

end ByteReader

end RayTracer
