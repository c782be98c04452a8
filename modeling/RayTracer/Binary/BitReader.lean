/-!
Reading bits one after another from an array of bytes: the lowest bit of a byte first, in which case a reader
fails where the bytes end too early, or the highest bit first, in which case zeros follow them.
-/

namespace RayTracer

/-- Readers know the bytes and the position of the next bit. -/
abbrev BitReader := ReaderT (Array UInt8) (StateT Nat Option)

namespace BitReader

/-- The next bit, the lowest of a byte first. -/
def bit : BitReader Nat := do
  let position ← get
  match (← read)[position / 8]? with
  | some byte =>
    set (position + 1)
    return byte.toNat >>> (position % 8) % 2
  | none => failure

/-- A number of so many bits, the lowest first. -/
def number : Nat → BitReader Nat
  | 0 => return 0
  | count + 1 => do
    let low ← bit
    return low + 2 * (← number count)

/-- Pass over the bits that are left of a byte that has been begun. -/
def align : BitReader Unit := modify fun position => (position + 7) / 8 * 8

/-- A number of whole bytes. They start where the byte that has been begun ends. -/
def bytes (count : Nat) : BitReader (Array UInt8) := do
  align
  let start := (← get) / 8
  let data ← read
  guard (start + count ≤ data.size)
  set (8 * (start + count))
  return data.extract start (start + count)

/-- The next bit, the highest of a byte first, or zero where the bytes have ended. -/
def highBit : BitReader Nat := do
  let position ← get
  set (position + 1)
  return ((← read).getD (position / 8) 0).toNat >>> (7 - position % 8) % 2

/-- A number that starts with some bits and goes on with a number of further ones. -/
def highNumber (start : Nat) : Nat → BitReader Nat
  | 0 => return start
  | count + 1 => do highNumber (2 * start + (← highBit)) count

end BitReader

end RayTracer
