import RayTracer.Binary.ByteOrder
import RayTracer.Scalar

/-!
A permuted congruential generator: 64 bits of state advanced by a linear congruence, 32 bits of output
per draw. A draw is a value together with the generator that follows, so a computation that threads the
generator says by itself how many numbers it consumed.
-/

namespace RayTracer

/-- The state of a generator and the increment that selects its stream. -/
structure Pcg where
  state : UInt64
  inc : UInt64
  deriving DecidableEq, Repr

namespace Pcg

def multiplier : UInt64 := 6364136223846793005

def next (g : Pcg) : Pcg :=
  { g with state := multiplier * g.state + g.inc }

/-- The number that a state stands for: its high bits are folded onto the middle ones, 32 bits are kept,
and the top five bits say how far these are rotated to the right. -/
def output (state : UInt64) : UInt32 :=
  let folded := (((state >>> 18) ^^^ state) >>> 27).toUInt32
  let rotation := (state >>> 59).toUInt32
  (folded >>> rotation) ||| (folded <<< (32 - rotation))

/-- One draw: the output of the present state, and the generator after it. -/
def draw (g : Pcg) : UInt32 × Pcg :=
  (output g.state, g.next)

/-- Seed a generator on the stream `stream`, of which 63 bits count. Two draws mix the seed in. -/
def seeded (start stream : UInt64) : Pcg :=
  let blank : Pcg := ⟨0, (stream <<< 1) ||| 1⟩
  let first := blank.next
  next { first with state := first.state + start }

/-- The number of the closed unit interval that a draw stands for; both ends are reachable. -/
def unitOf {α : Type} [Scalar α] (word : UInt32) : α :=
  Scalar.ofNat word.toNat / Scalar.ofNat 4294967295

def drawUnit {α : Type} [Scalar α] (g : Pcg) : α × Pcg :=
  let (word, rest) := g.draw
  (unitOf word, rest)

/-- Two draws as one number, the low half first. -/
def drawPair (g : Pcg) : UInt64 × Pcg :=
  let (low, g₁) := g.draw
  let (high, g₂) := g₁.draw
  ((high.toUInt64 <<< 32) ||| low.toUInt64, g₂)

/-- A number of successive draws. -/
def draws : Nat → Pcg → List UInt32 × Pcg
  | 0, g => ([], g)
  | count + 1, g =>
    let (word, g₁) := g.draw
    let (rest, g₂) := draws count g₁
    (word :: rest, g₂)

/-- Random bytes, four from each draw, the lowest first; of the last draw those that are too many are
dropped. -/
def bytes (count : Nat) (g : Pcg) : List UInt8 × Pcg :=
  let (words, rest) := g.draws ((count + 3) / 4)
  ((words.flatMap ByteOrder.littleEndian.bytes).take count, rest)

def skip : Nat → Pcg → Pcg
  | 0, g => g
  | count + 1, g => skip count g.next

end Pcg

end RayTracer
