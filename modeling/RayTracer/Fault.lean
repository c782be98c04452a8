/-!
The ways a computation can stop short: requests that no image, shape or counter can meet. They are
causes; `Fault.message` is the one place that words them.
-/

namespace RayTracer

/-- The kinds of triples that are indexed by component. -/
inductive TripleKind where
  | vector
  | point
  | normal
  deriving DecidableEq, Repr

def TripleKind.name : TripleKind → String
  | .vector => "Vector"
  | .point => "Point"
  | .normal => "Normal"

/-- Why a computation gave no result. Sizes and counters are 64-bit, ray depths 32-bit. -/
inductive Fault where
  | componentOutOfRange (kind : TripleKind) (index : Nat)
  | pixelOutside (x y width height : Nat)
  | pixelMissing (available offset : Nat)
  | zeroBucketSize
  | noScatteredRays
  | sumOverflow
  | differenceOverflow
  | productOverflow
  | depthOverflow
  | bufferTooLarge
  | pictureTooLarge
  /-- Rows without pixels cannot be told apart. -/
  | emptyRows
  deriving DecidableEq, Repr

/-- How a computation that reports errors ends without a result: with an error of its own, or short at a fault. -/
inductive Halt (ε : Type) where
  | reported (error : ε)
  | fault (reason : Fault)
  deriving DecidableEq, Repr

def Halt.map {ε δ : Type} (wrap : ε → δ) : Halt ε → Halt δ
  | .reported error => .reported (wrap error)
  | .fault reason => .fault reason

def Fault.message : Fault → String
  | .componentOutOfRange kind index =>
    kind.name ++ " component index out of range: " ++ toString index
  | .pixelOutside x y width height =>
    "pixel (" ++ toString x ++ ", " ++ toString y ++ ") outside a " ++ toString width ++ "x"
      ++ toString height ++ " image"
  | .pixelMissing available offset =>
    "index out of bounds: the len is " ++ toString available ++ " but the index is "
      ++ toString offset
  | .zeroBucketSize => "bucket size must be positive"
  | .noScatteredRays => "num_of_rays must be positive"
  | .sumOverflow | .depthOverflow => "attempt to add with overflow"
  | .differenceOverflow => "attempt to subtract with overflow"
  | .productOverflow => "attempt to multiply with overflow"
  | .bufferTooLarge => "capacity overflow"
  | .pictureTooLarge => "Buffer length in `ImageBuffer::new` overflows usize"
  | .emptyRows => "chunk size must be non-zero"

/-- A sum of sizes. One that does not fit in 64 bits is a fault, as it is where arithmetic is checked; without the
checks it would be taken modulo two to the power of 64. -/
def addSizes (a b : Nat) : Except Fault Nat :=
  if a + b < UInt64.size then .ok (a + b) else .error .sumOverflow

/-- A product of sizes. One that does not fit in 64 bits is a fault, as it is where arithmetic is checked; without
the checks it would be taken modulo two to the power of 64. -/
def mulSizes (a b : Nat) : Except Fault Nat :=
  if a * b < UInt64.size then .ok (a * b) else .error .productOverflow

/-- A product of counts, which have 32 bits. One that does not fit is a fault where sizes that do not fit are. -/
def mulCounts (a b : Nat) : Except Fault Nat :=
  if a * b < UInt32.size then .ok (a * b) else .error .productOverflow

end RayTracer
