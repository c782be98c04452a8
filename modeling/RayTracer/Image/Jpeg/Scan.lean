import RayTracer.Binary.BitReader
import RayTracer.Image.Jpeg.Frame
import RayTracer.Image.Jpeg.Transform

/-!
Reading the coefficients of a scan. They are told in codewords and bits, and blocks have to be read one after
another: the first coefficient of a block counts from the one before, and several blocks can end together.
Restarts part a scan into stretches that do not depend on one another.
-/

namespace RayTracer.Jpeg

open BitReader Compression

/-- The number that some bits stand for: those that begin with zero are negative. -/
def signed (size value : Nat) : Int :=
  if 2 * value < 1 <<< size then (value : Int) - (1 <<< size : Nat) + 1 else value

def readSigned (size : Nat) : BitReader Int := do return signed size (← highNumber 0 size)

/-- The most bits of a difference between first coefficients. -/
def longestDifference : Nat := 11

/-- The first coefficient of a block after another one. -/
def readFirst (code : PrefixCode) (before : Int) : BitReader Int := do
  let size ← code.read highBit
  guard (size ≤ longestDifference)
  return wrap (before + (← readSigned size))

/-- The block with a coefficient at a place in the order of files. -/
def Block.put (block : Block) (place : Nat) (x : Int) : Block :=
  block.setIfInBounds (diagonalOrder.getD place 0) x

/-- The number of blocks that end with the one at hand, counted without it. -/
def readEnds (bits : Nat) : BitReader Nat := do return (← highNumber 1 bits) - 1

/-- The coefficients from one on, and the number of blocks after this one of which none is told. A codeword
says how many zeros come before a coefficient and how many bits it has. Zeros can lead out of the block; if
the codeword and the bits have room in a byte together, the bits are then there nevertheless. -/
def readRuns (code : PrefixCode) (scan : Scan) (place : Nat) (block : Block) :
    BitReader (Block × Nat) := do
  if place < scan.stop then
    let position ← get
    let symbol ← code.read highBit
    let zeros := symbol / 16
    let size := symbol % 16
    if size = 0 ∧ zeros < 15 then return (block, ← readEnds zeros)
    else if size = 0 then readRuns code scan (place + 16) block
    else if place + zeros < scan.stop then
      let x ← readSigned size
      readRuns code scan (place + zeros + 1) (block.put (place + zeros) (wrap (x * (1 <<< scan.low : Nat))))
    else
      if (← get) - position + size ≤ 8 then modify (· + size)
      return (block, 0)
  else return (block, 0)
termination_by scan.stop - place

/-- A coefficient with one more bit, which takes it away from zero. -/
def readGrowth (low : Nat) (x : Int) : BitReader Int := do
  let bit ← highBit
  if bit = 1 ∧ x >>> low % 2 = 0 then
    let grown := if 0 < x then x + (1 <<< low : Nat) else x - (1 <<< low : Nat)
    guard (clip grown = grown)
    return grown
  else return x

/-- One more bit for all coefficients from one on that are not zero, up to the zero that comes after a number
of others, or up to the last one. The place of that coefficient comes with the block. -/
def growBlock (scan : Scan) (place zeros : Nat) (block : Block) : BitReader (Nat × Block) := do
  if place < scan.stop then
    let x := block.getD (diagonalOrder.getD place 0) 0
    if x ≠ 0 then growBlock scan (place + 1) zeros (block.put place (← readGrowth scan.low x))
    else if zeros = 0 then return (place, block)
    else growBlock scan (place + 1) (zeros - 1) block
  else return (scan.stop - 1, block)
termination_by scan.stop - place

/-- The coefficients from one on, more closely, and the number of blocks after this one in which nothing new
begins. A codeword says how many zeros stay zeros before one that does not. Every codeword takes one unit
of fuel. -/
def growRuns (code : PrefixCode) (scan : Scan) : Nat → Nat → Block → BitReader (Block × Nat)
  | 0, _, _ => failure
  | fuel + 1, place, block => do
    if scan.stop ≤ place then return (block, 0)
    let symbol ← code.read highBit
    let zeros := symbol / 16
    let size := symbol % 16
    if size = 0 ∧ zeros < 15 then
      let ends ← readEnds zeros
      return ((← growBlock scan place scan.stop block).2, ends)
    guard (size ≤ 1)
    let begun ← highNumber 0 size
    let (place, block) ← growBlock scan place zeros block
    let bit : Int := (1 <<< scan.low : Nat)
    let block := if size = 0 then block else block.put place (if begun = 1 then bit else -bit)
    growRuns code scan fuel (place + 1) block

structure MemberCodes where
  channel : Nat
  sizes : PrefixCode
  runs : PrefixCode
  deriving DecidableEq, Repr

/-- What has been read of a picture, seen from within a scan. -/
structure ScanState where
  /-- The first coefficients of the last blocks, by members of the scan. -/
  before : Array Int
  /-- The number of blocks to come in which nothing begins. -/
  ended : Nat
  blocks : Array (Array Block)

/-- The state at the start of a stretch. -/
def ScanState.restart (state : ScanState) : ScanState :=
  { state with before := state.before.map fun _ => 0, ended := 0 }

def readBlock (scan : Scan) (codes : MemberCodes) (before : Int) (ended : Nat) (block : Block) :
    BitReader (Int × Nat × Block) := do
  let before ← if scan.start = 0 then readFirst codes.sizes before else pure before
  let block := if scan.start = 0 then block.put 0 (wrap (before * (1 <<< scan.low : Nat))) else block
  if max scan.start 1 < scan.stop ∧ 0 < ended then return (before, ended - 1, block)
  let (block, more) ← readRuns codes.runs scan (max scan.start 1) block
  return (before, ended + more, block)

def growKnown (scan : Scan) (codes : MemberCodes) (ended : Nat) (block : Block) :
    BitReader (Nat × Block) := do
  if scan.start = 0 then
    let x := block.getD 0 0
    let bit ← highBit
    let isNew := bit = 1 ∧ x >>> scan.low % 2 = 0
    return (ended, if isNew then block.put 0 (x + (1 <<< scan.low : Nat)) else block)
  else if 0 < ended then return (ended - 1, (← growBlock scan scan.start scan.stop block).2)
  else
    let (block, more) ← growRuns codes.runs scan scan.stop scan.start block
    return (more, block)

/-- One more block: of a member of the scan, at a position. -/
def readNext (scan : Scan) (codes : Array MemberCodes) (state : ScanState) (next : Nat × Nat) :
    BitReader ScanState := do
  let (member, position) := next
  let some code := codes[member]? | failure
  let ⟨before, ended, blocks⟩ := state
  let block := (blocks.getD code.channel #[]).getD position Block.zero
  let (first, ended, block) ←
    if scan.refines then do
      let (ended, block) ← growKnown scan code ended block
      pure ((0 : Int), ended, block)
    else readBlock scan code (before.getD member 0) ended block
  return ⟨before.setIfInBounds member first, ended,
    blocks.modify code.channel (·.setIfInBounds position block)⟩

/-- The next marker that is not passed over. What comes before it does not matter. -/
def nextMarker (passed : UInt8 → Bool) : ByteReader UInt8
  | first :: code :: rest =>
    if first = 0xff ∧ code ≠ 0 ∧ code ≠ 0xff ∧ !passed code then some (code, rest)
    else nextMarker passed (code :: rest)
  | _ => none

/-- The bytes up to the next marker, behind those that there are, and that marker. A zero after a byte that
could begin a marker is not one of them. -/
def takeCoded (found : Array UInt8) : ByteReader (Array UInt8 × UInt8)
  | [] => none
  | [_] => none
  | first :: second :: rest =>
    if first ≠ 0xff then takeCoded (found.push first) (second :: rest)
    else if second = 0 then takeCoded (found.push first) rest
    else match (second :: rest).dropWhile (· = 0xff) with
      | [] => none
      | code :: rest => if code = 0 then none else some ((found, code), rest)

def isRestart (marker : UInt8) : Bool := 0xd0 ≤ marker && marker ≤ 0xd7

/-- The most bits that can be left over before a restart. -/
def longestRemainder : Nat := 56

/-- The groups of blocks in stretches of a length, which is told without the first group of each, and the
marker at the end. The stretches are numbered by the markers between them. -/
def readStretches (scan : Scan) (codes : Array MemberCodes) (length : Nat) :
    Nat → ScanState → List (List (Nat × Nat)) → ByteReader (ScanState × UInt8)
  | _, state, [] => return (state, (← takeCoded #[]).2)
  | number, state, first :: others => do
    let (data, marker) ← takeCoded #[]
    let blocks := (first :: others.take length).flatten
    let (state, position) ← (blocks.foldlM (readNext scan codes) state : BitReader ScanState) data 0
    let rest := others.drop length
    if rest.isEmpty then return (state, marker)
    if marker.toNat = 0xd0 + number % 8 ∧ 8 * data.size ≤ position + longestRemainder then
      readStretches scan codes length (number + 1) state.restart rest
    else failure
termination_by _ _ groups => groups.length
decreasing_by simp only [List.length_drop, List.length_cons]; omega

/-- The codes that a scan needs. -/
def Tables.codesOf? (tables : Tables) (scan : Scan) (member : Member) : Option MemberCodes := do
  let find (needed : Bool) (kind place : Nat) : Option PrefixCode :=
    if needed then tables.codes.lookup (kind, place) else some ⟨[], #[]⟩
  let sizes ← find (scan.start = 0) 0 member.sizes
  let runs ← find (1 < scan.stop) 1 member.runs
  return ⟨member.channel, sizes, runs⟩

/-- The blocks of all channels after a scan, and the marker that follows it. -/
def readCoefficients (frame : Frame) (tables : Tables) (scan : Scan) (blocks : Array (Array Block)) :
    ByteReader (Array (Array Block) × UInt8) := do
  let codes ← scan.members.mapM fun member => (tables.codesOf? scan member : Option MemberCodes)
  let groups := frame.groups scan
  let length := if tables.interval = 0 then groups.length else tables.interval - 1
  let start : ScanState := ⟨Array.replicate codes.length 0, 0, blocks⟩
  let (state, marker) ← readStretches scan codes.toArray length 0 start groups
  return (state.blocks, ← if isRestart marker then nextMarker isRestart else pure marker)

end RayTracer.Jpeg
