/-!
Reading text from bytes that need not be text. A code point is coded in one to four bytes; where the
bytes at hand are no code point, the longest run that still could begin one is replaced as a whole.
-/

namespace RayTracer.Text

/-- The character that stands for bytes that are no text. -/
def replacement : Char := Char.ofNat 0xfffd

/-- What the bytes at the head of a text are: a character or nothing, and how many bytes after the first
belong to it. -/
structure Scanned where
  character : Option Char
  following : Nat

/-- The lowest and the highest second byte after a first byte of a longer code. The bounds keep out
overlong codes, surrogates and code points beyond the last. -/
def secondByteRange (first : UInt8) : UInt8 × UInt8 :=
  if first == 0xe0 then (0xa0, 0xbf)
  else if first == 0xed then (0x80, 0x9f)
  else if first == 0xf0 then (0x90, 0xbf)
  else if first == 0xf4 then (0x80, 0x8f)
  else (0x80, 0xbf)

/-- How many bytes follow a first byte; none for a byte that begins no longer code. -/
def followingCount (first : UInt8) : Nat :=
  if 0xc2 ≤ first && first ≤ 0xdf then 1
  else if 0xe0 ≤ first && first ≤ 0xef then 2
  else if 0xf0 ≤ first && first ≤ 0xf4 then 3
  else 0

def isContinuation (byte : UInt8) : Bool := 0x80 ≤ byte && byte ≤ 0xbf

/-- The number of the bytes at the head of `rest` that can follow the first byte. -/
def matchedCount (first : UInt8) (rest : List UInt8) : Nat :=
  match rest.take (followingCount first) with
  | [] => 0
  | second :: others =>
    let (low, high) := secondByteRange first
    if low ≤ second && second ≤ high then 1 + (others.takeWhile isContinuation).length else 0

/-- The code point of a whole code. -/
def codePoint (first : UInt8) (following : List UInt8) : Nat :=
  let lead := match following.length with
    | 1 => first.toNat % 32
    | 2 => first.toNat % 16
    | _ => first.toNat % 8
  following.foldl (fun code byte => code * 64 + byte.toNat % 64) lead

def scan (first : UInt8) (rest : List UInt8) : Scanned :=
  if first < 0x80 then ⟨some (Char.ofNat first.toNat), 0⟩
  else
    let wanted := followingCount first
    let found := matchedCount first rest
    if wanted ≠ 0 && found = wanted then
      ⟨some (Char.ofNat (codePoint first (rest.take wanted))), wanted⟩
    else ⟨none, found⟩

/-- The pieces of a byte string: its characters, and nothing where bytes are no text. -/
def pieces : List UInt8 → List (Option Char)
  | [] => []
  | first :: rest =>
    let scanned := scan first rest
    scanned.character :: pieces (rest.drop scanned.following)
termination_by bytes => bytes.length
decreasing_by simp only [List.length_drop, List.length_cons]; omega

/-- The text of any bytes, with a replacement for each piece that is none. -/
def decodeLossy (bytes : List UInt8) : List Char :=
  (pieces bytes).map (·.getD replacement)

/-- The text of bytes that are text throughout. -/
def decode? (bytes : List UInt8) : Option (List Char) :=
  (pieces bytes).mapM id

def encode (text : String) : List UInt8 := text.toUTF8.toList

end RayTracer.Text
