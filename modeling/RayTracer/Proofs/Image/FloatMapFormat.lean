import Mathlib
import RayTracer.Binary.ByteReader
import RayTracer.Proofs.Image.FloatMapHeader
import RayTracer.Proofs.Image.FloatMapPixels

/-! The format of float maps, exactly: which bytes are accepted, what they are read as, and which error the
others give. Reading number by number, with every product and every division into rows that could be a fault,
meets none. -/

namespace RayTracer.Pfm

def readNumber (order : ByteOrder) (bytes : List UInt8) : Except FormatError (Double × List UInt8) :=
  match (ByteReader.word order).run bytes with
  | some (word, rest) => .ok (Binary.widen word, rest)
  | none => .error .truncated

def readPixel (order : ByteOrder) (bytes : List UInt8) :
    Except FormatError (Color Double × List UInt8) := do
  let (r, afterRed) ← readNumber order bytes
  let (g, afterGreen) ← readNumber order afterRed
  let (b, rest) ← readNumber order afterGreen
  return (⟨r, g, b⟩, rest)

/-- A number of pixels, which is not known to be there before the last one is read. -/
def readPixels (order : ByteOrder) :
    Nat → List UInt8 → Except FormatError (List (Color Double) × List UInt8)
  | 0, bytes => .ok ([], bytes)
  | count + 1, bytes => do
    let (color, afterColor) ← readPixel order bytes
    let (colors, rest) ← readPixels order count afterColor
    return (color :: colors, rest)

/-- As many whole rows as the items make. Rows have to have a width. -/
def wholeRows {β : Type} (width : Nat) (items : List β) : Except Fault (List (List β)) :=
  if width = 0 then .error .emptyRows else .ok (splitRows width (items.length / width) items)

/-- The image in a file, read step by step, or the fault of a step. -/
def decodeStepwise (bytes : List UInt8) : Except Fault (Except FormatError (Image Double)) := do
  let (magic, afterMagic) := Binary.takeLine bytes
  if Text.decodeLossy magic ≠ ['P', 'F'] then
    return .error (.invalidMagic (Text.decodeLossy magic))
  let (size, afterSize) := Binary.takeLine afterMagic
  match readSize (Text.decodeLossy size) with
  | .error cause => return .error cause
  | .ok (width, height) =>
    let (orderLine, payload) := Binary.takeLine afterSize
    match readByteOrder (Text.decodeLossy orderLine) with
    | .error cause => return .error cause
    | .ok order =>
      let count ← mulSizes width height
      match readPixels order count payload with
      | .error cause => return .error cause
      | .ok (colors, _) =>
        let rows ← wholeRows width colors
        return .ok ⟨width, height, rows.reverse.flatten.toArray⟩

/-- Fewer than four bytes are too few for a number. -/
theorem readNumber_of_lt (order : ByteOrder) : ∀ {bytes : List UInt8}, bytes.length < 4 →
    readNumber order bytes = .error .truncated
  | [], _ => rfl
  | [_], _ => rfl
  | [_, _], _ => rfl
  | [_, _, _], _ => rfl

/-- Any four bytes are a number. -/
theorem exists_readNumber (order : ByteOrder) : ∀ {bytes : List UInt8}, 4 ≤ bytes.length →
    ∃ x, readNumber order bytes = .ok (x, bytes.drop 4)
  | _ :: _ :: _ :: _ :: _, _ => ⟨_, rfl⟩

/-- Too few bytes for a pixel end within its first, second or third number. -/
theorem readPixel_of_lt (order : ByteOrder) {bytes : List UInt8} (hShort : bytes.length < 12) :
    readPixel order bytes = .error .truncated := by
  by_cases hRed : 4 ≤ bytes.length
  · obtain ⟨r, hReadRed⟩ := exists_readNumber order hRed
    by_cases hGreen : 4 ≤ (bytes.drop 4).length
    · obtain ⟨g, hReadGreen⟩ := exists_readNumber order hGreen
      have hBlue : ((bytes.drop 4).drop 4).length < 4 := by
        rw [List.length_drop, List.length_drop]
        omega
      simp only [readPixel, hReadRed, hReadGreen, readNumber_of_lt order hBlue, bind, Except.bind]
    · simp only [readPixel, hReadRed, readNumber_of_lt order (Nat.lt_of_not_le hGreen), bind,
        Except.bind]
  · simp only [readPixel, readNumber_of_lt order (Nat.lt_of_not_le hRed), bind, Except.bind]

/-- Twelve bytes are read as the color that they spell. -/
theorem exists_readPixel (order : ByteOrder) : ∀ {bytes : List UInt8}, 12 ≤ bytes.length →
    ∃ color, readPixel order bytes = .ok (color, bytes.drop 12) ∧
      ∀ count, readColors order (bytes.take (count + 12)) =
        color :: readColors order ((bytes.drop 12).take count)
  | _ :: _ :: _ :: _ :: _ :: _ :: _ :: _ :: _ :: _ :: _ :: _ :: _, _ => ⟨_, rfl, fun _ => rfl⟩

/-- The loop reads what the bytes spell when there are enough of them, and else fails. -/
theorem readPixels_eq (order : ByteOrder) (count : Nat) (bytes : List UInt8) :
    readPixels order count bytes =
      if bytes.length < 12 * count then .error .truncated
      else .ok (readColors order (bytes.take (12 * count)), bytes.drop (12 * count)) := by
  induction count generalizing bytes with
  | zero =>
      rw [if_neg (by omega), Nat.mul_zero, List.take_zero, List.drop_zero]
      rfl
  | succ count ih =>
      by_cases hHead : 12 ≤ bytes.length
      · obtain ⟨color, hPixel, hColors⟩ := exists_readPixel order hHead
        have hRest := ih (bytes.drop 12)
        rw [List.length_drop, List.drop_drop] at hRest
        simp only [readPixels, hPixel, bind, Except.bind, hRest]
        by_cases hShort : bytes.length < 12 * (count + 1)
        · rw [if_pos hShort, if_pos (by omega)]
        · rw [if_neg hShort, if_neg (by omega), Nat.mul_succ, hColors, Nat.add_comm]
          rfl
      · rw [if_pos (by omega)]
        simp only [readPixels, readPixel_of_lt order (Nat.lt_of_not_le hHead), bind, Except.bind]

/-- No step of reading is a fault: sizes that are read can be multiplied, and their rows have a width. -/
theorem decodeStepwise_eq (bytes : List UInt8) : decodeStepwise bytes = .ok (decode bytes) := by
  have hDecode := decode_eq_of_lines (Binary.beginsWithLine_takeLine bytes)
    (Binary.beginsWithLine_takeLine _) (Binary.beginsWithLine_takeLine _)
  rw [hDecode]
  simp only [decodeStepwise]
  split
  next => rfl
  next =>
      cases hSize : readSize (Text.decodeLossy (Binary.takeLine (Binary.takeLine bytes).2).1) with
      | error cause => rfl
      | ok sides =>
          obtain ⟨width, height⟩ := sides
          obtain ⟨hWidth, -, hCount⟩ := (readSize_eq_ok_iff.mp hSize).bounds
          simp only [Except.bind]
          cases readByteOrder (Text.decodeLossy
              (Binary.takeLine (Binary.takeLine (Binary.takeLine bytes).2).2).1) with
          | error cause => rfl
          | ok order =>
              simp only [mulSizes, if_pos hCount, bind, Except.bind, readPixels_eq]
              generalize (Binary.takeLine (Binary.takeLine (Binary.takeLine bytes).2).2).2 = payload
              by_cases hShort : payload.length < 12 * (width * height)
              · simp only [if_pos hShort]
                rfl
              · have hLength : (payload.take (12 * (width * height))).length = 12 * (width * height) := by
                  rw [List.length_take]
                  omega
                have hRows : (readColors order (payload.take (12 * (width * height)))).length / width =
                    height := by
                  rw [length_readColors order hLength, Nat.mul_div_cancel_left height hWidth]
                simp only [if_neg hShort, wholeRows, if_neg (Nat.ne_of_gt hWidth), hRows]
                rfl

/-- The lines of bytes that state a size. -/
inductive SizeLine : List UInt8 → Nat → Nat → Prop
  | mk {text : List Char} {width height : Nat} (hText : StatesSize text width height) :
      SizeLine (Text.asciiBytes text) width height

/-- The lines of bytes whose text states a byte order. -/
def OrderLine (line : List UInt8) (order : ByteOrder) : Prop :=
  StatesOrder (Text.decodeLossy line) order

/-- A line of bytes states a size when the text that is read from it does. -/
theorem sizeLine_iff {line : List UInt8} {width height : Nat} :
    SizeLine line width height ↔ StatesSize (Text.decodeLossy line) width height := by
  constructor
  · rintro ⟨hText⟩
    rwa [Text.decodeLossy_asciiBytes hText.isAscii]
  · intro hText
    have hLine := SizeLine.mk hText
    rwa [← Text.eq_asciiBytes_of_isAscii hText.isAscii] at hLine

/-- No other bytes are read as the two letters. -/
theorem decodeLossy_eq_magic_iff {line : List UInt8} :
    Text.decodeLossy line = ['P', 'F'] ↔ line = [0x50, 0x46] :=
  Text.decodeLossy_eq_iff (by simp [Text.IsAscii])

section Lines

variable {bytes magic afterMagic size afterSize order payload : List UInt8}
  (hFirst : Binary.BeginsWithLine bytes magic afterMagic)
  (hSecond : Binary.BeginsWithLine afterMagic size afterSize)
  (hThird : Binary.BeginsWithLine afterSize order payload)

include hFirst hSecond hThird

/-- The first line is looked at first. -/
theorem decode_eq_invalidMagic (hMagic : magic ≠ [0x50, 0x46]) :
    decode bytes = .error (.invalidMagic (Text.decodeLossy magic)) := by
  rw [decode_eq_of_lines hFirst hSecond hThird, if_pos (mt decodeLossy_eq_magic_iff.mp hMagic)]

/-- The second line is looked at when the first is right. -/
theorem decode_eq_invalidSize (hMagic : magic = [0x50, 0x46])
    (hSize : ∀ width height, ¬SizeLine size width height) :
    decode bytes = .error (.invalidSize (Text.decodeLossy size)) := by
  have hRead := readSize_eq_error fun width height => mt sizeLine_iff.mpr (hSize width height)
  rw [decode_eq_of_lines hFirst hSecond hThird,
    if_neg (not_not.mpr (decodeLossy_eq_magic_iff.mpr hMagic)), hRead]
  rfl

/-- The third line is looked at when the first two are right. -/
theorem decode_eq_invalidByteOrder {width height : Nat} (hMagic : magic = [0x50, 0x46])
    (hSize : SizeLine size width height) (hOrder : ∀ byteOrder, ¬OrderLine order byteOrder) :
    decode bytes = .error (.invalidByteOrder (Text.decodeLossy order)) := by
  rw [decode_eq_of_lines hFirst hSecond hThird,
    if_neg (not_not.mpr (decodeLossy_eq_magic_iff.mpr hMagic)),
    readSize_eq_ok_iff.mpr (sizeLine_iff.mp hSize)]
  simp only [Except.bind, readByteOrder_eq_error hOrder]

/-- Behind a whole header only the number of bytes can be wrong. -/
theorem decode_eq_of_header {width height : Nat} {byteOrder : ByteOrder} (hMagic : magic = [0x50, 0x46])
    (hSize : SizeLine size width height) (hOrder : OrderLine order byteOrder) :
    decode bytes =
      if payload.length < 12 * width * height then .error .truncated
      else .ok (imageOf byteOrder width height (payload.take (12 * width * height))) := by
  rw [decode_eq_of_lines hFirst hSecond hThird,
    if_neg (not_not.mpr (decodeLossy_eq_magic_iff.mpr hMagic)),
    readSize_eq_ok_iff.mpr (sizeLine_iff.mp hSize)]
  simp only [Except.bind, readByteOrder_eq_ok_iff.mpr hOrder, Nat.mul_assoc]

/-- What is read as an image has a whole header and enough bytes behind it. -/
theorem header_of_decode_eq_ok {image : Image Double} (h : decode bytes = .ok image) :
    ∃ width height byteOrder, magic = [0x50, 0x46] ∧ SizeLine size width height ∧
      OrderLine order byteOrder ∧ 12 * width * height ≤ payload.length := by
  by_cases hMagic : magic = [0x50, 0x46]
  · by_cases hSize : ∃ width height, SizeLine size width height
    · obtain ⟨width, height, hSize⟩ := hSize
      by_cases hOrder : ∃ byteOrder, OrderLine order byteOrder
      · obtain ⟨byteOrder, hOrder⟩ := hOrder
        rw [decode_eq_of_header hFirst hSecond hThird hMagic hSize hOrder] at h
        split at h
        next => cases h
        next hEnough => exact ⟨width, height, byteOrder, hMagic, hSize, hOrder, Nat.le_of_not_lt hEnough⟩
      · rw [decode_eq_invalidByteOrder hFirst hSecond hThird hMagic hSize (not_exists.mp hOrder)] at h
        cases h
    · have hNone : ∀ width height, ¬SizeLine size width height := fun width height hLine =>
        hSize ⟨width, height, hLine⟩
      rw [decode_eq_invalidSize hFirst hSecond hThird hMagic hNone] at h
      cases h
  · rw [decode_eq_invalidMagic hFirst hSecond hThird hMagic] at h
    cases h

end Lines

/-- Every byte string has three first lines and a rest, and reading it step by step meets no fault. It is an
image exactly when the lines are the magic, a size and a byte order and the rest has the bytes of the pixels;
nothing else of the file enters the image. Otherwise the error is that of the first part that is wrong. -/
theorem decode_accepts_exactly (bytes : List UInt8) :
    ∃ magic afterMagic size afterSize order payload,
      (Binary.BeginsWithLine bytes magic afterMagic ∧ Binary.BeginsWithLine afterMagic size afterSize ∧
        Binary.BeginsWithLine afterSize order payload) ∧
      decodeStepwise bytes = .ok (decode bytes) ∧
      (∀ image, decode bytes = .ok image ↔ ∃ width height byteOrder,
        (magic = [0x50, 0x46] ∧ SizeLine size width height ∧ OrderLine order byteOrder ∧
          12 * width * height ≤ payload.length) ∧
        image = imageOf byteOrder width height (payload.take (12 * width * height)) ∧
        image.width = width ∧ image.height = height ∧ image.pixels.size = width * height) ∧
      (magic ≠ [0x50, 0x46] → decode bytes = .error (.invalidMagic (Text.decodeLossy magic))) ∧
      (magic = [0x50, 0x46] → (∀ width height, ¬SizeLine size width height) →
        decode bytes = .error (.invalidSize (Text.decodeLossy size))) ∧
      (∀ width height, magic = [0x50, 0x46] → SizeLine size width height →
        (∀ byteOrder, ¬OrderLine order byteOrder) →
        decode bytes = .error (.invalidByteOrder (Text.decodeLossy order))) ∧
      (∀ width height byteOrder, magic = [0x50, 0x46] → SizeLine size width height →
        OrderLine order byteOrder → payload.length < 12 * width * height →
        decode bytes = .error .truncated) := by
  have hFirst := Binary.beginsWithLine_takeLine bytes
  have hSecond := Binary.beginsWithLine_takeLine (Binary.takeLine bytes).2
  have hThird := Binary.beginsWithLine_takeLine (Binary.takeLine (Binary.takeLine bytes).2).2
  refine ⟨_, _, _, _, _, _, ⟨hFirst, hSecond, hThird⟩, decodeStepwise_eq bytes, ?_,
    decode_eq_invalidMagic hFirst hSecond hThird, decode_eq_invalidSize hFirst hSecond hThird,
    fun _ _ => decode_eq_invalidByteOrder hFirst hSecond hThird, ?_⟩
  · intro image
    constructor
    · intro hRead
      obtain ⟨width, height, byteOrder, hMagic, hSize, hOrder, hPayload⟩ :=
        header_of_decode_eq_ok hFirst hSecond hThird hRead
      rw [decode_eq_of_header hFirst hSecond hThird hMagic hSize hOrder,
        if_neg (Nat.not_lt.mpr hPayload)] at hRead
      obtain rfl := Except.ok.inj hRead
      refine ⟨width, height, byteOrder, ⟨hMagic, hSize, hOrder, hPayload⟩, rfl, rfl, rfl, ?_⟩
      apply size_pixels_imageOf
      rw [List.length_take, Nat.min_eq_left hPayload, Nat.mul_assoc]
    · rintro ⟨width, height, byteOrder, ⟨hMagic, hSize, hOrder, hPayload⟩, rfl, -⟩
      rw [decode_eq_of_header hFirst hSecond hThird hMagic hSize hOrder,
        if_neg (Nat.not_lt.mpr hPayload)]
  · intro width height byteOrder hMagic hSize hOrder hPayload
    rw [decode_eq_of_header hFirst hSecond hThird hMagic hSize hOrder, if_pos hPayload]

end RayTracer.Pfm
