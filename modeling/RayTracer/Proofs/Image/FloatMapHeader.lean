import Mathlib
import RayTracer.Image.Pfm
import RayTracer.Proofs.Text.FloatNumerals

/-! The header of a float map: three lines, of which the second is a size and the third a byte order. What
reading makes of them is stated by how such lines are put together. -/

namespace RayTracer

section Split

variable {β : Type} [DecidableEq β] {mark : β} {before : List β}

/-- What stands before the first mark is told from what follows. -/
theorem takeWhile_dropWhile_mark (hBefore : mark ∉ before) (after : List β) :
    (before ++ mark :: after).takeWhile (· ≠ mark) = before ∧
      (before ++ mark :: after).dropWhile (· ≠ mark) = mark :: after := by
  have hKept : ∀ item ∈ before, decide (item ≠ mark) = true := fun item hMem =>
    decide_eq_true (ne_of_mem_of_not_mem hMem hBefore)
  rw [List.takeWhile_append_of_pos hKept, List.dropWhile_append_of_pos hKept]
  simp

theorem takeWhile_dropWhile_unmarked (hBefore : mark ∉ before) :
    before.takeWhile (· ≠ mark) = before ∧ before.dropWhile (· ≠ mark) = [] := by
  have hKept : ∀ item ∈ before, decide (item ≠ mark) = true := fun item hMem =>
    decide_eq_true (ne_of_mem_of_not_mem hMem hBefore)
  exact ⟨List.takeWhile_eq_self_iff.mpr hKept, List.dropWhile_eq_nil_iff.mpr hKept⟩

/-- What is left behind the items that are no mark begins with one. -/
theorem eq_mark_of_dropWhile {items rest : List β} {first : β}
    (hRest : items.dropWhile (· ≠ mark) = first :: rest) : first = mark := by
  have hHead := List.head?_dropWhile_not (fun item : β => decide (item ≠ mark)) items
  simp only [hRest, List.head?_cons, decide_eq_false_iff_not, not_not] at hHead
  exact hHead

end Split

/-- Bytes that begin with a line, up to and without the next line feed or up to the end, and the bytes that
follow it. -/
inductive Binary.BeginsWithLine : List UInt8 → List UInt8 → List UInt8 → Prop
  | ended {line rest : List UInt8} (hLine : 10 ∉ line) : BeginsWithLine (line ++ 10 :: rest) line rest
  | last {line : List UInt8} (hLine : 10 ∉ line) : BeginsWithLine line line []

/-- The line that bytes begin with is the one that is taken. -/
theorem Binary.takeLine_eq {bytes line rest : List UInt8} (h : BeginsWithLine bytes line rest) :
    takeLine bytes = (line, rest) := by
  cases h with
  | ended hLine =>
      obtain ⟨hTake, hDrop⟩ := takeWhile_dropWhile_mark hLine rest
      rw [takeLine, hTake, hDrop]
      rfl
  | last hLine =>
      obtain ⟨hTake, hDrop⟩ := takeWhile_dropWhile_unmarked hLine
      rw [takeLine, hTake, hDrop]
      rfl

/-- All bytes begin with a line, which may be all of them. -/
theorem Binary.beginsWithLine_takeLine (bytes : List UInt8) :
    BeginsWithLine bytes (takeLine bytes).1 (takeLine bytes).2 := by
  have hLine : (10 : UInt8) ∉ bytes.takeWhile (· ≠ 10) := by
    intro hMem
    exact absurd (List.mem_takeWhile_imp hMem) (by decide)
  have hSplit : bytes.takeWhile (· ≠ 10) ++ bytes.dropWhile (· ≠ 10) = bytes :=
    List.takeWhile_append_dropWhile
  rw [takeLine]
  cases hRest : bytes.dropWhile (· ≠ 10) with
  | nil =>
      rw [hRest, List.append_nil] at hSplit
      have hLast := BeginsWithLine.last hLine
      rwa [hSplit] at hLast ⊢
  | cons first rest =>
      obtain rfl := eq_mark_of_dropWhile hRest
      rw [hRest] at hSplit
      have hEnded : BeginsWithLine _ _ rest := BeginsWithLine.ended hLine
      rwa [hSplit] at hEnded

namespace Pfm

/-- The lines that state a size: two numerals, each of a count that fits in 64 bits, with one space between
them. Both counts are positive, and the bytes of the pixels can be counted. -/
inductive StatesSize : List Char → Nat → Nat → Prop
  | mk {first second : List Char} {width height : Nat} (hFirst : Text.WritesCount first width)
      (hSecond : Text.WritesCount second height) (hWidth : width < 2 ^ 64) (hHeight : height < 2 ^ 64)
      (hSome : 1 ≤ width ∧ 1 ≤ height) (hFit : 12 * width * height < 2 ^ 64) :
      StatesSize (first ++ ' ' :: second) width height

/-- A line is read as the size that it states. -/
theorem readSize_eq_ok_iff {line : List Char} {width height : Nat} :
    readSize line = .ok (width, height) ↔ StatesSize line width height := by
  have hSize : UInt64.size = 2 ^ 64 := rfl
  constructor
  · intro hRead
    have hSplit : line.takeWhile (· ≠ ' ') ++ line.dropWhile (· ≠ ' ') = line :=
      List.takeWhile_append_dropWhile
    have hSpace {c : Char} {second : List Char} :
        line.dropWhile (· ≠ ' ') = c :: second → c = ' ' := eq_mark_of_dropWhile
    unfold readSize at hRead
    generalize line.takeWhile (· ≠ ' ') = first at hRead hSplit
    generalize line.dropWhile (· ≠ ' ') = tail at hRead hSplit hSpace
    cases tail with
    | nil => cases hRead
    | cons c second =>
        obtain rfl := hSpace rfl
        cases hFirst : Text.readCount? UInt64.size first with
        | none => simp [hFirst] at hRead
        | some firstCount =>
            cases hSecond : Text.readCount? UInt64.size second with
            | none => simp [hFirst, hSecond] at hRead
            | some secondCount =>
                simp only [hFirst, hSecond] at hRead
                split at hRead
                next hBounds =>
                    obtain ⟨rfl, rfl⟩ := Prod.mk.inj (Except.ok.inj hRead)
                    obtain ⟨hWritesFirst, hWidth⟩ := Text.readCount?_eq_some_iff.mp hFirst
                    obtain ⟨hWritesSecond, hHeight⟩ := Text.readCount?_eq_some_iff.mp hSecond
                    rw [← hSplit]
                    refine StatesSize.mk hWritesFirst hWritesSecond hWidth hHeight
                      ⟨hBounds.1, hBounds.2.1⟩ ?_
                    rw [Nat.mul_assoc]
                    exact hBounds.2.2
                next => cases hRead
  · rintro ⟨hFirst, hSecond, hWidth, hHeight, hSome, hFit⟩
    have hNoSpace := hFirst.not_mem (c := ' ') (by decide) (by decide)
    obtain ⟨hTake, hDrop⟩ := takeWhile_dropWhile_mark hNoSpace _
    have hFirstCount := Text.readCount?_eq_some_iff.mpr ⟨hFirst, hWidth⟩
    have hSecondCount := Text.readCount?_eq_some_iff.mpr ⟨hSecond, hHeight⟩
    rw [Nat.mul_assoc] at hFit
    rw [readSize, hTake, hDrop]
    simp only [hSize, hFirstCount, hSecondCount]
    rw [if_pos ⟨hSome.1, hSome.2, hFit⟩]

/-- A line that states no size is told in the error. -/
theorem readSize_eq_error {line : List Char} (hNone : ∀ width height, ¬StatesSize line width height) :
    readSize line = .error (.invalidSize line) := by
  cases hRead : readSize line with
  | ok size => exact absurd (readSize_eq_ok_iff.mp hRead) (hNone size.1 size.2)
  | error cause =>
      simp only [readSize] at hRead
      split at hRead
      next => exact hRead.symm
      next =>
          split at hRead
          next =>
              split at hRead
              next => cases hRead
              next => exact hRead.symm
          next => exact hRead.symm

theorem StatesSize.isAscii {text : List Char} {width height : Nat} (h : StatesSize text width height) :
    Text.IsAscii text := by
  obtain ⟨hFirst, hSecond, -, -, -, -⟩ := h
  exact Text.isAscii_append.mpr ⟨hFirst.isAscii, Text.isAscii_cons.mpr ⟨by decide, hSecond.isAscii⟩⟩

/-- Pixels whose bytes can be addressed can be counted. -/
theorem count_lt_of_fit {width height : Nat} (hFit : 12 * width * height < 2 ^ 64) :
    width * height < UInt64.size := by
  have hSize : UInt64.size = 2 ^ 64 := rfl
  rw [Nat.mul_assoc] at hFit
  omega

/-- The pixels of a size can be counted, and there are some. -/
theorem StatesSize.bounds {text : List Char} {width height : Nat} (h : StatesSize text width height) :
    0 < width ∧ 0 < height ∧ width * height < UInt64.size := by
  obtain ⟨-, -, -, -, hSome, hFit⟩ := h
  exact ⟨hSome.1, hSome.2, count_lt_of_fit hFit⟩

/-- The size that a line states is the only one. -/
theorem StatesSize.unique {text : List Char} {width height otherWidth otherHeight : Nat}
    (h : StatesSize text width height) (hOther : StatesSize text otherWidth otherHeight) :
    width = otherWidth ∧ height = otherHeight := by
  have hRead := (readSize_eq_ok_iff.mpr h).symm.trans (readSize_eq_ok_iff.mpr hOther)
  exact Prod.mk.inj (Except.ok.inj hRead)

/-- The number that states a byte order. -/
def orderValue : ByteOrder → Float
  | .bigEndian => 1.0
  | .littleEndian => -1.0

/-- The lines that state a byte order: a numeral of its number, with any blanks around it. -/
inductive StatesOrder : List Char → ByteOrder → Prop
  | mk {left numeral right : List Char} {value : Float} {order : ByteOrder}
      (hLeft : ∀ c ∈ left, Text.isBlank c = true) (hRight : ∀ c ∈ right, Text.isBlank c = true)
      (hNumeral : Text.WritesFloat numeral value) (hValue : (value == orderValue order) = true) :
      StatesOrder (left ++ (numeral ++ right)) order

/-- No number equals both one and minus one. -/
theorem beq_one_eq_false {value : Float} (hMinus : (value == -1.0) = true) : (value == 1.0) = false := by
  obtain ⟨_, _, _, hOne⟩ : ∃ mantissa exponent hPos, (1.0 : Float).toModel.unpack =
      Float.Model.UnpackedFloat.finite .positive mantissa exponent hPos := ⟨_, _, _, rfl⟩
  obtain ⟨_, _, _, hMinusOne⟩ : ∃ mantissa exponent hPos, (-1.0 : Float).toModel.unpack =
      Float.Model.UnpackedFloat.finite .negative mantissa exponent hPos := ⟨_, _, _, rfl⟩
  change (value.toModel.unpack.compare (-1.0 : Float).toModel.unpack == some .eq) = true at hMinus
  change (value.toModel.unpack.compare (1.0 : Float).toModel.unpack == some .eq) = false
  rw [hMinusOne] at hMinus
  rw [hOne]
  cases hValue : value.toModel.unpack with
  | infinity sign => cases sign <;> rfl
  | notANumber => rfl
  | zero sign => rfl
  | finite sign mantissa exponent hPos =>
      cases sign with
      | negative => rfl
      | positive =>
          rw [hValue] at hMinus
          cases hMinus

theorem readByteOrder_eq_ok_iff {line : List Char} {order : ByteOrder} :
    readByteOrder line = .ok order ↔ StatesOrder line order := by
  constructor
  · intro hRead
    unfold readByteOrder at hRead
    split at hRead
    next => cases hRead
    next value hValue =>
        obtain ⟨left, numeral, right, rfl, hLeft, hRight, hNumeral⟩ :=
          Text.readFloat?_trim_eq_some_iff.mp hValue
        split at hRead
        next hOne =>
            obtain rfl := Except.ok.inj hRead
            exact StatesOrder.mk hLeft hRight hNumeral hOne
        next =>
            split at hRead
            next hMinus =>
                obtain rfl := Except.ok.inj hRead
                exact StatesOrder.mk hLeft hRight hNumeral hMinus
            next => cases hRead
  · rintro ⟨hLeft, hRight, hNumeral, hValue⟩
    have hRead := Text.readFloat?_trim_eq_some_iff.mpr ⟨_, _, _, rfl, hLeft, hRight, hNumeral⟩
    rw [readByteOrder, hRead]
    cases order with
    | bigEndian => exact if_pos hValue
    | littleEndian =>
        have hNotOne := beq_one_eq_false hValue
        simp only [hNotOne]
        exact if_pos hValue

theorem readByteOrder_eq_error {line : List Char} (hNone : ∀ order, ¬StatesOrder line order) :
    readByteOrder line = .error (.invalidByteOrder line) := by
  cases hRead : readByteOrder line with
  | ok order => exact absurd (readByteOrder_eq_ok_iff.mp hRead) (hNone order)
  | error cause =>
      unfold readByteOrder at hRead
      split at hRead
      next => exact hRead.symm
      next =>
          split at hRead
          next => cases hRead
          next =>
              split at hRead
              next => cases hRead
              next => exact hRead.symm

/-- Reading goes by the first three lines and what follows them. -/
theorem decode_eq_of_lines {bytes magic afterMagic size afterSize order payload : List UInt8}
    (hMagic : Binary.BeginsWithLine bytes magic afterMagic)
    (hSize : Binary.BeginsWithLine afterMagic size afterSize)
    (hOrder : Binary.BeginsWithLine afterSize order payload) :
    decode bytes =
      if Text.decodeLossy magic ≠ ['P', 'F'] then .error (.invalidMagic (Text.decodeLossy magic))
      else (readSize (Text.decodeLossy size)).bind fun (width, height) =>
        (readByteOrder (Text.decodeLossy order)).bind fun order =>
          if payload.length < 12 * (width * height) then .error .truncated
          else .ok (imageOf order width height (payload.take (12 * (width * height)))) := by
  simp only [decode, Binary.takeLine_eq hMagic, Binary.takeLine_eq hSize, Binary.takeLine_eq hOrder]
  split
  next => rfl
  next =>
      cases readSize (Text.decodeLossy size) with
      | error cause => rfl
      | ok sides =>
          cases readByteOrder (Text.decodeLossy order) with
          | error cause => rfl
          | ok order =>
              change (if _ then _ else _) = (if _ then _ else _)
              split <;> rfl

end Pfm

end RayTracer
