import Mathlib
import RayTracer.Text.Utf8

/-! Text of code points below 128. Each of its characters is one byte, and no other bytes read as such text:
longer codes stand for higher code points, and so does the replacement of bytes that are no text. -/

namespace RayTracer.Text

def asciiBytes (text : List Char) : List UInt8 := text.map fun c => UInt8.ofNat c.toNat

def IsAscii (text : List Char) : Prop := ∀ c ∈ text, c.toNat < 128

/-- A text is of such code points when its parts are. -/
theorem isAscii_append {first second : List Char} :
    IsAscii (first ++ second) ↔ IsAscii first ∧ IsAscii second := List.forall_mem_append

theorem isAscii_cons {c : Char} {text : List Char} :
    IsAscii (c :: text) ↔ c.toNat < 128 ∧ IsAscii text := List.forall_mem_cons

/-- A code point below 128 is a byte. -/
theorem toNat_ofNat_toNat {c : Char} (h : c.toNat < 128) : (UInt8.ofNat c.toNat).toNat = c.toNat := by
  rw [UInt8.toNat_ofNat', Nat.mod_eq_of_lt (by omega)]

/-- The bytes of an array from a place on, behind those found before. -/
private theorem toList_loop_eq (bytes : ByteArray) (place : Nat) (found : List UInt8) :
    ByteArray.toList.loop bytes place found = found.reverse ++ bytes.data.toList.drop place := by
  induction hLeft : bytes.size - place generalizing place found with
  | zero =>
      have hEnd : bytes.data.toList.length ≤ place := by
        rw [Array.length_toList]
        exact Nat.sub_eq_zero_iff_le.mp hLeft
      rw [ByteArray.toList.loop, if_neg (by omega), List.drop_eq_nil_of_le hEnd, List.append_nil]
  | succ left ih =>
      have hPlace : place < bytes.data.toList.length := by
        rw [Array.length_toList]
        change place < bytes.size
        omega
      have hByte : bytes.get! place = bytes.data.toList[place] :=
        getElem!_pos bytes.data place (by simpa using hPlace)
      rw [ByteArray.toList.loop, if_pos (by omega), ih _ _ (by omega), List.drop_eq_getElem_cons hPlace,
        hByte, List.reverse_cons, List.append_assoc]
      rfl

/-- A text of such code points is encoded character by character. -/
theorem encode_ofList {text : List Char} (hAscii : IsAscii text) :
    encode (String.ofList text) = asciiBytes text := by
  have hBytes : text.flatMap String.utf8EncodeChar = asciiBytes text := by
    induction text with
    | nil => rfl
    | cons c text ih =>
        obtain ⟨hHead, hTail⟩ := isAscii_cons.mp hAscii
        have hOne : String.utf8EncodeChar c = [UInt8.ofNat c.toNat] := by
          have hCode : c.val.toNat ≤ 127 := Nat.le_of_lt_succ hHead
          simp only [String.utf8EncodeChar, hCode, ↓reduceIte]
          rfl
        rw [List.flatMap_cons, hOne, ih hTail]
        rfl
  rw [encode, String.toUTF8_eq_toByteArray, String.toByteArray_ofList, List.utf8Encode, hBytes,
    ByteArray.toList, toList_loop_eq, List.toList_data_toByteArray]
  rfl

/-- A second byte in the range of its first one continues a code, and keeps out of the codes that are
overlong, of surrogates or beyond the last. -/
theorem secondByteRange_spec {first second : UInt8} (hLow : (secondByteRange first).1 ≤ second)
    (hHigh : second ≤ (secondByteRange first).2) :
    128 ≤ second.toNat ∧ second.toNat < 192 ∧ (first.toNat = 0xe0 → 160 ≤ second.toNat) ∧
      (first.toNat = 0xed → second.toNat < 160) ∧ (first.toNat = 0xf0 → 144 ≤ second.toNat) ∧
      (first.toNat = 0xf4 → second.toNat < 144) := by
  unfold secondByteRange at hLow hHigh
  simp only [beq_iff_eq, ← UInt8.toNat_inj, UInt8.le_iff_toNat_le] at hLow hHigh
  split_ifs at hLow hHigh with hFirst hFirst hFirst hFirst <;>
    simp only [UInt8.reduceToNat] at * <;> omega

/-- A code that is whole has its second byte in range. -/
theorem matchedCount_eq_succ {first : UInt8} {rest : List UInt8} {count : Nat}
    (h : matchedCount first rest = count + 1) :
    ∃ second others, rest.take (followingCount first) = second :: others ∧
      (secondByteRange first).1 ≤ second ∧ second ≤ (secondByteRange first).2 ∧
      (others.takeWhile isContinuation).length = count := by
  unfold matchedCount at h
  cases hTaken : rest.take (followingCount first) with
  | nil => simp [hTaken] at h
  | cons second others =>
      rw [hTaken] at h
      simp only [Bool.and_eq_true, decide_eq_true_eq] at h
      split at h
      next hRange => exact ⟨second, others, rfl, hRange.1, hRange.2, by omega⟩
      next => omega

/-- The code point of a whole code is a character, and none that has a code of one byte. -/
theorem codePoint_bounds {first : UInt8} {rest : List UInt8} (hWanted : followingCount first ≠ 0)
    (hFound : matchedCount first rest = followingCount first) :
    let code := codePoint first (rest.take (followingCount first))
    128 ≤ code ∧ (code < 0xd800 ∨ 0xdfff < code ∧ code < 0x110000) := by
  obtain ⟨count, hCount⟩ := Nat.exists_eq_succ_of_ne_zero hWanted
  obtain ⟨second, others, hTaken, hLow, hHigh, hOthers⟩ := matchedCount_eq_succ (hFound.trans hCount)
  obtain ⟨hAbove, hBelow, hSecond⟩ := secondByteRange_spec hLow hHigh
  have hLength : (second :: others).length ≤ count + 1 := by
    rw [← hTaken, hCount]
    exact List.length_take_le _ _
  have hAll : others.length = count := by
    have hPart := (List.takeWhile_sublist isContinuation (l := others)).length_le
    rw [List.length_cons] at hLength
    omega
  have hFirst := first.toNat_lt
  rw [hTaken]
  unfold followingCount at hCount
  simp only [Bool.and_eq_true, decide_eq_true_eq, UInt8.le_iff_toNat_le, UInt8.reduceToNat] at hCount
  -- The number of the bytes says how many bits of the first one count.
  split_ifs at hCount with hOne hTwo hThree
  · obtain rfl : others = [] := List.length_eq_zero_iff.mp (by omega)
    simp only [codePoint, List.length_cons, List.length_nil, List.foldl_cons, List.foldl_nil]
    omega
  · obtain ⟨third, rfl⟩ := List.length_eq_one_iff.mp (show others.length = 1 by omega)
    simp only [codePoint, List.length_cons, List.length_nil, List.foldl_cons, List.foldl_nil]
    omega
  · obtain ⟨third, fourth, rfl⟩ := List.length_eq_two.mp (show others.length = 2 by omega)
    simp only [codePoint, List.length_cons, List.length_nil, List.foldl_cons, List.foldl_nil]
    omega

/-- A byte below 128 is a character by itself. -/
theorem scan_of_lt {first : UInt8} (rest : List UInt8) (h : first < 0x80) :
    scan first rest = ⟨some (Char.ofNat first.toNat), 0⟩ := by
  rw [scan, if_pos h]

/-- A piece that begins with a byte from 128 on is a character from 128 on or none. -/
theorem le_toNat_of_scan {first : UInt8} {rest : List UInt8} {c : Char} (h : ¬first < 0x80)
    (hScan : (scan first rest).character = some c) : 128 ≤ c.toNat := by
  rw [scan, if_neg h] at hScan
  simp only [Bool.and_eq_true, decide_eq_true_eq] at hScan
  split at hScan
  next hWhole =>
      obtain ⟨hCode, hValid⟩ := codePoint_bounds hWhole.1 hWhole.2
      have hChar : c = Char.ofNat _ := (Option.some.inj hScan).symm
      rw [hChar, Char.toNat_ofNat, if_pos hValid]
      exact hCode
  next => cases hScan

theorem decodeLossy_nil : decodeLossy [] = [] := by
  rw [decodeLossy, pieces]
  rfl

/-- A byte below 128 is a piece by itself. -/
theorem pieces_cons_of_lt {first : UInt8} (rest : List UInt8) (h : first < 0x80) :
    pieces (first :: rest) = some (Char.ofNat first.toNat) :: pieces rest := by
  rw [pieces, scan_of_lt rest h]
  rfl

/-- A byte below 128 is read as its character, whatever follows. -/
theorem decodeLossy_cons_of_lt {first : UInt8} (rest : List UInt8) (h : first < 0x80) :
    decodeLossy (first :: rest) = Char.ofNat first.toNat :: decodeLossy rest := by
  rw [decodeLossy, pieces_cons_of_lt rest h]
  rfl

/-- A text of code points below 128 is read back from its bytes. -/
theorem decodeLossy_asciiBytes {text : List Char} (hAscii : IsAscii text) :
    decodeLossy (asciiBytes text) = text := by
  induction text with
  | nil => exact decodeLossy_nil
  | cons c text ih =>
      obtain ⟨hHead, hTail⟩ := isAscii_cons.mp hAscii
      have hByte : UInt8.ofNat c.toNat < 0x80 := by
        rw [UInt8.lt_iff_toNat_lt, toNat_ofNat_toNat hHead]
        exact hHead
      calc
        decodeLossy (asciiBytes (c :: text))
            = Char.ofNat (UInt8.ofNat c.toNat).toNat :: decodeLossy (asciiBytes text) :=
          decodeLossy_cons_of_lt _ hByte
        _ = c :: text := by rw [toNat_ofNat_toNat hHead, Char.ofNat_toNat, ih hTail]

/-- Only the bytes of such text are read as such text. -/
theorem eq_asciiBytes_of_isAscii {bytes : List UInt8} (hAscii : IsAscii (decodeLossy bytes)) :
    bytes = asciiBytes (decodeLossy bytes) := by
  induction bytes with
  | nil =>
      rw [decodeLossy_nil]
      rfl
  | cons first rest ih =>
      by_cases hFirst : first < 0x80
      · rw [decodeLossy_cons_of_lt rest hFirst] at hAscii ⊢
        have hLow : first.toNat < 128 := UInt8.lt_iff_toNat_lt.mp hFirst
        have hByte : UInt8.ofNat (Char.ofNat first.toNat).toNat = first := by
          rw [Char.toNat_ofNat, if_pos (Or.inl (by omega)), UInt8.ofNat_toNat]
        change first :: rest = UInt8.ofNat (Char.ofNat first.toNat).toNat :: asciiBytes (decodeLossy rest)
        rw [hByte, ← ih (isAscii_cons.mp hAscii).2]
      · exfalso
        rw [decodeLossy, pieces, List.map_cons] at hAscii
        have hHead := (isAscii_cons.mp hAscii).1
        cases hScan : (scan first rest).character with
        | none =>
            rw [hScan] at hHead
            exact absurd hHead (by decide)
        | some c =>
            rw [hScan] at hHead
            exact absurd hHead (Nat.not_lt.mpr (le_toNat_of_scan hFirst hScan))

/-- Text of code points below 128 is read from its own bytes and from no others. -/
theorem decodeLossy_eq_iff {bytes : List UInt8} {text : List Char} (hAscii : IsAscii text) :
    decodeLossy bytes = text ↔ bytes = asciiBytes text := by
  constructor
  · intro hText
    rw [← hText]
    exact eq_asciiBytes_of_isAscii (hText ▸ hAscii)
  · intro hBytes
    rw [hBytes, decodeLossy_asciiBytes hAscii]

end RayTracer.Text
