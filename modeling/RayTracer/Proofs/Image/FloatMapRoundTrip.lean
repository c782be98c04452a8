import Mathlib
import RayTracer.Proofs.Image.FloatMapHeader
import RayTracer.Proofs.Image.FloatMapPixels

/-! Writing a float map and reading it back. Whatever the byte order and whatever bytes follow the file, the
image that is read has the narrowed channels of the one that was written. -/

namespace RayTracer.Pfm

/-- A line ends at the first newline. -/
theorem beginsWithLine_asciiBytes {text : List Char} (hAscii : Text.IsAscii text) (hLine : '\n' ∉ text)
    (rest : List UInt8) :
    Binary.BeginsWithLine (Text.asciiBytes text ++ 10 :: rest) (Text.asciiBytes text) rest := by
  refine Binary.BeginsWithLine.ended ?_
  intro hMem
  obtain ⟨c, hText, hByte⟩ := List.mem_map.mp hMem
  have hCode : c.toNat = 10 := by
    rw [← Text.toNat_ofNat_toNat (hAscii c hText), hByte]
    rfl
  have hChar : c = '\n' := Char.toNat_inj.mp hCode
  exact hLine (hChar ▸ hText)

theorem isAscii_magic : Text.IsAscii ['P', 'F'] := by
  simp [Text.IsAscii]

def sizeLine (width height : Nat) : List Char := Nat.toDigits 10 width ++ ' ' :: Nat.toDigits 10 height

/-- Sizes are stated in characters of one byte. -/
theorem isAscii_sizeLine (width height : Nat) : Text.IsAscii (sizeLine width height) :=
  Text.isAscii_append.mpr ⟨(Text.writesCount_toDigits width).isAscii,
    Text.isAscii_cons.mpr ⟨by decide, (Text.writesCount_toDigits height).isAscii⟩⟩

/-- A size is stated on one line. -/
theorem newline_not_mem_sizeLine (width height : Nat) : '\n' ∉ sizeLine width height := by
  have hDigits (n : Nat) : '\n' ∉ Nat.toDigits 10 n :=
    (Text.writesCount_toDigits n).not_mem (by decide) (by decide)
  rw [sizeLine, List.mem_append, List.mem_cons, not_or, not_or]
  exact ⟨hDigits width, by decide, hDigits height⟩

theorem isAscii_orderNumeral (order : ByteOrder) : Text.IsAscii (orderNumeral order).toList := by
  cases order <;> simp [orderNumeral, Text.IsAscii]

theorem newline_not_mem_orderNumeral (order : ByteOrder) : '\n' ∉ (orderNumeral order).toList := by
  cases order <;> decide

/-- The header is three lines. -/
theorem header_eq (order : ByteOrder) (width height : Nat) :
    header order width height = Text.asciiBytes ['P', 'F'] ++ 10 ::
      (Text.asciiBytes (sizeLine width height) ++ 10 ::
        (Text.asciiBytes (orderNumeral order).toList ++ [10])) := by
  have hText : "PF\n" ++ toString width ++ " " ++ toString height ++ "\n" ++ orderNumeral order ++ "\n" =
      String.ofList (['P', 'F'] ++ '\n' :: (sizeLine width height ++ '\n' ::
        ((orderNumeral order).toList ++ ['\n']))) := by
    apply String.toList_inj.mp
    simp [sizeLine]
  have hAscii : Text.IsAscii (['P', 'F'] ++ '\n' :: (sizeLine width height ++ '\n' ::
      ((orderNumeral order).toList ++ ['\n']))) := by
    refine Text.isAscii_append.mpr ⟨isAscii_magic, Text.isAscii_cons.mpr ⟨by decide, ?_⟩⟩
    refine Text.isAscii_append.mpr ⟨isAscii_sizeLine width height, Text.isAscii_cons.mpr ⟨by decide, ?_⟩⟩
    exact Text.isAscii_append.mpr ⟨isAscii_orderNumeral order, by simp [Text.IsAscii]⟩
  rw [header, hText, Text.encode_ofList hAscii]
  simp [Text.asciiBytes]

/-- A size that can be addressed is read as it is stated. -/
theorem readSize_sizeLine {width height : Nat} (hWidth : 0 < width) (hHeight : 0 < height)
    (hFit : 12 * width * height < 2 ^ 64) :
    readSize (sizeLine width height) = .ok (width, height) := by
  have hBounds : width < 2 ^ 64 ∧ height < 2 ^ 64 := by
    constructor <;> nlinarith
  exact readSize_eq_ok_iff.mpr (StatesSize.mk (Text.writesCount_toDigits width)
    (Text.writesCount_toDigits height) hBounds.1 hBounds.2 ⟨hWidth, hHeight⟩ hFit)

theorem readByteOrder_orderNumeral (order : ByteOrder) :
    readByteOrder (orderNumeral order).toList = .ok order := by
  cases order <;> decide

/-- A header and the bytes of the pixels are read in front of any others. -/
theorem decode_header_append (order : ByteOrder) {width height : Nat} {pixels : List UInt8}
    (extra : List UInt8) (hWidth : 0 < width) (hHeight : 0 < height)
    (hFit : 12 * width * height < 2 ^ 64) (hPixels : pixels.length = 12 * (width * height)) :
    decode (header order width height ++ pixels ++ extra) = .ok (imageOf order width height pixels) := by
  have hOrder := beginsWithLine_asciiBytes (isAscii_orderNumeral order)
    (newline_not_mem_orderNumeral order) (pixels ++ extra)
  have hSize := beginsWithLine_asciiBytes (isAscii_sizeLine width height)
    (newline_not_mem_sizeLine width height)
    (Text.asciiBytes (orderNumeral order).toList ++ 10 :: (pixels ++ extra))
  have hMagic := beginsWithLine_asciiBytes isAscii_magic (by decide)
    (Text.asciiBytes (sizeLine width height) ++ 10 ::
      (Text.asciiBytes (orderNumeral order).toList ++ 10 :: (pixels ++ extra)))
  have hFile : header order width height ++ pixels ++ extra = Text.asciiBytes ['P', 'F'] ++ 10 ::
      (Text.asciiBytes (sizeLine width height) ++ 10 ::
        (Text.asciiBytes (orderNumeral order).toList ++ 10 :: (pixels ++ extra))) := by
    simp [header_eq]
  have hEnough : ¬(pixels ++ extra).length < 12 * (width * height) := by
    rw [List.length_append]
    omega
  rw [hFile, decode_eq_of_lines hMagic hSize hOrder, Text.decodeLossy_asciiBytes isAscii_magic,
    Text.decodeLossy_asciiBytes (isAscii_sizeLine width height),
    Text.decodeLossy_asciiBytes (isAscii_orderNumeral order), if_neg (by simp),
    readSize_sizeLine hWidth hHeight hFit]
  simp only [Except.bind, readByteOrder_orderNumeral]
  rw [if_neg hEnough, List.take_left' hPixels]

theorem length_upward (width height : Nat) (rule : Nat × Nat → Color Double) :
    (upward width height rule).length = width * height := by
  simp [upward, Image.coordinates]

/-- An image of binary32 channels comes back as it was. -/
theorem map_channelBack_eq_self {image : Image Double} (hSingle : ∀ color ∈ image.pixels,
    Binary.IsSingle color.r ∧ Binary.IsSingle color.g ∧ Binary.IsSingle color.b) :
    image.map (Color.map channelBack) = image := by
  have hPixels : image.pixels.map (Color.map channelBack) = image.pixels.map id := by
    apply Array.map_congr_left
    intro color hMem
    obtain ⟨hRed, hGreen, hBlue⟩ := hSingle color hMem
    simp only [Color.map, channelBack, Binary.widen_narrow hRed, Binary.widen_narrow hGreen,
      Binary.widen_narrow hBlue, id]
  rw [Array.map_id] at hPixels
  exact congrArg (Image.mk image.width image.height) hPixels

/-- The file of an image is read as the image with its channels as they come back. -/
theorem exists_decode_eq_map_channelBack (order : ByteOrder) {image : Image Double} (hWidth : 0 < image.width)
    (hHeight : 0 < image.height) (hFilled : image.isFilled = true)
    (hFit : 12 * image.width * image.height < 2 ^ 64) :
    ∃ file, encode order image = .ok file ∧ decode file = .ok (image.map (Color.map channelBack)) := by
  obtain ⟨rule, hImage⟩ := Image.exists_eq_tabulate hFilled
  have hCount : image.width * image.height < UInt64.size := by
    have hSize : UInt64.size = 2 ^ 64 := rfl
    rw [Nat.mul_assoc] at hFit
    omega
  have hPixels : ((upward image.width image.height rule).flatMap (colorBytes order)).length =
      12 * (image.width * image.height) := by
    rw [length_flatMap_colorBytes, length_upward]
  have hRead := decode_header_append order [] hWidth hHeight hFit hPixels
  rw [List.append_nil, imageOf_upward, ← hImage] at hRead
  exact ⟨_, (congrArg (encode order) hImage).trans (encode_tabulate order rule hCount), hRead⟩

/-- Every filled image that a file can state the size of is written in both byte orders and read back from
either file, whatever bytes follow it. What is read has the size of the image and its channels as binary32
numbers: what is not a number stays none, and binary32 numbers are kept. -/
theorem decode_encode_append (image : Image Double) (hWidth : 0 < image.width)
    (hHeight : 0 < image.height) (hFilled : image.isFilled = true)
    (hFit : 12 * image.width * image.height < 2 ^ 64) :
    ∃ back : Image Double,
      (∀ (order : ByteOrder) (extra : List UInt8),
        ∃ file, encode order image = .ok file ∧ decode (file ++ extra) = .ok back) ∧
      (back.width = image.width ∧ back.height = image.height ∧ back.isFilled = true) ∧
      (∀ x y, x < image.width → y < image.height → ∃ color, image.get x y = .ok color ∧
        back.get x y = .ok ⟨Binary.widen (Binary.narrow color.r), Binary.widen (Binary.narrow color.g),
          Binary.widen (Binary.narrow color.b)⟩) ∧
      (∀ c : Double, c.isNaN = true → (Binary.widen (Binary.narrow c)).isNaN = true) ∧
      ((∀ color ∈ image.pixels,
        Binary.IsSingle color.r ∧ Binary.IsSingle color.g ∧ Binary.IsSingle color.b) →
        back = image) := by
  obtain ⟨rule, hImage⟩ := Image.exists_eq_tabulate hFilled
  have hCount : image.width * image.height < UInt64.size := by
    have hSize : UInt64.size = 2 ^ 64 := rfl
    rw [Nat.mul_assoc] at hFit
    omega
  have hBack : image.map (Color.map channelBack) =
      Image.tabulate image.width image.height (Color.map channelBack ∘ rule) := by
    conv_lhs => rw [hImage, Image.map_tabulate]
  refine ⟨image.map (Color.map channelBack), ?_, ⟨rfl, rfl, ?_⟩, ?_, fun c => Binary.isNaN_widen_narrow,
    map_channelBack_eq_self⟩
  · intro order extra
    have hPixels : ((upward image.width image.height rule).flatMap (colorBytes order)).length =
        12 * (image.width * image.height) := by
      rw [length_flatMap_colorBytes, length_upward]
    refine ⟨_, (congrArg (encode order) hImage).trans (encode_tabulate order rule hCount), ?_⟩
    rw [decode_header_append order extra hWidth hHeight hFit hPixels, imageOf_upward, ← hImage]
  · rw [hBack]
    exact Image.isFilled_tabulate _ _ _
  · intro x y hCol hRow
    refine ⟨rule (x, y), ?_, ?_⟩
    · rw [hImage]
      exact Image.get_tabulate rule hCount hCol hRow
    · rw [hBack]
      exact Image.get_tabulate (Color.map channelBack ∘ rule) hCount hCol hRow

/-- Two pixels: numbers of binary32, and a tenth, a number beyond binary32 and what is not a number. -/
def speckled : Image Double :=
  ⟨2, 1, #[⟨⟨0x3ff8000000000000⟩, ⟨0x36a0000000000000⟩, ⟨0xfff0000000000000⟩⟩,
    ⟨⟨0x3fb999999999999a⟩, ⟨0xfe37e43c8800759c⟩, ⟨0x7ff0000000000001⟩⟩]⟩

/-- The tenth is rounded, the number beyond binary32 becomes infinite, and what is not a number stays none. -/
theorem decode_encode_append_speckled :
    (0 < speckled.width ∧ 0 < speckled.height ∧ speckled.isFilled = true ∧
      12 * speckled.width * speckled.height < 2 ^ 64) ∧
    ∃ back : Image Double,
      (∀ (order : ByteOrder) (extra : List UInt8),
        ∃ file, encode order speckled = .ok file ∧ decode (file ++ extra) = .ok back) ∧
      back.get 1 0 = .ok ⟨⟨0x3fb99999a0000000⟩, ⟨0xfff0000000000000⟩, ⟨0x7ff8000000000000⟩⟩ := by
  have hSize : 0 < speckled.width ∧ 0 < speckled.height ∧ speckled.isFilled = true ∧
      12 * speckled.width * speckled.height < 2 ^ 64 := by decide
  refine ⟨hSize, ?_⟩
  obtain ⟨back, hRead, -, hPixels, -⟩ :=
    decode_encode_append speckled hSize.1 hSize.2.1 hSize.2.2.1 hSize.2.2.2
  obtain ⟨color, hColor, hBack⟩ := hPixels 1 0 (by decide) (by decide)
  have hStored : speckled.get 1 0 =
      .ok ⟨⟨0x3fb999999999999a⟩, ⟨0xfe37e43c8800759c⟩, ⟨0x7ff0000000000001⟩⟩ := rfl
  obtain rfl : _ = color := Except.ok.inj (hStored.symm.trans hColor)
  have hTenth : Binary.widen (Binary.narrow ⟨0x3fb999999999999a⟩) = ⟨0x3fb99999a0000000⟩ := by decide
  have hLarge : Binary.widen (Binary.narrow ⟨0xfe37e43c8800759c⟩) = ⟨0xfff0000000000000⟩ := by decide
  have hNone : Binary.widen (Binary.narrow ⟨0x7ff0000000000001⟩) = ⟨0x7ff8000000000000⟩ := by decide
  exact ⟨back, hRead, hBack.trans (by rw [hTenth, hLarge, hNone])⟩

end RayTracer.Pfm
