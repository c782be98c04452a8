import Mathlib
import RayTracer.Proofs.Image.FloatMapFormat
import RayTracer.Proofs.Image.FloatMapRoundTrip

/-! Reading a float map and writing it again. As long as the bytes of the pixels spell numbers, they are
written as they were read, whatever their rows and their byte order. A file with the header that is written
is therefore a fixed point of reading and writing, and what has been saved once is saved again the same. -/

namespace RayTracer.Pfm

/-- None of the binary32 words that bytes spell, four bytes each, is one of what is not a number: their
magnitudes are at most that of infinity. -/
def SpellsNumbers (order : ByteOrder) : List UInt8 → Prop
  | a :: b :: c :: d :: rest =>
    (order.word a b c d).toNat % 2 ^ 31 ≤ 255 * 2 ^ 23 ∧ SpellsNumbers order rest
  | _ => True

/-- Bytes spell numbers word by word. -/
theorem spellsNumbers_bytes_append {order : ByteOrder} {word : UInt32} {rest : List UInt8} :
    SpellsNumbers order (order.bytes word ++ rest) ↔
      word.toNat % 2 ^ 31 ≤ 255 * 2 ^ 23 ∧ SpellsNumbers order rest := by
  obtain ⟨a, b, c, d, hBytes, hWord⟩ := order.exists_bytes_eq word
  rw [hBytes, List.cons_append, List.cons_append, List.cons_append, List.cons_append, List.nil_append,
    SpellsNumbers, hWord]

/-- Colors whose channels are numbers are spelled by words of numbers. -/
theorem spellsNumbers_flatMap_colorBytes (order : ByteOrder) {colors : List (Color Double)}
    (h : ∀ color ∈ colors, color.r.isNaN = false ∧ color.g.isNaN = false ∧ color.b.isNaN = false) :
    SpellsNumbers order (colors.flatMap (colorBytes order)) := by
  induction colors with
  | nil => trivial
  | cons color colors ih =>
      obtain ⟨⟨hRed, hGreen, hBlue⟩, hRest⟩ := List.forall_mem_cons.mp h
      rw [List.flatMap_cons, colorBytes, List.append_assoc, List.append_assoc]
      exact spellsNumbers_bytes_append.mpr ⟨Binary.toNat_narrow_le hRed,
        spellsNumbers_bytes_append.mpr ⟨Binary.toNat_narrow_le hGreen,
          spellsNumbers_bytes_append.mpr ⟨Binary.toNat_narrow_le hBlue, ih hRest⟩⟩⟩

/-- A word of a number is widened to one, and comes back from it. -/
theorem bytes_narrow_widen (order : ByteOrder) {a b c d : UInt8}
    (h : (order.word a b c d).toNat % 2 ^ 31 ≤ 255 * 2 ^ 23) :
    order.bytes (Binary.narrow (Binary.widen (order.word a b c d))) = [a, b, c, d] := by
  have hNumber : (Binary.widen (order.word a b c d)).isNaN = false := by
    rw [Binary.isNaN_widen]
    exact decide_eq_false (Nat.not_lt.mpr h)
  rw [Binary.narrow_widen hNumber, ByteOrder.bytes_word]

/-- A color whose bytes spell numbers is spelled by the same bytes again. -/
theorem readColors_of_spellsNumbers (order : ByteOrder) : ∀ {bytes : List UInt8}, 12 ≤ bytes.length →
    SpellsNumbers order bytes → ∃ color, readColors order bytes = color :: readColors order (bytes.drop 12) ∧
      colorBytes order color = bytes.take 12 ∧ SpellsNumbers order (bytes.drop 12)
  | r₀ :: r₁ :: r₂ :: r₃ :: g₀ :: g₁ :: g₂ :: g₃ :: b₀ :: b₁ :: b₂ :: b₃ :: rest, _, hNumbers => by
      obtain ⟨hRed, hGreen, hBlue, hRest⟩ := hNumbers
      refine ⟨_, rfl, ?_, hRest⟩
      rw [colorBytes, bytes_narrow_widen order hRed, bytes_narrow_widen order hGreen,
        bytes_narrow_widen order hBlue]
      rfl

/-- Bytes that spell numbers are spelled again as they were. -/
theorem flatMap_colorBytes_readColors (order : ByteOrder) {count : Nat} {bytes : List UInt8}
    (hLength : bytes.length = 12 * count) (hNumbers : SpellsNumbers order bytes) :
    (readColors order bytes).flatMap (colorBytes order) = bytes := by
  induction count generalizing bytes with
  | zero =>
      rw [List.length_eq_zero_iff.mp hLength]
      rfl
  | succ count ih =>
      obtain ⟨color, hRead, hColor, hRest⟩ := readColors_of_spellsNumbers order (by omega) hNumbers
      have hFewer : (bytes.drop 12).length = 12 * count := by
        rw [List.length_drop]
        omega
      rw [hRead, List.flatMap_cons, hColor, ih hFewer hRest, List.take_append_drop]

/-- As many colors as fill a size are those of an image, from the lowest row on. -/
theorem exists_eq_upward {width height : Nat} {colors : List (Color Double)}
    (hLength : colors.length = width * height) : ∃ rule, colors = upward width height rule := by
  have hFilled : (⟨width, height, colors.toArray⟩ : Image Double).isFilled = true := beq_iff_eq.mpr hLength
  obtain ⟨rule, hRule⟩ := Image.exists_eq_tabulate hFilled
  refine ⟨fun position => rule (position.1, height - 1 - position.2), ?_⟩
  have hColors : colors = (Image.coordinates width height).map rule :=
    congrArg (fun image : Image Double => image.pixels.toList) hRule
  rw [hColors, upward]
  refine List.map_congr_left fun position hMem => ?_
  obtain ⟨-, hRow⟩ := Image.mem_coordinates.mp hMem
  have hTwice : height - 1 - (height - 1 - position.2) = position.2 := by omega
  rw [hTwice]

/-- The bytes of the pixels are written as they were read. -/
theorem encode_imageOf (order : ByteOrder) {width height : Nat} {bytes : List UInt8}
    (hLength : bytes.length = 12 * (width * height)) (hFit : width * height < UInt64.size)
    (hNumbers : SpellsNumbers order bytes) :
    encode order (imageOf order width height bytes) = .ok (header order width height ++ bytes) := by
  have hBytes := flatMap_colorBytes_readColors order hLength hNumbers
  obtain ⟨rule, hRule⟩ := exists_eq_upward (length_readColors order hLength)
  have hImage : imageOf order width height bytes =
      Image.tabulate width height (Color.map channelBack ∘ rule) := by
    calc
      imageOf order width height bytes
          = imageOf order width height ((upward width height rule).flatMap (colorBytes order)) := by
            rw [← hRule, hBytes]
      _ = Image.tabulate width height (Color.map channelBack ∘ rule) := by
            rw [imageOf_upward, Image.map_tabulate]
  -- The colors have been widened from binary32, so narrowing and widening them again changes nothing.
  have hColors : upward width height (Color.map channelBack ∘ rule) = readColors order bytes := by
    calc
      upward width height (Color.map channelBack ∘ rule)
          = (upward width height rule).map (Color.map channelBack) := by
            rw [upward, upward, List.map_map]
            rfl
      _ = readColors order ((readColors order bytes).flatMap (colorBytes order)) := by
            rw [readColors_flatMap_colorBytes, hRule]
      _ = readColors order bytes := by rw [hBytes]
  rw [hImage, encode_tabulate order _ hFit, hColors, hBytes]

/-- What is written of an image is its header and colors of its pixels, as many as fill its size. -/
theorem exists_colors_of_encode {order : ByteOrder} {image : Image Double} {file : List UInt8}
    (h : encode order image = .ok file) : ∃ colors : List (Color Double),
      file = header order image.width image.height ++ colors.flatMap (colorBytes order) ∧
      colors.length = image.width * image.height ∧ (∀ color ∈ colors, color ∈ image.pixels) ∧
      ∀ position ∈ Image.coordinates image.width image.height,
        ∃ color, image.get position.1 (image.height - 1 - position.2) = .ok color := by
  obtain ⟨found, hVisit, hFile⟩ := bind_eq_ok_iff.mp h
  rw [Rectangle.visit_eq, map_eq_pure_bind] at hVisit
  obtain ⟨colors, hColors, hVisited⟩ := bind_eq_ok_iff.mp hVisit
  obtain rfl := Except.ok.inj hVisited
  obtain ⟨hFound, hPixels⟩ := forall_mem_of_mapM_eq_ok hColors
  refine ⟨colors, (Except.ok.inj hFile).symm, ?_, fun color hColor => ?_, hFound⟩
  · rw [← (mapM_eq_ok_iff.mp hColors).length_eq, Rectangle.length_positions]
  · obtain ⟨position, -, hGet⟩ := hPixels color hColor
    exact Array.mem_of_getElem? (Image.getElem?_of_get hGet)

/-- An image that is written has at least the pixels of its size. -/
theorem size_le_of_encode {order : ByteOrder} {image : Image Double} {file : List UInt8}
    (h : encode order image = .ok file) (hWidth : 0 < image.width) (hHeight : 0 < image.height) :
    image.width * image.height ≤ image.pixels.size := by
  obtain ⟨colors, -, -, -, hFound⟩ := exists_colors_of_encode h
  have hLast : (image.width - 1, 0) ∈ Image.coordinates image.width image.height :=
    Image.mem_coordinates.mpr ⟨by omega, hHeight⟩
  obtain ⟨color, hGet⟩ := hFound _ hLast
  obtain ⟨hPlace, -⟩ := Array.getElem?_eq_some_iff.mp (Image.getElem?_of_get hGet)
  calc
    image.width * image.height = image.width * (image.height - 1) + image.width := by
      rw [← Nat.mul_succ, Nat.succ_eq_add_one, Nat.sub_add_cancel hHeight]
    _ = (image.height - 1 - 0) * image.width + (image.width - 1) + 1 := by
      rw [Nat.mul_comm, Nat.sub_zero]
      omega
    _ ≤ image.pixels.size := hPlace

/-- Bytes that begin with the three lines of a header: the magic, a line that states a size, and one that
states a byte order, each in any spelling. What follows is the payload. -/
inductive BeginsWithHeader : List UInt8 → ByteOrder → Nat → Nat → List UInt8 → Prop
  | mk {bytes afterMagic size afterSize orderLine payload : List UInt8} {order : ByteOrder}
      {width height : Nat} (hFirst : Binary.BeginsWithLine bytes [0x50, 0x46] afterMagic)
      (hSecond : Binary.BeginsWithLine afterMagic size afterSize)
      (hThird : Binary.BeginsWithLine afterSize orderLine payload) (hSize : SizeLine size width height)
      (hOrder : OrderLine orderLine order) : BeginsWithHeader bytes order width height payload

/-- What can be decoded begins with a header. -/
theorem exists_header_of_decode {bytes : List UInt8} {image : Image Double} (h : decode bytes = .ok image) :
    ∃ order width height payload, BeginsWithHeader bytes order width height payload := by
  have hFirst := Binary.beginsWithLine_takeLine bytes
  have hSecond := Binary.beginsWithLine_takeLine (Binary.takeLine bytes).2
  have hThird := Binary.beginsWithLine_takeLine (Binary.takeLine (Binary.takeLine bytes).2).2
  obtain ⟨width, height, order, hMagic, hSize, hOrder, -⟩ := header_of_decode_eq_ok hFirst hSecond hThird h
  rw [hMagic] at hFirst
  exact ⟨order, width, height, _, .mk hFirst hSecond hThird hSize hOrder⟩

/-- Reading a file with a header depends on the number of bytes behind it. -/
theorem BeginsWithHeader.decode_eq {bytes payload : List UInt8} {order : ByteOrder} {width height : Nat}
    (h : BeginsWithHeader bytes order width height payload) :
    decode bytes = if payload.length < 12 * width * height then .error .truncated
      else .ok (imageOf order width height (payload.take (12 * width * height))) := by
  obtain ⟨hFirst, hSecond, hThird, hSize, hOrder⟩ := h
  exact decode_eq_of_header hFirst hSecond hThird rfl hSize hOrder

/-- What is read behind a header is written behind the header of its size, the same. -/
theorem BeginsWithHeader.encode_of_decode {bytes payload : List UInt8} {order : ByteOrder} {width height : Nat}
    (h : BeginsWithHeader bytes order width height payload) {image : Image Double}
    (hRead : decode bytes = .ok image) :
    (image.width = width ∧ image.height = height ∧ 12 * width * height ≤ payload.length) ∧
      (SpellsNumbers order (payload.take (12 * width * height)) →
        encode order image = .ok (header order width height ++ payload.take (12 * width * height))) := by
  rw [h.decode_eq] at hRead
  split at hRead
  next => cases hRead
  next hEnough =>
      obtain rfl := Except.ok.inj hRead
      refine ⟨⟨rfl, rfl, Nat.not_lt.mp hEnough⟩, fun hNumbers => ?_⟩
      obtain ⟨-, -, -, hSize, -⟩ := h
      have hLength : (payload.take (12 * width * height)).length = 12 * (width * height) := by
        rw [List.length_take, Nat.min_eq_left (Nat.not_lt.mp hEnough), Nat.mul_assoc]
      exact encode_imageOf order hLength (sizeLine_iff.mp hSize).bounds.2.2 hNumbers

/-- A file with the header that is written is read and written as it is. -/
theorem encode_decode_header_append (order : ByteOrder) {width height : Nat} {pixels : List UInt8}
    (hWidth : 0 < width) (hHeight : 0 < height) (hFit : 12 * width * height < 2 ^ 64)
    (hLength : pixels.length = 12 * (width * height)) (hNumbers : SpellsNumbers order pixels) :
    ∃ image, decode (header order width height ++ pixels) = .ok image ∧
      encode order image = .ok (header order width height ++ pixels) := by
  have hRead := decode_header_append order [] hWidth hHeight hFit hLength
  rw [List.append_nil] at hRead
  exact ⟨_, hRead, encode_imageOf order hLength (count_lt_of_fit hFit) hNumbers⟩

/-- Writing undoes reading. What a file is read as is written, in the byte order that the file states, as the
header of its size and the bytes of its pixels, unless these spell what is not a number. So files with a
header as it is written are fixed points. An image that is kept in memory and written, without channels that
are none, is read back and written again the same; it can be written when its pixels fill its size. -/
theorem encode_decode :
    (∀ bytes image, decode bytes = .ok image →
      (∃ order width height payload, BeginsWithHeader bytes order width height payload) ∧
      ∀ order width height payload, BeginsWithHeader bytes order width height payload →
        (image.width = width ∧ image.height = height ∧ 12 * width * height ≤ payload.length) ∧
        (SpellsNumbers order (payload.take (12 * width * height)) →
          encode order image = .ok (header order width height ++ payload.take (12 * width * height)))) ∧
    (∀ order width height (pixels : List UInt8), 0 < width → 0 < height → 12 * width * height < 2 ^ 64 →
      pixels.length = 12 * (width * height) → SpellsNumbers order pixels →
      ∃ image, decode (header order width height ++ pixels) = .ok image ∧
        encode order image = .ok (header order width height ++ pixels)) ∧
    ∀ (order : ByteOrder) (image : Image Double), 0 < image.width → 0 < image.height →
      Image.checkBuffer image.pixels.size = .ok () →
      (image.isFilled = true → ∃ file, encode order image = .ok file) ∧
      ((∀ color ∈ image.pixels, color.r.isNaN = false ∧ color.g.isNaN = false ∧ color.b.isNaN = false) →
        ∀ file, encode order image = .ok file →
          ∃ back, decode file = .ok back ∧ encode order back = .ok file) := by
  refine ⟨fun bytes image hRead => ⟨exists_header_of_decode hRead, fun _ _ _ _ hHeader =>
      hHeader.encode_of_decode hRead⟩,
    fun order width height pixels => encode_decode_header_append order,
    fun order image hWidth hHeight hBuffer => ?_⟩
  have hHeld : image.pixels.size * Image.pixelBytes < UInt64.size / 2 := by
    unfold Image.checkBuffer at hBuffer
    split at hBuffer
    next hHeld => exact hHeld
    next => cases hBuffer
  refine ⟨fun hFilled => ?_, fun hNumbers file hWritten => ?_⟩
  · obtain ⟨rule, hRule⟩ := Image.exists_eq_tabulate hFilled
    have hSize : image.pixels.size = image.width * image.height := beq_iff_eq.mp hFilled
    rw [hRule]
    exact ⟨_, encode_tabulate order rule (hSize ▸ Image.count_lt_of_held hHeld)⟩
  · have hSize := size_le_of_encode hWritten hWidth hHeight
    obtain ⟨colors, rfl, hLength, hColors, -⟩ := exists_colors_of_encode hWritten
    have hFit : 12 * image.width * image.height < 2 ^ 64 := by
      have hWhole : UInt64.size = 2 ^ 64 := rfl
      rw [Image.pixelBytes, hWhole] at hHeld
      rw [Nat.mul_assoc]
      omega
    have hPixels : (colors.flatMap (colorBytes order)).length = 12 * (image.width * image.height) := by
      rw [length_flatMap_colorBytes, hLength]
    exact encode_decode_header_append order hWidth hHeight hFit hPixels
      (spellsNumbers_flatMap_colorBytes order fun color hColor => hNumbers color (hColors color hColor))

/-- The bytes of the least negative subnormal, of infinity and of the negative zero, highest byte first. -/
def edges : List UInt8 := [0x80, 0, 0, 1, 0x7f, 0x80, 0, 0, 0x80, 0, 0, 0]

/-- A pixel behind a header with a sign, a leading zero, a blank and an exponent, and a byte too many. -/
def loose : List UInt8 :=
  [0x50, 0x46] ++ 10 :: ([0x2b, 0x31, 0x20, 0x30, 0x31] ++ 10 ::
    ([0x20, 0x31, 0x65, 0x30] ++ 10 :: (edges ++ [7])))

theorem beginsWithHeader_loose : BeginsWithHeader loose .bigEndian 1 1 (edges ++ [7]) := by
  refine .mk (.ended (by decide)) (.ended (by decide)) (.ended (by decide)) ?_ ?_
  · exact sizeLine_iff.mpr (readSize_eq_ok_iff.mp (by decide +kernel))
  · exact readByteOrder_eq_ok_iff.mp (by decide +kernel)

/-- One pixel: a tenth, a number beyond binary32 and the negative zero. -/
def pinprick : Image Double := ⟨1, 1, #[⟨⟨0x3fb999999999999a⟩, ⟨0xfe37e43c8800759c⟩, ⟨0x8000000000000000⟩⟩]⟩

/-- The header is written anew and the pixel as it was; what is written then is a fixed point. -/
theorem encode_decode_loose :
    (∃ image, decode loose = .ok image ∧
      encode .bigEndian image = .ok (header .bigEndian 1 1 ++ edges)) ∧
    (∃ image, decode (header .bigEndian 1 1 ++ edges) = .ok image ∧
      encode .bigEndian image = .ok (header .bigEndian 1 1 ++ edges)) ∧
    ∃ file back, encode .littleEndian pinprick = .ok file ∧ decode file = .ok back ∧
      encode .littleEndian back = .ok file := by
  have hNumbers : SpellsNumbers .bigEndian edges := ⟨by decide, by decide, by decide, trivial⟩
  refine ⟨?_, encode_decode.2.1 .bigEndian 1 1 edges (by decide) (by decide) (by decide) rfl hNumbers, ?_⟩
  · have hRead := beginsWithHeader_loose.decode_eq
    rw [if_neg (by decide)] at hRead
    exact ⟨_, hRead, ((encode_decode.1 loose _ hRead).2 _ _ _ _ beginsWithHeader_loose).2 hNumbers⟩
  · obtain ⟨hWrites, hAgain⟩ := encode_decode.2.2 .littleEndian pinprick (by decide) (by decide) rfl
    obtain ⟨file, hFile⟩ := hWrites rfl
    have hChannels : ∀ color ∈ pinprick.pixels,
        color.r.isNaN = false ∧ color.g.isNaN = false ∧ color.b.isNaN = false := by
      intro color hColor
      obtain rfl := Array.mem_singleton.mp hColor
      decide
    obtain ⟨back, hRead, hBack⟩ := hAgain hChannels file hFile
    exact ⟨file, back, hFile, hRead, hBack⟩

end RayTracer.Pfm
