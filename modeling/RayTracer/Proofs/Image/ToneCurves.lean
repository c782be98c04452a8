import Mathlib
import RayTracer.Image.Picture
import RayTracer.Proofs.Image.Exposure
import RayTracer.Proofs.Image.HeldImages

/-! Tone mapping in exact arithmetic. An image is scaled by a positive number, whatever its own brightness is, then
every channel is compressed below one and made a byte. Each of these steps keeps the order of channels, so of any
two channels of an image the brighter one has no lesser byte, and none reaches the greatest byte. -/

namespace RayTracer

/-- A place of a color. -/
inductive Channel where
  | red
  | green
  | blue
  deriving DecidableEq, Repr

def Color.channel {α : Type} (color : Color α) : Channel → α
  | .red => color.r
  | .green => color.g
  | .blue => color.b

def Rgb8.channel (rgb : Rgb8) : Channel → UInt8
  | .red => rgb.r
  | .green => rgb.g
  | .blue => rgb.b

theorem Color.channel_map {α β : Type} (f : α → β) (color : Color α) (channel : Channel) :
    (color.map f).channel channel = f (color.channel channel) := by
  cases channel <;> rfl

theorem Color.channel_mul_exact (color : Color ℝ) (scale : ℝ) (channel : Channel) :
    (color * scale).channel channel = color.channel channel * scale := by
  cases channel <;> rfl

/-- Every channel is made a byte by itself. -/
theorem Color.channel_toRgb8 {α : Type} [Scalar α] (gamma : α) (color : Color α) (channel : Channel) :
    (color.toRgb8 gamma).channel channel = Image.channelByte gamma (color.channel channel) := by
  cases channel <;> rfl

theorem Color.channel_nonneg {color : Color ℝ} (hColor : Color.black ≤ color) (channel : Channel) :
    0 ≤ color.channel channel := by
  obtain ⟨hRed, hGreen, hBlue⟩ := Color.black_le_iff.mp hColor
  cases channel
  case red => exact hRed
  case green => exact hGreen
  case blue => exact hBlue

namespace Image

theorem compressChannel_exact (x : ℝ) : compressChannel x = x / (1 + x) := by
  change x / (1.0 + x) = _
  norm_num

/-- Compression makes nothing negative. -/
theorem compressChannel_nonneg {x : ℝ} (hx : 0 ≤ x) : 0 ≤ compressChannel x := by
  rw [compressChannel_exact]
  positivity

/-- Compression stays below one, however bright the channel is. -/
theorem compressChannel_lt_one {x : ℝ} (hx : 0 ≤ x) : compressChannel x < 1 := by
  rw [compressChannel_exact, div_lt_one (by positivity)]
  exact lt_one_add x

/-- Compression keeps the order of channels that are not negative. -/
theorem compressChannel_mono {x y : ℝ} (hx : 0 ≤ x) (hLe : x ≤ y) : compressChannel x ≤ compressChannel y := by
  have hy := hx.trans hLe
  rw [compressChannel_exact, compressChannel_exact, div_le_div_iff₀ (by positivity) (by positivity)]
  linarith

/-- Channels below one have bytes below the greatest, so none is cut off. -/
theorem toNat_channelByte {gamma x : ℝ} (hGamma : 0 < gamma) (hx : 0 ≤ x) (hOne : x < 1) :
    (channelByte gamma x).toNat = ⌊255 * x ^ (1 / gamma)⌋₊ ∧ ⌊255 * x ^ (1 / gamma)⌋₊ ≤ 254 := by
  have hPower : x ^ (1 / gamma) < 1 := Real.rpow_lt_one hx hOne (by positivity)
  have hBelow : ⌊255 * x ^ (1 / gamma)⌋₊ < 255 := by
    rw [Nat.floor_lt (by positivity)]
    push_cast
    linarith
  refine ⟨?_, Nat.le_of_lt_succ hBelow⟩
  have hByte : channelByte gamma x =
      UInt8.ofNat (min (wholePart (255 * x ^ (1 / gamma))).toNat (UInt8.size - 1)) := by
    change UInt8.ofNat (min (wholePart (255.0 * x ^ (1.0 / gamma))).toNat (UInt8.size - 1)) = _
    norm_num
  have hSize : UInt8.size = 256 := rfl
  rw [hByte, wholePart, if_pos (by positivity), Int.floor_toNat, UInt8.toNat_ofNat']
  omega

/-- Bytes are in the order of the compressed channels. -/
theorem channelByte_mono {gamma x y : ℝ} (hGamma : 0 < gamma) (hx : 0 ≤ x) (hLe : x ≤ y) (hOne : y < 1) :
    channelByte gamma x ≤ channelByte gamma y := by
  rw [UInt8.le_iff_toNat_le, (toNat_channelByte hGamma hx (hLe.trans_lt hOne)).1,
    (toNat_channelByte hGamma (hx.trans hLe) hOne).1]
  refine Nat.floor_mono (mul_le_mul_of_nonneg_left ?_ (by norm_num))
  exact Real.rpow_le_rpow hx hLe (by positivity)

/-- A channel below one does not reach the greatest byte. -/
theorem channelByte_le {gamma x : ℝ} (hGamma : 0 < gamma) (hx : 0 ≤ x) (hOne : x < 1) :
    channelByte gamma x ≤ 254 := by
  obtain ⟨hByte, hLe⟩ := toNat_channelByte hGamma hx hOne
  rwa [UInt8.le_iff_toNat_le, hByte]

/-- What is read of a mapped image is mapped from what is read of the image. -/
theorem get_of_get_map {α β : Type} {f : Color α → Color β} {image : Image α} {col row : ℕ} {result : Color β}
    (h : (image.map f).get col row = .ok result) : ∃ color, image.get col row = .ok color ∧ f color = result := by
  obtain ⟨position, hPosition, -⟩ := bind_eq_ok_iff.mp h
  have hLocate : image.locate col row = .ok position := hPosition
  have hPixel := getElem?_of_get h
  rw [← offset_of_locate hPosition] at hPixel
  obtain ⟨color, hColor, hResult⟩ := Option.map_eq_some_iff.mp (Array.getElem?_map.symm.trans hPixel)
  refine ⟨color, bind_eq_ok_iff.mpr ⟨position, hLocate, ?_⟩, hResult⟩
  rw [hColor]
  rfl

/-- What is shown of a color of an image. -/
noncomputable def toned (image : Image ℝ) (factor : ℝ) (color : Color ℝ) : Color ℝ :=
  (color * (factor / image.averageLuminosity 1e-10)).map compressChannel

/-- The bytes of a picture that stand where a color of an image does. -/
def ShownAs (image : Image ℝ) (picture : Picture) (color : Color ℝ) (rgb : Rgb8) : Prop :=
  ∃ col row, col < picture.width ∧ row < picture.height ∧ image.get col row = .ok color ∧
    picture.pixels[row * picture.width + col]? = some rgb

variable {image : Image ℝ} {factor gamma : ℝ} {color other : Color ℝ}

/-- Normalizing and compressing are one map of the colors. -/
theorem compress_normalize (image : Image ℝ) (factor : ℝ) :
    (image.normalize factor none).compress = image.map (image.toned factor) := by
  simp [compress, normalize, map, toned, Function.comp_def]

theorem channel_toned (image : Image ℝ) (factor : ℝ) (color : Color ℝ) (channel : Channel) :
    (image.toned factor color).channel channel =
      compressChannel (color.channel channel * (factor / image.averageLuminosity 1e-10)) := by
  rw [toned, Color.channel_map, Color.channel_mul_exact]

/-- The factor of the exposure is positive, since the logarithmic mean always is. -/
theorem exposure_pos (image : Image ℝ) (hFactor : 0 < factor) : 0 < factor / image.averageLuminosity 1e-10 :=
  div_pos hFactor (averageLuminosity_pos image _)

/-- A toned channel is not negative and below one. -/
theorem channel_toned_bounds (image : Image ℝ) (hFactor : 0 < factor) (hColor : Color.black ≤ color)
    (channel : Channel) :
    0 ≤ (image.toned factor color).channel channel ∧ (image.toned factor color).channel channel < 1 := by
  have hScaled : 0 ≤ color.channel channel * (factor / image.averageLuminosity 1e-10) :=
    mul_nonneg (Color.channel_nonneg hColor channel) (exposure_pos image hFactor).le
  rw [channel_toned]
  exact ⟨compressChannel_nonneg hScaled, compressChannel_lt_one hScaled⟩

/-- Brighter channels of an image have brighter bytes. -/
theorem byte_toned_mono (hFactor : 0 < factor) (hGamma : 0 < gamma) (hColor : Color.black ≤ color)
    (hOther : Color.black ≤ other) {here there : Channel} (hLe : color.channel here ≤ other.channel there) :
    ((image.toned factor color).toRgb8 gamma).channel here ≤ ((image.toned factor other).toRgb8 gamma).channel there ∧
      ((image.toned factor other).toRgb8 gamma).channel there ≤ 254 := by
  have hScale := exposure_pos image hFactor
  have hHere := channel_toned_bounds image hFactor hColor here
  have hThere := channel_toned_bounds image hFactor hOther there
  have hOrder : (image.toned factor color).channel here ≤ (image.toned factor other).channel there := by
    rw [channel_toned, channel_toned]
    exact compressChannel_mono (mul_nonneg (Color.channel_nonneg hColor here) hScale.le)
      (mul_le_mul_of_nonneg_right hLe hScale.le)
  rw [Color.channel_toRgb8, Color.channel_toRgb8]
  exact ⟨channelByte_mono hGamma hHere.1 hOrder hThere.2, channelByte_le hGamma hThere.1 hThere.2⟩

/-- What is shown at the position of a color is that color, toned and made bytes. -/
theorem toRgb8_of_shownAs {picture : Picture} {rgb : Rgb8}
    (hPicture : (image.map (image.toned factor)).toPicture gamma = .ok picture) (h : image.ShownAs picture color rgb) :
    rgb = (image.toned factor color).toRgb8 gamma ∧ color ∈ image.pixels := by
  obtain ⟨col, row, hCol, hRow, hColor, hRgb⟩ := h
  obtain ⟨shown, hShown, hPixel⟩ := getElem?_pixels_of_toPicture hPicture hCol hRow
  obtain ⟨original, hOriginal, rfl⟩ := get_of_get_map hShown
  obtain rfl : color = original := Except.ok.inj (hColor.symm.trans hOriginal)
  rw [hRgb] at hPixel
  exact ⟨Option.some.inj hPixel, Array.mem_of_getElem? (getElem?_of_get hColor)⟩

/-- Tone mapping keeps the order of brightness. What is shown of an image without negative channels lies in the
unit interval, below one. If memory holds the image then it makes a picture, and of two channels anywhere in
the image the one that is not brighter has no greater byte in the picture, where no byte exceeds 254. -/
theorem toneMapping_keeps_order (hFactor : 0 < factor) (hGamma : 0 < gamma)
    (hChannels : ∀ color ∈ image.pixels, Color.black ≤ color) :
    let shown := (image.normalize factor none).compress
    (∀ color ∈ shown.pixels, ∀ channel, 0 ≤ color.channel channel ∧ color.channel channel < 1) ∧
      (image.Held → ∃ picture, shown.toPicture gamma = .ok picture ∧
        picture.width = image.width % UInt32.size ∧ picture.height = image.height % UInt32.size) ∧
      ∀ picture, shown.toPicture gamma = .ok picture →
        (∀ col row, col < picture.width → row < picture.height → ∃ color rgb,
          image.get col row = .ok color ∧ picture.pixels[row * picture.width + col]? = some rgb) ∧
        ∀ color rgb other otherRgb, image.ShownAs picture color rgb → image.ShownAs picture other otherRgb →
          ∀ here there, color.channel here ≤ other.channel there →
            rgb.channel here ≤ otherRgb.channel there ∧ otherRgb.channel there ≤ 254 := by
  intro shown
  have hShown : shown = image.map (image.toned factor) := compress_normalize image factor
  rw [hShown]
  refine ⟨fun color hColor channel => ?_, fun hHeld => ?_, fun picture hPicture => ⟨?_, ?_⟩⟩
  · obtain ⟨original, hOriginal, rfl⟩ := Array.mem_map.mp hColor
    exact channel_toned_bounds image hFactor (hChannels original hOriginal) channel
  · exact (hHeld.map (image.toned factor)).exists_toPicture gamma
  · intro col row hCol hRow
    obtain ⟨toned, hToned, hPixel⟩ := getElem?_pixels_of_toPicture hPicture hCol hRow
    obtain ⟨color, hColor, -⟩ := get_of_get_map hToned
    exact ⟨color, _, hColor, hPixel⟩
  · intro color rgb other otherRgb hColor hOther here there hLe
    obtain ⟨rfl, hMem⟩ := toRgb8_of_shownAs hPicture hColor
    obtain ⟨rfl, hOtherMem⟩ := toRgb8_of_shownAs hPicture hOther
    exact byte_toned_mono hFactor hGamma (hChannels color hMem) (hChannels other hOtherMem) hLe

/-- A black pixel beside a bluish one. -/
noncomputable def dusk : Image ℝ := ⟨2, 1, #[Color.black, ⟨0, 0.5, 1⟩]⟩

theorem held_dusk : dusk.Held where
  wide := by decide
  high := by decide
  filled := rfl
  fits := by decide

theorem get_dusk : dusk.get 0 0 = .ok Color.black ∧ dusk.get 1 0 = .ok ⟨0, 0.5, 1⟩ := ⟨rfl, rfl⟩

theorem black_le_dusk : ∀ color ∈ dusk.pixels, Color.black ≤ color := by
  simp only [dusk, List.mem_toArray, List.mem_cons, List.not_mem_nil, or_false, forall_eq_or_imp, forall_eq]
  exact ⟨le_refl _, Color.black_le_iff.mpr (by norm_num)⟩

/-- The dark pixel of an image at dusk has no more red than the bright one has blue. -/
theorem toneMapping_keeps_order_dusk :
    (0 : ℝ) < 0.5 ∧ (0 : ℝ) < 2.2 ∧ (∀ color ∈ dusk.pixels, Color.black ≤ color) ∧
      ∃ picture dark bright, (dusk.normalize 0.5 none).compress.toPicture 2.2 = .ok picture ∧
        picture.pixels[0]? = some dark ∧ picture.pixels[1]? = some bright ∧
        dark.channel .red ≤ bright.channel .blue ∧ bright.channel .blue ≤ 254 := by
  have hFactor : (0 : ℝ) < 0.5 := by norm_num
  have hGamma : (0 : ℝ) < 2.2 := by norm_num
  obtain ⟨-, hPictured, hBytes⟩ := toneMapping_keeps_order hFactor hGamma black_le_dusk
  obtain ⟨picture, hPicture, hWidth, hHeight⟩ := hPictured held_dusk
  obtain ⟨hPixels, hOrder⟩ := hBytes picture hPicture
  have hSides : picture.width = 2 ∧ picture.height = 1 := ⟨hWidth, hHeight⟩
  obtain ⟨-, dark, -, hDark⟩ := hPixels 0 0 (by omega) (by omega)
  obtain ⟨-, bright, -, hBright⟩ := hPixels 1 0 (by omega) (by omega)
  have hLess : (Color.black : Color ℝ).channel .red ≤ (⟨0, 0.5, 1⟩ : Color ℝ).channel .blue := by
    rw [Color.black_exact]
    norm_num [Color.channel]
  refine ⟨hFactor, hGamma, black_le_dusk, picture, dark, bright, hPicture, ?_, ?_, ?_⟩
  · rwa [Nat.zero_mul] at hDark
  · rwa [Nat.zero_mul] at hBright
  · exact hOrder Color.black dark ⟨0, 0.5, 1⟩ bright ⟨0, 0, by omega, by omega, get_dusk.1, hDark⟩
      ⟨1, 0, by omega, by omega, get_dusk.2, hBright⟩ .red .blue hLess

end Image

end RayTracer
