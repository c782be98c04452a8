import Mathlib
import RayTracer.Image.Picture
import RayTracer.Proofs.Image.Tabulation

/-! Images of pixels that memory holds. They are what is rendered and what is shown: their size does not change
while pixels are set and colors are mapped, and all of them make a picture. -/

namespace RayTracer.Image

variable {α : Type}

/-- An image of pixels that memory holds. -/
structure Held (image : Image α) : Prop where
  wide : 0 < image.width
  high : 0 < image.height
  filled : image.isFilled = true
  fits : image.width * image.height * pixelBytes < UInt64.size / 2

variable {image : Image α}

theorem Held.map {β : Type} (h : image.Held) (f : Color α → Color β) : (image.map f).Held where
  wide := h.wide
  high := h.high
  filled := by
    have hFilled := h.filled
    simpa [isFilled, Image.map] using hFilled
  fits := h.fits

/-- An image keeps its size when a pixel is set. -/
theorem Held.set {next : Image α} {col row : ℕ} {color : Color α} (h : image.Held)
    (hSet : image.set col row color = .ok next) : next.Held := by
  obtain ⟨position, -, hNext⟩ := bind_eq_ok_iff.mp hSet
  split at hNext
  next =>
      obtain rfl := Except.ok.inj hNext
      have hFilled := h.filled
      exact ⟨h.wide, h.high, by simpa [isFilled] using hFilled, h.fits⟩
  next => cases hNext

/-- A blank image with pixels is held where it could be made. -/
theorem held_of_blank [Scalar α] {width height : ℕ} (hWidth : 0 < width) (hHeight : 0 < height)
    (hBlank : blank width height = .ok image) : image.Held := by
  obtain ⟨rfl, hFits⟩ := blank_eq_tabulate hBlank
  exact ⟨hWidth, hHeight, isFilled_tabulate _ _ _, hFits⟩

/-- The sides of a picture count in fewer bits than those of an image, and what they keep of them is no more. -/
theorem Held.exists_toPicture [Scalar α] (h : image.Held) (gamma : α) :
    ∃ picture, image.toPicture gamma = .ok picture ∧ picture.width = image.width % UInt32.size ∧
      picture.height = image.height % UInt32.size := by
  obtain ⟨rule, hImage⟩ := exists_eq_tabulate h.filled
  have hFits := h.fits
  have hWidth : image.width % UInt32.size ≤ image.width := Nat.mod_le _ _
  have hHeight : image.height % UInt32.size ≤ image.height := Nat.mod_le _ _
  have hArea := Nat.mul_le_mul hWidth hHeight
  have hCount := count_lt_of_held hFits
  have hBytes : Picture.checkBytes (image.width % UInt32.size) (image.height % UInt32.size) = .ok () := by
    have hFew : 3 * (image.width % UInt32.size * (image.height % UInt32.size)) < UInt64.size / 2 := by
      simp only [pixelBytes] at hFits
      omega
    have hFewer : ¬UInt64.size ≤ 3 * (image.width % UInt32.size * (image.height % UInt32.size)) := by omega
    rw [Picture.checkBytes, if_neg hFewer, if_neg hFew.not_ge]
  have hPixels : ∀ position ∈ Rectangle.positions ⟨0, 0, image.width % UInt32.size, image.height % UInt32.size⟩,
      (fun position : ℕ × ℕ => image.get position.1 position.2) position = .ok (rule position) := by
    intro position hPosition
    obtain ⟨hCol, hRow⟩ := mem_coordinates.mp hPosition
    rw [hImage]
    exact get_tabulate rule hCount (hCol.trans_le hWidth) (hRow.trans_le hHeight)
  have hVisit := (Rectangle.visit_eq (fun position : ℕ × ℕ => image.get position.1 position.2)
    ⟨0, 0, image.width % UInt32.size, image.height % UInt32.size⟩).trans
      (congrArg (Functor.map List.toArray) (mapM_eq_ok_map hPixels))
  exact ⟨_, bind_eq_ok_iff.mpr ⟨(), hBytes, bind_eq_ok_iff.mpr ⟨_, hVisit, rfl⟩⟩, rfl, rfl⟩

/-- The place of a position in the list of the coordinates. -/
theorem getElem?_coordinates {width height col row : ℕ} (hCol : col < width) (hRow : row < height) :
    (coordinates width height)[row * width + col]? = some (col, row) := by
  obtain ⟨hColumn, hLine⟩ := column_row_of_offset row hCol
  rw [coordinates_eq_map_range, List.getElem?_map, List.getElem?_range (offset_lt hCol hRow), Option.map_some,
    hColumn, hLine]

/-- Every pixel of a picture is that of the image at the same position, as bytes. -/
theorem getElem?_pixels_of_toPicture [Scalar α] {gamma : α} {picture : Picture}
    (hPicture : image.toPicture gamma = .ok picture) {col row : ℕ} (hCol : col < picture.width)
    (hRow : row < picture.height) :
    ∃ color, image.get col row = .ok color ∧
      picture.pixels[row * picture.width + col]? = some (color.toRgb8 gamma) := by
  obtain ⟨-, -, hColors⟩ := bind_eq_ok_iff.mp hPicture
  obtain ⟨colors, hVisit, hEqual⟩ := bind_eq_ok_iff.mp hColors
  obtain rfl := pure_eq_ok_iff.mp hEqual
  rw [Rectangle.visit_eq, map_eq_pure_bind] at hVisit
  obtain ⟨found, hFound, hArray⟩ := bind_eq_ok_iff.mp hVisit
  obtain rfl := pure_eq_ok_iff.mp hArray
  obtain ⟨color, hColor, hPlace⟩ := getElem?_of_mapM_eq_ok hFound (getElem?_coordinates hCol hRow)
  refine ⟨color, hColor, ?_⟩
  rw [Array.getElem?_map, List.getElem?_toArray, hPlace, Option.map_some]

end RayTracer.Image
