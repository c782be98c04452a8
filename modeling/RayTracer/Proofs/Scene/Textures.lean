import Mathlib
import RayTracer.Proofs.Binary.Truncation
import RayTracer.Proofs.Storage.FileNames
import RayTracer.Proofs.Storage.FileUpdates
import RayTracer.Proofs.Storage.LoadedImages
import RayTracer.Scene.Material

/-! Textures. Wherever on a surface, a texture has a color: coordinates that are not numbers or lie outside the
texture count as those of its first or last pixels, and an image without pixels is black. -/

namespace RayTracer

namespace Pigment

/-- A coordinate falls on the pixel that it is truncated to, kept within the image. -/
theorem exists_pixelIndex_eq {extent : ℕ} (hPos : 0 < extent) (hFit : extent ≤ UInt64.size) (x : Float) :
    ∃ index, pixelIndex extent x = .ok index ∧ index < extent ∧
      (index : ℤ) = (Binary.Parts.ofFloat (x * Scalar.ofNat extent)).indexBelow extent := by
  refine ⟨_, if_neg hPos.ne', by omega, ?_⟩
  rw [← Binary.Parts.min_indexBelow hPos hFit, ← Binary.truncateNat_eq]
  omega

/-- The color of a texture with pixels is that of the pixel in the column and the row that its coordinates stand
for. -/
theorem exists_texel {image : Image Float} (h : image.Filled) (hSome : image.pixels ≠ #[]) (uv : SurfacePoint Float) :
    ∃ column row color, column < image.width ∧ row < image.height ∧
      (column : ℤ) = (Binary.Parts.ofFloat (uv.u * Scalar.ofNat image.width)).indexBelow image.width ∧
      (row : ℤ) = (Binary.Parts.ofFloat (uv.v * Scalar.ofNat image.height)).indexBelow image.height ∧
      image.pixels[row * image.width + column]? = some color ∧ texel image uv = .ok color := by
  obtain ⟨hSize, hFit⟩ := h
  have hPos : 0 < image.width * image.height := hSize ▸ Array.size_pos_iff.mpr hSome
  have hWide : 0 < image.width := Nat.pos_of_mul_pos_right hPos
  have hHigh : 0 < image.height := Nat.pos_of_mul_pos_left hPos
  have hWidth : image.width ≤ UInt64.size := (Nat.le_mul_of_pos_right _ hHigh).trans hFit.le
  have hHeight : image.height ≤ UInt64.size := (Nat.le_mul_of_pos_left _ hWide).trans hFit.le
  obtain ⟨column, hColumn, hColumnLt, hColumnEq⟩ := exists_pixelIndex_eq hWide hWidth uv.u
  obtain ⟨row, hRow, hRowLt, hRowEq⟩ := exists_pixelIndex_eq hHigh hHeight uv.v
  obtain ⟨rule, hRule⟩ := Image.exists_eq_tabulate (beq_iff_eq.mpr hSize)
  have hPixel := Image.get_tabulate rule hFit hColumnLt hRowLt
  rw [← hRule] at hPixel
  refine ⟨column, row, _, hColumnLt, hRowLt, hColumnEq, hRowEq, Image.getElem?_of_get hPixel, ?_⟩
  have hPixels : ¬image.pixels.isEmpty = true := mt Array.isEmpty_iff.mp hSome
  rw [texel, if_neg hPixels, hColumn, hRow]
  exact hPixel

end Pigment

/-- Looking up a texture always gives a color. On an image with a pixel at every position of its size every pair of
coordinates has a color, those that are infinite, negative, above one or not a number included: black if the image
has no pixels, and otherwise that of the stored pixel whose column is the whole part of the first coordinate times
the width, kept within the columns, and whose row is found in the same way by the second coordinate and the height.
Such are the images of all whole pictures, whatever has decoded them, and what the decoders here give is whole:
whatever is loaded, from whichever folder, has a width, a height and a pixel at every position, and so has whatever
is decoded from the bytes of a float map. Such are blank images of any size, too, and all of these in other
numbers. -/
theorem Pigment.texture_always_has_color :
    (∀ image : Image Float, image.Filled → ∀ uv : SurfacePoint Float,
      (image.pixels = #[] → (Pigment.texture image).colorAt uv = .ok Color.black) ∧
      (image.pixels ≠ #[] → ∃ column row color, column < image.width ∧ row < image.height ∧
        (column : ℤ) = (Binary.Parts.ofFloat (uv.u * Scalar.ofNat image.width)).indexBelow image.width ∧
        (row : ℤ) = (Binary.Parts.ofFloat (uv.v * Scalar.ofNat image.height)).indexBelow image.height ∧
        image.pixels[row * image.width + column]? = some color ∧
        (Pigment.texture image).colorAt uv = .ok color)) ∧
      (∀ picture : Picture, picture.IsWhole → (picture.toImage : Image Double).Filled) ∧
      (∀ format bytes picture, ImageFile.decodePicture? format bytes = some picture → picture.IsWhole) ∧
      (∀ folder path image, ImageFile.load folder path = .ok image → image.Populated) ∧
      (∀ bytes image, Pfm.decode bytes = .ok image → image.Populated) ∧
      (∀ width height (image : Image Float), Image.blank width height = .ok image → image.Filled) ∧
      ∀ image : Image Double, image.Filled → (image.map (·.map Double.toFloat)).Filled := by
  refine ⟨fun image hFilled uv => ⟨fun hNone => ?_, fun hSome => exists_texel hFilled hSome uv⟩,
    fun picture hWhole => hWhole.filled_toImage,
    fun format bytes picture hDecode =>
      SatisfiesM_Option_eq.mp (ImageFile.satisfiesM_decodePicture? format bytes) picture hDecode,
    fun folder path image => ImageFile.populated_of_load, fun bytes image => Pfm.populated_of_decode,
    fun width height image => Image.filled_of_blank, fun image hFilled => hFilled.map _⟩
  exact if_pos (Array.isEmpty_iff.mpr hNone)

/-- A black tile and a red one beside it. -/
def tiles : Picture := ⟨2, 1, #[⟨0, 0, 0⟩, ⟨255, 0, 0⟩]⟩

def gallery : Folder := ⟨[(["tiles.png"], .picture .png tiles)], []⟩

/-- The rows of the tiles fit a single block. -/
theorem decode?_encode_tiles : Png.decode? (Png.encode tiles) = some tiles := by
  have hRows : (List.range tiles.height).flatMap (Png.rowBytes tiles) = [0, 0, 0, 0, 255, 0, 0] := by decide
  have hBlocks : Png.storedBlocks [0, 0, 0, 0, 255, 0, 0] = Png.storedBlock true [0, 0, 0, 0, 255, 0, 0] := by
    rw [Png.storedBlocks, dif_pos (by decide)]
  rw [Png.encode, Png.dataChunk, hRows, Png.stream, hBlocks]
  decide +kernel

/-- The tiles are loaded as they were saved. -/
theorem load_tiles : ImageFile.load gallery "tiles.png" = .ok tiles.toImage := by
  have hSegments : FileName.segments "tiles.png" = ["tiles.png"] := by
    rw [FileName.segments_eq]
    decide
  have hUsable : FileName.isUsable "tiles.png" = true := by
    have hEnds : "tiles.png".contains '\x00' = false := by simp
    rw [FileName.isUsable, hSegments, hEnds]
    decide
  have hExtension : FileName.extension? "tiles.png" = some "png" := by
    have hName : (FileName.components "tiles.png").getLast? = some "tiles.png" := by
      rw [FileName.components, hSegments]
      decide
    have hStem : "tiles" ≠ "" := by decide
    exact FileName.extension?_eq_some hName (by decide) hStem (by decide)
  have hPlace : gallery.resolve? "tiles.png" = some ["tiles.png"] :=
    Folder.resolve?_name hSegments hUsable (by decide +kernel) (by decide) (by decide)
  have hRead : gallery.read? "tiles.png" = some (.picture .png tiles) := by
    rw [Folder.read?, hPlace]
    rfl
  have hFormat : ImageFile.format? "tiles.png" = some .png := by
    rw [ImageFile.format?, hExtension]
    change PictureFormat.ofExtension? "png" = some .png
    decide +kernel
  have hOther : ImageFile.isFloatMap "tiles.png" = false := by
    rw [ImageFile.isFloatMap, hExtension]
    decide +kernel
  have hPicture : ImageFile.pictureOf .png (.picture .png tiles) = .ok tiles := by
    have hBytes : (FileContent.picture .png tiles).encode? = some (Png.encode tiles) := rfl
    rw [ImageFile.pictureOf, hBytes, Option.bind_some, ImageFile.decodePicture?, decode?_encode_tiles]
    rfl
  rw [ImageFile.load, hOther, ImageFile.loadPicture, hFormat, hRead]
  simp only [hPicture]
  rfl

/-- Three quarters of the way across two tiles lies the second one, in the only row there is, even where the other
coordinate is not a number. -/
theorem Pigment.texture_always_has_color_tiles :
    ImageFile.load gallery "tiles.png" = .ok tiles.toImage ∧
      (tiles.toImage : Image Double).Populated ∧
      (Pigment.texture ((tiles.toImage : Image Double).map (·.map Double.toFloat))).colorAt ⟨0.75, 0.0 / 0.0⟩ =
        .ok (Color.map Double.toFloat
          ⟨Color.linearOfByte 255, Color.linearOfByte 0, Color.linearOfByte 0⟩) := by
  obtain ⟨hColor, -, -, hLoaded, -, -, hOtherNumbers⟩ := texture_always_has_color
  have hTiles := hLoaded gallery _ _ load_tiles
  refine ⟨load_tiles, hTiles, ?_⟩
  have hSome : ((tiles.toImage : Image Double).map (·.map Double.toFloat)).pixels ≠ #[] := by
    simp [Image.map, Picture.toImage, tiles]
  obtain ⟨column, row, color, -, -, hColumn, hRow, hPixel, hFound⟩ :=
    (hColor _ (hOtherNumbers _ hTiles.toFilled) ⟨0.75, 0.0 / 0.0⟩).2 hSome
  have hAcross : Binary.Parts.ofFloat (0.75 * Scalar.ofNat 2) = .finite false (3 * 2 ^ 51) (-52) := by
    decide +kernel
  have hDown : Binary.Parts.ofFloat (0.0 / 0.0 * Scalar.ofNat 1) = .notANumber := by decide +kernel
  have hWhole : wholePart (Binary.realOf false (3 * 2 ^ 51) (-52)) = 1 := by
    have hValue : Binary.realOf false (3 * 2 ^ 51) (-52) = 3 / 2 := by
      norm_num [Binary.realOf]
    rw [hValue, wholePart, if_pos (by norm_num), Int.floor_eq_iff]
    norm_num
  change (column : ℤ) = (Binary.Parts.ofFloat (0.75 * Scalar.ofNat 2)).indexBelow 2 at hColumn
  change (row : ℤ) = (Binary.Parts.ofFloat (0.0 / 0.0 * Scalar.ofNat 1)).indexBelow 1 at hRow
  rw [hAcross, Binary.Parts.indexBelow, hWhole] at hColumn
  rw [hDown, Binary.Parts.indexBelow] at hRow
  obtain rfl : column = 1 := by omega
  obtain rfl : row = 0 := by omega
  have hRed : Color.map Double.toFloat
      ⟨Color.linearOfByte 255, Color.linearOfByte 0, Color.linearOfByte 0⟩ = color := by
    simpa [Image.map, Picture.toImage, tiles] using hPixel
  rw [hFound, hRed]

end RayTracer
