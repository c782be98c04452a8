import Mathlib
import RayTracer.Proofs.Image.FloatMapFixedPoints
import RayTracer.Proofs.Image.WholePhotographs
import RayTracer.Storage.ImageFile

/-! Images from files. A float map states a size with pixels and has them all, and a picture without pixels is
refused, so whatever is loaded has pixels, one at every position of its size. -/

namespace RayTracer

/-- An image with a pixel at every position of its size, no more of them than can be counted. There may be none. -/
structure Image.Filled {α : Type} (image : Image α) : Prop where
  size_pixels : image.pixels.size = image.width * image.height
  countable : image.width * image.height < UInt64.size

/-- An image with pixels, one at every position of its size. -/
structure Image.Populated {α : Type} (image : Image α) : Prop extends image.Filled where
  wide : 0 < image.width
  high : 0 < image.height

theorem Image.Filled.map {α β : Type} {image : Image α} (h : image.Filled) (f : Color α → Color β) :
    (image.map f).Filled :=
  ⟨Array.size_map.trans h.size_pixels, h.countable⟩

/-- A blank image has black at every position. -/
theorem Image.filled_of_blank {α : Type} [Scalar α] {width height : ℕ} {image : Image α}
    (h : Image.blank width height = .ok image) : image.Filled := by
  obtain ⟨rfl, hHeld⟩ := Image.blank_eq_tabulate h
  exact ⟨Image.size_pixels_tabulate _ _ _, Image.count_lt_of_held hHeld⟩

/-- The pixels of a whole picture can be counted, since its sides have 32 bits. -/
theorem Picture.IsWhole.count_lt {picture : Picture} (h : picture.IsWhole) :
    picture.width * picture.height < UInt64.size := by
  calc
    picture.width * picture.height < UInt32.size * UInt32.size := Nat.mul_lt_mul'' h.sides.1 h.sides.2
    _ = UInt64.size := by decide

/-- A whole picture shows something at every position. -/
theorem Picture.IsWhole.filled_toImage {α : Type} [Scalar α] {picture : Picture} (h : picture.IsWhole) :
    (picture.toImage : Image α).Filled :=
  ⟨Array.size_map.trans h.size_pixels, h.count_lt⟩

/-- A float map states a size with pixels and has them all. -/
theorem Pfm.populated_of_decode {bytes : List UInt8} {image : Image Double} (h : decode bytes = .ok image) :
    image.Populated := by
  obtain ⟨order, width, height, payload, hHeader⟩ := exists_header_of_decode h
  rw [hHeader.decode_eq] at h
  obtain ⟨-, -, -, hSize, -⟩ := hHeader
  obtain ⟨hWidth, hHeight, hFit⟩ := (sizeLine_iff.mp hSize).bounds
  split at h
  next => cases h
  next hEnough =>
      obtain rfl := Except.ok.inj h
      refine ⟨⟨size_pixels_imageOf order ?_, hFit⟩, hWidth, hHeight⟩
      rw [List.length_take, Nat.min_eq_left (Nat.not_lt.mp hEnough), Nat.mul_assoc]

namespace ImageFile

variable {folder : Folder} {path : String} {image : Image Double}

/-- Whatever the format, a picture is read as a whole one. -/
theorem satisfiesM_decodePicture? (format : PictureFormat) (bytes : List UInt8) :
    SatisfiesM Picture.IsWhole (decodePicture? format bytes) := by
  cases format with
  | png => exact (ByteReader.satisfiesM_apply Png.satisfiesM_read bytes).map id
  | bmp => exact Bitmap.satisfiesM_decode? bytes
  | tga => exact (ByteReader.satisfiesM_apply Targa.satisfiesM_read bytes).map id
  | radiance => exact (ByteReader.satisfiesM_apply Radiance.satisfiesM_read bytes).map id
  | jpeg => exact Jpeg.satisfiesM_decode? bytes
  | other => exact satisfiesM_none

/-- A content is read as a whole picture. -/
theorem isWhole_of_pictureOf {format : PictureFormat} {content : FileContent} {picture : Picture}
    (h : pictureOf format content = .ok picture) : picture.IsWhole := by
  unfold pictureOf at h
  split at h
  next => cases h
  next found hFound =>
      obtain ⟨bytes, -, hDecode⟩ := Option.bind_eq_some_iff.mp hFound
      have hWhole := SatisfiesM_Option_eq.mp (satisfiesM_decodePicture? format bytes) found hDecode
      split at h
      next => cases h
      next => exact Except.ok.inj h ▸ hWhole

/-- A float map that is loaded has all its pixels. -/
theorem populated_of_loadFloatMap (h : loadFloatMap folder path = .ok image) :
    image.Populated := by
  unfold loadFloatMap at h
  split at h
  next => cases h
  next content hContent =>
      cases hDecode : Pfm.decode content with
      | error reason => simp [hDecode] at h
      | ok found =>
          rw [hDecode] at h
          obtain rfl := Except.ok.inj h
          exact Pfm.populated_of_decode hDecode
  next => cases h

/-- A picture that is loaded has all its pixels, since one without any is refused. -/
theorem populated_of_loadPicture (h : loadPicture folder path = .ok image) :
    image.Populated := by
  unfold loadPicture at h
  split at h
  next format content hFormat hContent =>
      obtain ⟨picture, hPicture, hShown⟩ := bind_eq_ok_iff.mp h
      have hFilled : (picture.toImage : Image Double).Filled := (isWhole_of_pictureOf hPicture).filled_toImage
      split at hShown
      next => cases hShown
      next hSome =>
          obtain rfl := Except.ok.inj hShown
          obtain ⟨hWidth, hHeight⟩ := not_or.mp hSome
          exact ⟨hFilled, Nat.pos_of_ne_zero hWidth, Nat.pos_of_ne_zero hHeight⟩
  next => cases h

/-- An image that is loaded has a pixel at every position, whichever format it is read from. -/
theorem populated_of_load (h : load folder path = .ok image) :
    image.Populated := by
  unfold load at h
  split at h
  · exact populated_of_loadFloatMap h
  · exact populated_of_loadPicture h

end ImageFile

end RayTracer
