import Mathlib
import RayTracer.Proofs.Image.FloatMapRoundTrip
import RayTracer.Proofs.Image.HeldImages
import RayTracer.Proofs.Storage.FileUpdates
import RayTracer.Storage.ImageFile

/-! Images that have been saved. A float map that was written can be loaded, with its channels as they come back
from the file, and it stays in place while pictures are written: their extensions are others, so they lie in
other places. A picture that was written is what its file shows. -/

namespace RayTracer.ImageFile

variable {folder : Folder} {path other : String} {image : Image Double} {gamma : Double} {picture : Picture}

/-- The file of a path holds a picture, in the format of its extension. -/
def Shows (folder : Folder) (path : String) (picture : Picture) : Prop :=
  ∃ format, format? path = some format ∧ folder.read? path = some (.picture format picture)

/-- A picture of a size can be written to a path: its format is known and has such pictures, and the path leads to
a place. -/
def CanHold (folder : Folder) (path : String) (width height : ℕ) : Prop :=
  ∃ format, format? path = some format ∧ format.canWrite width height = true ∧
    ∃ place, folder.resolve? path = some place

/-- What can be held depends on where the path leads only. -/
theorem canHold_congr {after : Folder} (h : after.resolve? path = folder.resolve? path) (width height : ℕ) :
    CanHold after path width height ↔ CanHold folder path width height := by
  simp only [CanHold, h]

/-- An image that memory holds has a file, which is read as the image with its channels as they come back. -/
theorem exists_encode_of_held (h : image.Held) :
    ∃ bytes, Pfm.encode .littleEndian image = .ok bytes ∧
      Pfm.decode bytes = .ok (image.map (Color.map Pfm.channelBack)) := by
  have hFit : 12 * image.width * image.height < 2 ^ 64 := by
    have hFits := h.fits
    have hSize : UInt64.size = 2 ^ 64 := rfl
    rw [Image.pixelBytes, hSize] at hFits
    rw [Nat.mul_assoc]
    omega
  exact Pfm.exists_decode_eq_map_channelBack .littleEndian h.wide h.high h.filled hFit

/-- A float map that was saved lies in its file. -/
theorem exists_write?_of_saveFloatMap (h : image.Held) (hSaved : (saveFloatMap folder path image).failure = none) :
    ∃ bytes, Pfm.encode .littleEndian image = .ok bytes ∧
      folder.write? path (.bytes bytes) = some (saveFloatMap folder path image).folder ∧
      Pfm.decode bytes = .ok (image.map (Color.map Pfm.channelBack)) := by
  obtain ⟨bytes, hEncode, hDecode⟩ := exists_encode_of_held h
  refine ⟨bytes, hEncode, ?_, hDecode⟩
  unfold saveFloatMap at hSaved ⊢
  rw [hEncode] at hSaved ⊢
  cases hWritten : folder.write? path (.bytes bytes) with
  | none => simp [hWritten] at hSaved
  | some after => simp [hWritten]

/-- A float map is saved when its path leads to a place. -/
theorem failure_saveFloatMap_eq_none_iff (h : image.Held) :
    (saveFloatMap folder path image).failure = none ↔ ∃ place, folder.resolve? path = some place := by
  constructor
  · intro hSaved
    obtain ⟨bytes, -, hWritten, -⟩ := exists_write?_of_saveFloatMap h hSaved
    obtain ⟨place, hPlace, -⟩ := Folder.write?_eq_some_iff.mp hWritten
    exact ⟨place, hPlace⟩
  · rintro ⟨place, hPlace⟩
    obtain ⟨bytes, hEncode, -⟩ := exists_encode_of_held h
    obtain ⟨after, hWritten⟩ := Folder.exists_write? hPlace (.bytes bytes)
    simp [saveFloatMap, hEncode, hWritten]

/-- Paths lead where they led before a float map was saved. -/
theorem resolve?_saveFloatMap (h : image.Held) (hSaved : (saveFloatMap folder path image).failure = none)
    (other : String) : (saveFloatMap folder path image).folder.resolve? other = folder.resolve? other := by
  obtain ⟨bytes, -, hWritten, -⟩ := exists_write?_of_saveFloatMap h hSaved
  exact Folder.resolve?_of_write? hWritten other

/-- What a float map is decoded as is what is loaded from it. -/
theorem load_of_read? {bytes : List UInt8} (hName : isFloatMap path = true)
    (hRead : folder.read? path = some (.bytes bytes)) (hDecode : Pfm.decode bytes = .ok image) :
    load folder path = .ok image := by
  rw [load, if_pos hName, loadFloatMap, hRead]
  simp only [hDecode]

/-- No extension is both that of a float map and that of a picture. -/
theorem extension?_ne_of_isFloatMap {format : PictureFormat} (hName : isFloatMap path = true)
    (hFormat : format? other = some format) : FileName.extension? path ≠ FileName.extension? other := by
  intro hSame
  unfold isFloatMap at hName
  unfold format? at hFormat
  rw [← hSame] at hFormat
  cases hExtension : FileName.extension? path with
  | none => simp [hExtension] at hName
  | some extension =>
      have hLower : extension.toLower = "pfm" := by simpa [hExtension] using hName
      have hUnknown : PictureFormat.ofExtension? extension = none := by
        rw [PictureFormat.ofExtension?, hLower]
        decide
      rw [hExtension, Option.bind_some, hUnknown] at hFormat
      cases hFormat

/-- Saving a picture changes nothing, or one file whose name is that of a picture. -/
theorem savePicture_cases (folder : Folder) (path : String) (gamma : Double) (image : Image Double) :
    (savePicture folder path gamma image).folder = folder ∨
      ∃ format content, format? path = some format ∧
        folder.write? path content = some (savePicture folder path gamma image).folder := by
  unfold savePicture
  split
  next => exact Or.inl rfl
  next format hFormat =>
      split
      next => exact Or.inl rfl
      next picture hPicture =>
          dsimp only
          split
          next => exact Or.inl rfl
          next after hWritten => exact Or.inr ⟨format, _, hFormat, hWritten⟩

/-- Saving a picture changes no paths. -/
theorem resolve?_savePicture (folder : Folder) (path : String) (gamma : Double) (image : Image Double)
    (other : String) : (savePicture folder path gamma image).folder.resolve? other = folder.resolve? other := by
  rcases savePicture_cases folder path gamma image with hSame | ⟨format, content, -, hWritten⟩
  · rw [hSame]
  · exact Folder.resolve?_of_write? hWritten other

/-- What lies in another place stays while a picture is saved. -/
theorem read?_savePicture_of_ne (gamma : Double) (image : Image Double)
    (hApart : folder.resolve? other ≠ folder.resolve? path) :
    (savePicture folder path gamma image).folder.read? other = folder.read? other := by
  rcases savePicture_cases folder path gamma image with hSame | ⟨format, content, -, hWritten⟩
  · rw [hSame]
  · exact Folder.read?_of_write?_of_ne hWritten hApart

/-- A float map stays while a picture is saved. -/
theorem read?_savePicture_of_isFloatMap (path : String) (gamma : Double) (image : Image Double)
    (hName : isFloatMap other = true) :
    (savePicture folder path gamma image).folder.read? other = folder.read? other := by
  rcases savePicture_cases folder path gamma image with hSame | ⟨format, content, hFormat, hWritten⟩
  · rw [hSame]
  · apply Folder.read?_of_write?_of_ne hWritten
    obtain ⟨place, hPlace, -⟩ := Folder.write?_eq_some_iff.mp hWritten
    rw [hPlace]
    exact Folder.resolve?_ne_of_extension hPlace (extension?_ne_of_isFloatMap hName hFormat)

/-- A picture that can be written is written whole. -/
theorem savePicture_eq {format : PictureFormat} {after : Folder} (hPicture : image.toPicture gamma = .ok picture)
    (hFormat : format? path = some format) (hHolds : format.canWrite picture.width picture.height = true)
    (hWritten : folder.write? path (.picture format picture) = some after) :
    savePicture folder path gamma image = ⟨after, none⟩ := by
  simp [savePicture, hFormat, hPicture, hHolds, hWritten]

/-- A picture is saved just where it can be written. -/
theorem failure_savePicture_eq_none_iff (hPicture : image.toPicture gamma = .ok picture) :
    (savePicture folder path gamma image).failure = none ↔ CanHold folder path picture.width picture.height := by
  constructor
  · intro hSaved
    unfold savePicture at hSaved
    cases hFormat : format? path with
    | none => simp [hFormat] at hSaved
    | some format =>
        simp only [hFormat, hPicture] at hSaved
        split at hSaved
        next => cases hSaved
        next after hWritten =>
            have hComplete : format.canWrite picture.width picture.height = true := by
              by_contra hNot
              simp [hNot] at hSaved
            obtain ⟨place, hPlace, -⟩ := Folder.write?_eq_some_iff.mp hWritten
            exact ⟨format, hFormat, hComplete, place, hPlace⟩
  · rintro ⟨format, hFormat, hHolds, place, hPlace⟩
    obtain ⟨after, hWritten⟩ := Folder.exists_write? hPlace (.picture format picture)
    rw [savePicture_eq hPicture hFormat hHolds hWritten]

/-- The file of a picture that was saved shows it. -/
theorem shows_of_savePicture (hPicture : image.toPicture gamma = .ok picture)
    (hSaved : (savePicture folder path gamma image).failure = none) :
    Shows (savePicture folder path gamma image).folder path picture := by
  obtain ⟨format, hFormat, hHolds, place, hPlace⟩ := (failure_savePicture_eq_none_iff hPicture).mp hSaved
  obtain ⟨after, hWritten⟩ := Folder.exists_write? hPlace (.picture format picture)
  rw [savePicture_eq hPicture hFormat hHolds hWritten]
  exact ⟨format, hFormat, Folder.read?_of_write? hWritten⟩

end RayTracer.ImageFile
