import Mathlib
import RayTracer.Proofs.Description.SceneBuilding

/-! Scenes from files. A description that has been loaded has been validated, so that only its images are left to go
wrong. -/

namespace RayTracer

namespace SceneDescription

/-- Where a description is loaded from there is a text, and the description in it is valid. -/
theorem exists_read_of_load {folder : Folder} {path : String} {scene : SceneDescription}
    (h : load folder path = .ok scene) : ∃ text, read text = .ok scene ∧ scene.validate = .ok () := by
  unfold load at h
  split at h
  case h_1 content hContent =>
    split at h
    case h_1 text hText =>
      obtain ⟨found, hFound, h⟩ := bind_eq_ok_iff.mp h
      obtain ⟨⟨⟩, hValid, h⟩ := bind_eq_ok_iff.mp h
      cases h
      exact ⟨text, hFound, hValid⟩
    case h_2 => cases h
  case h_2 => cases h

end SceneDescription

section Loading

variable {folder : Folder} {path : String} {aspectRatio : Float}

/-- A scene loads when its description and all images of its materials do. -/
theorem Scene.exists_load_iff :
    (∃ scene, load folder path aspectRatio = .ok scene) ↔
      ∃ description, SceneDescription.load folder path = .ok description ∧
        ∀ name ∈ description.imageNames, ImageFile.Loads folder (FileName.parent path) name := by
  constructor
  · rintro ⟨scene, hScene⟩
    obtain ⟨description, hDescription, hBuild⟩ := bind_eq_ok_iff.mp hScene
    exact ⟨description, mapError_eq_ok_iff.mp hDescription, (exists_build_iff.mp ⟨scene, hBuild⟩).2⟩
  · rintro ⟨description, hDescription, hImages⟩
    obtain ⟨text, -, hValid⟩ := SceneDescription.exists_read_of_load hDescription
    obtain ⟨scene, hBuild⟩ := exists_build_iff.mpr ⟨hValid, hImages⟩
    exact ⟨scene, bind_eq_ok_iff.mpr ⟨description, mapError_eq_ok_iff.mpr hDescription, hBuild⟩⟩

/-- What does not load after its description has is an image, the first in the order of the materials. -/
theorem Scene.load_eq_error_iff {description : SceneDescription}
    (hDescription : SceneDescription.load folder path = .ok description) {halt : Halt SceneError} :
    load folder path aspectRatio = .error halt ↔
      ∃ reason, description.FirstFailure folder (FileName.parent path) reason ∧ halt = reason.map .texture := by
  obtain ⟨text, -, hValid⟩ := SceneDescription.exists_read_of_load hDescription
  have hNoError : ¬∃ error, description.validate = .error error ∧ halt = .reported error := by simp [hValid]
  have hLoad : load folder path aspectRatio = build folder (FileName.parent path) aspectRatio description := by
    unfold load
    rw [hDescription]
    rfl
  rw [hLoad, build_eq_error_iff, or_iff_right hNoError, and_iff_right hValid]

end Loading

end RayTracer
