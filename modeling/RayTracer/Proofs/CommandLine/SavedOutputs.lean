import Mathlib
import RayTracer.CommandLine.Run
import RayTracer.Proofs.Storage.FileNames
import RayTracer.Proofs.Storage.SavedImages

/-! What a rendering leaves. The float map of an image is written first, then the picture of what is shown of it. Where
both can be written both are there afterwards, unless they were to lie in one place. -/

namespace RayTracer.CommandLine

open ImageFile (CanHold Shows)

variable {folder : Folder} {path : String} {gamma : Double} {image : Image Double} {options : RenderOptions}

/-- Writing a picture leaves what saving it leaves. -/
theorem folder_writePicture (folder : Folder) (path : String) (gamma : Double) (image : Image Double) :
    (writePicture folder path gamma image).folder = (ImageFile.savePicture folder path gamma image).folder := by
  unfold writePicture afterWriting
  split <;> rfl

theorem failure_writePicture_eq_none_iff :
    (writePicture folder path gamma image).failure = none ↔
      (ImageFile.savePicture folder path gamma image).failure = none := by
  unfold writePicture afterWriting
  split
  next hNone => simp [hNone]
  next hHalt => simp [hHalt]

/-- What is shown of an image that memory holds is held as well. -/
theorem held_toneMapped (h : image.Held) (factor : Double) : (toneMapped factor image).Held :=
  (h.map _).map _

/-- What is shown of an image that memory holds is written just where it can be, and then its file shows it. -/
theorem exists_picture_of_held (h : image.Held) (factor gamma : Double) :
    ∃ picture, (toneMapped factor image).toPicture gamma = .ok picture ∧ ∀ (folder : Folder) (path : String),
      ((writePicture folder path gamma (toneMapped factor image)).failure = none ↔
        CanHold folder path (image.width % UInt32.size) (image.height % UInt32.size)) ∧
      ((writePicture folder path gamma (toneMapped factor image)).failure = none →
        Shows (writePicture folder path gamma (toneMapped factor image)).folder path picture) := by
  obtain ⟨picture, hPicture, hWidth, hHeight⟩ := (held_toneMapped h factor).exists_toPicture gamma
  refine ⟨picture, hPicture, fun folder path => ?_⟩
  rw [folder_writePicture, failure_writePicture_eq_none_iff]
  refine ⟨?_, ImageFile.shows_of_savePicture hPicture⟩
  rw [ImageFile.failure_savePicture_eq_none_iff hPicture, hWidth, hHeight]
  rfl

/-- After the float map comes the picture. -/
theorem saveOutputs_of_saved (hSaved : (ImageFile.saveFloatMap folder options.pfmOutput image).failure = none) :
    saveOutputs folder image options =
      writePicture (ImageFile.saveFloatMap folder options.pfmOutput image).folder options.pictureOutput
        (.ofFloat options.gamma) (toneMapped (.ofFloat options.factor) image) := by
  rw [saveOutputs, afterWriting, hSaved]

/-- Paths lead where they led before an image was saved. -/
theorem resolve?_saveOutputs (h : image.Held)
    (hSaved : (ImageFile.saveFloatMap folder options.pfmOutput image).failure = none) (other : String) :
    (saveOutputs folder image options).folder.resolve? other = folder.resolve? other := by
  rw [saveOutputs_of_saved hSaved, folder_writePicture, ImageFile.resolve?_savePicture,
    ImageFile.resolve?_saveFloatMap h hSaved]

/-- The saved float map is loaded again, whatever has become of the picture. -/
theorem load_saveOutputs (h : image.Held) (hName : ImageFile.isFloatMap options.pfmOutput = true)
    (hSaved : (ImageFile.saveFloatMap folder options.pfmOutput image).failure = none) :
    ImageFile.load (saveOutputs folder image options).folder options.pfmOutput =
      .ok (image.map (Color.map Pfm.channelBack)) := by
  obtain ⟨bytes, -, hWritten, hDecode⟩ := ImageFile.exists_write?_of_saveFloatMap h hSaved
  apply ImageFile.load_of_read? hName _ hDecode
  rw [saveOutputs_of_saved hSaved, folder_writePicture, ImageFile.read?_savePicture_of_isFloatMap _ _ _ hName]
  exact Folder.read?_of_write? hWritten

/-- Nothing has failed where the float map could be saved and the picture could be written after it. -/
theorem failure_saveOutputs_eq_none_iff :
    (saveOutputs folder image options).failure = none ↔
      (ImageFile.saveFloatMap folder options.pfmOutput image).failure = none ∧
        (writePicture (ImageFile.saveFloatMap folder options.pfmOutput image).folder options.pictureOutput
          (.ofFloat options.gamma) (toneMapped (.ofFloat options.factor) image)).failure = none := by
  cases hSaved : (ImageFile.saveFloatMap folder options.pfmOutput image).failure with
  | none => simp [saveOutputs_of_saved hSaved]
  | some failure => cases failure <;> simp [saveOutputs, afterWriting, hSaved]

/-- The files of a rendering that has not failed: the float map of the image, unless the picture has taken its place,
and the picture. -/
theorem exists_files_of_saveOutputs (h : image.Held) (hDone : (saveOutputs folder image options).failure = none) :
    ∃ bytes picture, Pfm.encode .littleEndian image = .ok bytes ∧
      (toneMapped (.ofFloat options.factor) image).toPicture (.ofFloat options.gamma) = .ok picture ∧
      Shows (saveOutputs folder image options).folder options.pictureOutput picture ∧
      (folder.resolve? options.pfmOutput ≠ folder.resolve? options.pictureOutput →
        (saveOutputs folder image options).folder.read? options.pfmOutput = some (.bytes bytes)) := by
  obtain ⟨hSaved, hShown⟩ := failure_saveOutputs_eq_none_iff.mp hDone
  obtain ⟨bytes, hEncode, hWritten, -⟩ := ImageFile.exists_write?_of_saveFloatMap h hSaved
  obtain ⟨picture, hPicture, hPictureWritten⟩ :=
    exists_picture_of_held h (.ofFloat options.factor) (.ofFloat options.gamma)
  refine ⟨bytes, picture, hEncode, hPicture, ?_, fun hApart => ?_⟩
  · rw [saveOutputs_of_saved hSaved]
    exact (hPictureWritten _ _).2 hShown
  · rw [saveOutputs_of_saved hSaved, folder_writePicture, ImageFile.read?_savePicture_of_ne]
    · exact Folder.read?_of_write? hWritten
    · simpa only [ImageFile.resolve?_saveFloatMap h hSaved] using hApart

/-- The scene that a command renders, and how. -/
def Command.rendering? (folder : Folder) : Command → Option (Scene × RenderOptions)
  | .demo options => some (demoScene options, options.render)
  | .render path options => (Scene.load folder path (aspectRatio options)).toOption.map (·, options)
  | .convert _ _ _ => none

theorem Command.rendering?_render_eq_some_iff {path : String} {given options : RenderOptions} {scene : Scene} :
    (Command.render path given).rendering? folder = some (scene, options) ↔
      Scene.load folder path (aspectRatio given) = .ok scene ∧ given = options := by
  rw [Command.rendering?, Option.map_eq_some_iff]
  constructor
  · rintro ⟨loaded, hLoaded, hPair⟩
    obtain ⟨rfl, rfl⟩ := Prod.mk.inj hPair
    exact ⟨toOption_eq_some_iff.mp hLoaded, rfl⟩
  · rintro ⟨hLoaded, rfl⟩
    exact ⟨scene, toOption_eq_some_iff.mpr hLoaded, rfl⟩

/-- A command that renders comes out as its rendering does. -/
theorem run_of_rendering {command : Command} {scene : Scene}
    (h : command.rendering? folder = some (scene, options)) :
    command.run folder = renderAndSave folder scene options := by
  cases command with
  | demo demoOptions =>
      obtain ⟨rfl, rfl⟩ := Prod.mk.inj (Option.some.inj h)
      rfl
  | render path renderOptions =>
      obtain ⟨hScene, rfl⟩ := Command.rendering?_render_eq_some_iff.mp h
      rw [Command.run, runRender, hScene]
  | convert input output conversionOptions => cases h

/-- A rendering that has not failed has come to an image and written its files. -/
theorem exists_image_of_renderAndSave {scene : Scene}
    (h : (renderAndSave folder scene options).failure = none) :
    ∃ image, render scene options = .ok image ∧
      renderAndSave folder scene options = saveOutputs folder (image.map (·.map Double.ofFloat)) options := by
  cases hRender : render scene options with
  | error failure => simp [renderAndSave, hRender] at h
  | ok image => exact ⟨image, rfl, by rw [renderAndSave, hRender]⟩

/-- A rendering of a single pixel, into files with the default names. -/
def onePixel : RenderOptions := { width := 1, height := 1, algorithm := .onOff }

/-- The names that the files of a rendering have by default. -/
theorem extension?_output :
    FileName.extension? "output.pfm" = some "pfm" ∧ FileName.extension? "output.png" = some "png" := by
  have hNames : (FileName.components "output.pfm").getLast? = some "output.pfm" ∧
      (FileName.components "output.png").getLast? = some "output.png" := by
    rw [FileName.components, FileName.components, FileName.segments_eq, FileName.segments_eq]
    decide
  have hStem : "output" ≠ "" := by decide
  exact ⟨FileName.extension?_eq_some hNames.1 (by decide) hStem (by decide),
    FileName.extension?_eq_some hNames.2 (by decide) hStem (by decide)⟩

/-- The default names lead to two places in the folder itself. -/
theorem resolve?_output :
    Folder.empty.resolve? "output.pfm" = some ["output.pfm"] ∧
      Folder.empty.resolve? "output.png" = some ["output.png"] := by
  have hSegments : FileName.segments "output.pfm" = ["output.pfm"] ∧
      FileName.segments "output.png" = ["output.png"] := by
    rw [FileName.segments_eq, FileName.segments_eq]
    decide
  have hUsable : FileName.isUsable "output.pfm" = true ∧ FileName.isUsable "output.png" = true := by
    have hEnds : "output.pfm".contains '\x00' = false ∧ "output.png".contains '\x00' = false := by simp
    rw [FileName.isUsable, FileName.isUsable, hSegments.1, hSegments.2, hEnds.1, hEnds.2]
    decide
  exact ⟨Folder.resolve?_name hSegments.1 hUsable.1 (by decide +kernel) (by decide) (by decide),
    Folder.resolve?_name hSegments.2 hUsable.2 (by decide +kernel) (by decide) (by decide)⟩

/-- A picture with pixels can be written under its default name. -/
theorem canHold_output {width height : ℕ} (hWidth : 0 < width) (hHeight : 0 < height) :
    CanHold .empty "output.png" width height := by
  have hFormat : ImageFile.format? "output.png" = some .png := by
    rw [ImageFile.format?, extension?_output.2]
    change PictureFormat.ofExtension? "png" = some .png
    decide +kernel
  exact ⟨.png, hFormat, decide_eq_true ⟨hWidth, hHeight⟩, _, resolve?_output.2⟩

/-- Under the default names an image with pixels is saved in the empty folder. -/
theorem failure_saveOutputs_onePixel (h : image.Held) (hWidth : 0 < image.width % UInt32.size)
    (hHeight : 0 < image.height % UInt32.size) : (saveOutputs .empty image onePixel).failure = none := by
  have hSaved : (ImageFile.saveFloatMap .empty onePixel.pfmOutput image).failure = none :=
    (ImageFile.failure_saveFloatMap_eq_none_iff h).mpr ⟨_, resolve?_output.1⟩
  obtain ⟨_, -, hWritten⟩ := exists_picture_of_held h (.ofFloat onePixel.factor) (.ofFloat onePixel.gamma)
  refine failure_saveOutputs_eq_none_iff.mpr ⟨hSaved, (hWritten _ _).1.mpr ?_⟩
  rw [ImageFile.canHold_congr (ImageFile.resolve?_saveFloatMap h hSaved _)]
  exact canHold_output hWidth hHeight

end RayTracer.CommandLine
