import Mathlib
import RayTracer.Proofs.CommandLine.SampleGrids
import RayTracer.Proofs.CommandLine.SavedOutputs
import RayTracer.Proofs.Render.RenderedImages

/-! Conversions of float maps. A rendering leaves a float map and a picture, and the picture leaves the float map in
place. So a conversion reads the rendered image again with its channels as they come back from the file, and from
there on both prepare an image in the same way. -/

namespace RayTracer.CommandLine

open ImageFile (CanHold Shows)

variable {folder : Folder} {path : String} {gamma : Double} {image : Image Double} {options : RenderOptions}

/-- Converting the float map that a rendering has left prepares its image for display as the rendering did. A rendered
image is one that memory holds. When such an image has been saved, to a float map with the extension of one, then
there are a picture of the image and one of the image with its channels as they come back from a file. The
rendering writes the first one, the conversion with the same factor and gamma the second one, each of them to any
path where a picture of that size can be, also if the rendering could not. If all channels are binary32 numbers, the
two pictures are one. -/
theorem conversion_agrees_with_saving :
    (∀ (scene : Scene) (options : RenderOptions) (image : Image Float), render scene options = .ok image →
      (image.map (·.map Double.ofFloat)).Held) ∧
    ∀ (folder : Folder) (options : RenderOptions) (image : Image Double), image.Held →
      ImageFile.isFloatMap options.pfmOutput = true →
      (ImageFile.saveFloatMap folder options.pfmOutput image).failure = none →
      let saved := saveOutputs folder image options
      let rounded := image.map (Color.map Pfm.channelBack)
      ∃ own picture : Picture,
        (image.normalize (.ofFloat options.factor) none).compress.toPicture (.ofFloat options.gamma) = .ok own ∧
        (rounded.normalize (.ofFloat options.factor) none).compress.toPicture (.ofFloat options.gamma) = .ok picture ∧
        ((∀ color ∈ image.pixels,
          Binary.IsSingle color.r ∧ Binary.IsSingle color.g ∧ Binary.IsSingle color.b) → picture = own) ∧
        (saved.failure = none ↔
          CanHold folder options.pictureOutput (image.width % UInt32.size) (image.height % UInt32.size)) ∧
        (saved.failure = none → Shows saved.folder options.pictureOutput own) ∧
        ∀ output,
          let converted := (Command.convert options.pfmOutput output ⟨options.factor, options.gamma⟩).run saved.folder
          (converted.failure = none ↔
            CanHold folder output (image.width % UInt32.size) (image.height % UInt32.size)) ∧
          (converted.failure = none → Shows converted.folder output picture) := by
  constructor
  · intro scene options image hRendered
    exact (held_of_render hRendered).map _
  · intro folder options image hHeld hName hSaved saved rounded
    obtain ⟨own, hOwn, hOwnWritten⟩ := exists_picture_of_held hHeld (.ofFloat options.factor) (.ofFloat options.gamma)
    obtain ⟨picture, hPicture, hWritten⟩ := exists_picture_of_held (hHeld.map (Color.map Pfm.channelBack))
      (.ofFloat options.factor) (.ofFloat options.gamma)
    have hPaths (path : String) := resolve?_saveOutputs hHeld hSaved path
    have hMapPaths (path : String) := ImageFile.resolve?_saveFloatMap hHeld hSaved path
    refine ⟨own, picture, hOwn, hPicture, fun hSingle => ?_, ?_, ?_, fun output => ?_⟩
    · rw [Pfm.map_channelBack_eq_self hSingle, hOwn] at hPicture
      exact (Except.ok.inj hPicture).symm
    · rw [← ImageFile.canHold_congr (hMapPaths _)]
      simp only [saved, saveOutputs_of_saved hSaved]
      exact (hOwnWritten _ _).1
    · simp only [saved, saveOutputs_of_saved hSaved]
      exact (hOwnWritten _ _).2
    · have hConverted : (Command.convert options.pfmOutput output ⟨options.factor, options.gamma⟩).run saved.folder =
          writePicture saved.folder output (.ofFloat options.gamma) (toneMapped (.ofFloat options.factor) rounded) := by
        simp only [Command.run, runConversion, saved, load_saveOutputs hHeld hName hSaved, rounded]
      rw [hConverted, ← ImageFile.canHold_congr (hPaths output)]
      exact hWritten saved.folder output

/-- One pixel of binary32 numbers. -/
def glimmer : Image Double := ⟨1, 1, #[⟨⟨0x3fe0000000000000⟩, ⟨0x3ff0000000000000⟩, ⟨0x4000000000000000⟩⟩]⟩

theorem held_glimmer : glimmer.Held := by
  constructor <;> decide

theorem isSingle_glimmer : ∀ color ∈ glimmer.pixels,
    Binary.IsSingle color.r ∧ Binary.IsSingle color.g ∧ Binary.IsSingle color.b := by
  simp only [glimmer, List.mem_toArray, List.mem_singleton, forall_eq]
  exact ⟨⟨rfl, 0x3f000000, by decide⟩, ⟨rfl, 0x3f800000, by decide⟩, ⟨rfl, 0x40000000, by decide⟩⟩

/-- An empty scene, seen through one pixel. -/
def emptiness : Scene := ⟨World.empty, ⟨.orthogonal, 1.0, .identity⟩, Color.white⟩

theorem render_emptiness : render emptiness onePixel = .ok ⟨1, 1, #[Color.white]⟩ := by
  have hSide : samplesPerSide onePixel.samplesPerPixel = .ok 0 :=
    samplesPerSide_eq_ok_iff.mpr ⟨rfl, by decide⟩
  rw [render, if_neg (by decide), hSide]
  rfl

/-- Under the default names the picture of a glimmer is written by both. -/
theorem conversion_agrees_with_saving_glimmer :
    (render emptiness onePixel = .ok ⟨1, 1, #[Color.white]⟩ ∧
      (Image.map (·.map Double.ofFloat) ⟨1, 1, #[Color.white]⟩).Held) ∧
    (glimmer.Held ∧ ImageFile.isFloatMap onePixel.pfmOutput = true ∧
      (ImageFile.saveFloatMap .empty onePixel.pfmOutput glimmer).failure = none) ∧
    ∃ picture,
      (saveOutputs .empty glimmer onePixel).failure = none ∧
      Shows (saveOutputs .empty glimmer onePixel).folder "output.png" picture ∧
      ((Command.convert "output.pfm" "output.png" ⟨1.0, 1.0⟩).run
        (saveOutputs .empty glimmer onePixel).folder).failure = none ∧
      Shows ((Command.convert "output.pfm" "output.png" ⟨1.0, 1.0⟩).run
        (saveOutputs .empty glimmer onePixel).folder).folder "output.png" picture := by
  have hName : ImageFile.isFloatMap onePixel.pfmOutput = true := by
    change ImageFile.isFloatMap "output.pfm" = true
    rw [ImageFile.isFloatMap, extension?_output.1]
    decide +kernel
  have hSaved : (ImageFile.saveFloatMap .empty onePixel.pfmOutput glimmer).failure = none :=
    (ImageFile.failure_saveFloatMap_eq_none_iff held_glimmer).mpr ⟨_, resolve?_output.1⟩
  have hHolds : CanHold .empty "output.png" (glimmer.width % UInt32.size) (glimmer.height % UInt32.size) :=
    canHold_output (by decide) (by decide)
  obtain ⟨own, picture, -, -, hSame, hOwn, hOwnShown, hConverted⟩ :=
    conversion_agrees_with_saving.2 .empty onePixel glimmer held_glimmer hName hSaved
  obtain ⟨hWritten, hShown⟩ := hConverted "output.png"
  obtain rfl := hSame isSingle_glimmer
  exact ⟨⟨render_emptiness, conversion_agrees_with_saving.1 emptiness onePixel _ render_emptiness⟩,
    ⟨held_glimmer, hName, hSaved⟩, picture, hOwn.mpr hHolds, hOwnShown (hOwn.mpr hHolds), hWritten.mpr hHolds,
    hShown (hWritten.mpr hHolds)⟩

end RayTracer.CommandLine
