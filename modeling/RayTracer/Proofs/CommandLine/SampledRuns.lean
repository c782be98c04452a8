import Mathlib
import RayTracer.Proofs.CommandLine.KeptSettings
import RayTracer.Proofs.CommandLine.SampleGrids
import RayTracer.Proofs.CommandLine.SavedOutputs
import RayTracer.Proofs.Render.PixelCalls
import RayTracer.Proofs.Text.Numerals

/-! Runs of the program and their samples. Whatever the arguments are, the number of samples per pixel is one of 32
bits. Rendering begins only with a side whose square is that number, so the square is one of 32 bits as well, and
every pixel of the image is the average of as many calls as the command line asks for. -/

namespace RayTracer.CommandLine

/-- The number of samples per pixel is one of 32 bits. -/
def RenderOptions.SamplesFit (options : RenderOptions) : Prop := options.samplesPerPixel < UInt32.size

theorem samplesFit_default : ({} : RenderOptions).SamplesFit := by
  change 0 < UInt32.size
  decide

/-- A count on the command line has 32 bits. -/
theorem count?_lt {least n : ℕ} {text : String} (h : count? least text = some n) : n < UInt32.size := by
  unfold count? at h
  dsimp only at h
  split at h
  next => cases h
  next =>
      split at h
      next read hRead =>
        split at h
        next =>
          obtain rfl := Option.some.inj h
          exact (Text.readCount?_eq_some_iff.mp hRead).2
        next => cases h
      next => cases h

/-- No option of a rendering makes the samples too many. -/
theorem keeps_renderRules : ∀ rule ∈ renderRules, rule.effect.Keeps RenderOptions.SamplesFit := by
  have hOther {β : Type} {name : String} {description : Description} {read : String → Option β}
      {set : β → RenderOptions → RenderOptions}
      (hSame : ∀ value options, (set value options).samplesPerPixel = options.samplesPerPixel) :
      (option name description read set).effect.Keeps RenderOptions.SamplesFit :=
    keeps_option fun text value _ options hKept => (hSame value options).trans_lt hKept
  simp only [renderRules, sizeRules, algorithmRules, outputRules, List.forall_mem_append, List.forall_mem_cons,
    List.not_mem_nil, IsEmpty.forall_iff, implies_true, and_true]
  and_intros
  -- All options but the one for the samples leave these alone.
  all_goals first
    | exact hOther fun _ _ => rfl
    | exact keeps_option fun _ _ hRead _ _ => count?_lt hRead
    | exact fun _ hKept => hKept

theorem keeps_demoRules : ∀ rule ∈ demoRules, rule.effect.Keeps fun options => options.render.SamplesFit := by
  simp only [demoRules, List.forall_mem_append, List.forall_mem_cons, List.not_mem_nil, IsEmpty.forall_iff,
    implies_true, and_true, List.forall_mem_map]
  refine ⟨⟨?_, fun _ hKept => hKept⟩, fun rule hRule => ?_⟩
  · exact keeps_option fun _ _ _ _ hKept => hKept
  · exact (keeps_renderRules rule hRule).lift fun _ _ => rfl

variable {folder : Folder} {command : Command} {scene : Scene} {options : RenderOptions}

/-- A command is made of the settings that its arguments have come to. -/
theorem exists_of_readCommand {σ : Type} {topic : Topic} {rules : List (Rule σ)} {positionals : ℕ} {settings : σ}
    {build : List String → σ → Option Command} {arguments : List String}
    (h : readCommand topic rules positionals settings build arguments = .run command) :
    ∃ collected, readArguments rules positionals arguments ⟨settings, [], []⟩ = .ok collected ∧
      build collected.positionals collected.settings = some command := by
  unfold readCommand at h
  split at h
  next => cases h
  next => cases h
  next collected hRead =>
    split at h
    next built hBuilt =>
      obtain rfl := Request.run.inj h
      exact ⟨collected, hRead, hBuilt⟩
    next => cases h

/-- Only the three words of commands lead to one. -/
theorem exists_of_ofArguments {arguments : List String} (h : Request.ofArguments arguments = .run command) :
    ∃ rest, readDemo rest = .run command ∨ readRender rest = .run command ∨ readConversion rest = .run command := by
  have hTopic (rest : List String) : readTopic rest ≠ .run command := by
    unfold readTopic
    split
    next => exact Request.noConfusion
    next name => cases topicNames.lookup name <;> exact Request.noConfusion
    next => exact Request.noConfusion
  cases arguments with
  | nil => cases h
  | cons first rest =>
      rw [Request.ofArguments] at h
      split_ifs at h
      · exact ⟨rest, .inl h⟩
      · exact ⟨rest, .inr (.inl h)⟩
      · exact ⟨rest, .inr (.inr h)⟩
      · exact absurd h (hTopic rest)

theorem samplesFit_of_readDemo {rest : List String} (hRead : readDemo rest = .run command)
    (h : command.rendering? folder = some (scene, options)) : options.SamplesFit := by
  obtain ⟨collected, hCollected, hBuilt⟩ := exists_of_readCommand hRead
  obtain rfl := Option.some.inj hBuilt
  obtain ⟨-, rfl⟩ := Prod.mk.inj (Option.some.inj h)
  exact keeps_readArguments keeps_demoRules samplesFit_default hCollected

theorem samplesFit_of_readRender {rest : List String} (hRead : readRender rest = .run command)
    (h : command.rendering? folder = some (scene, options)) : options.SamplesFit := by
  obtain ⟨collected, hCollected, hBuilt⟩ := exists_of_readCommand hRead
  split at hBuilt
  next path _ =>
    obtain rfl := Option.some.inj hBuilt
    obtain ⟨loaded, -, hSame⟩ := Option.map_eq_some_iff.mp h
    obtain ⟨-, rfl⟩ := Prod.mk.inj hSame
    exact keeps_readArguments keeps_renderRules samplesFit_default hCollected
  next => cases hBuilt

/-- Conversions render nothing. -/
theorem rendering_of_readConversion {rest : List String} (hRead : readConversion rest = .run command) :
    command.rendering? folder = none := by
  obtain ⟨collected, -, hBuilt⟩ := exists_of_readCommand hRead
  split at hBuilt
  next =>
    obtain rfl := Option.some.inj hBuilt
    rfl
  next => cases hBuilt

/-- Whatever the arguments, the samples of a rendering fit. -/
theorem samplesFit_of_arguments {arguments : List String} (hRequest : Request.ofArguments arguments = .run command)
    (h : command.rendering? folder = some (scene, options)) : options.SamplesFit := by
  obtain ⟨rest, hDemo | hRender | hConversion⟩ := exists_of_ofArguments hRequest
  · exact samplesFit_of_readDemo hDemo h
  · exact samplesFit_of_readRender hRender h
  · rw [rendering_of_readConversion hConversion] at h
    cases h

/-- Every pixel of a rendered image is colored by the renderer that was asked for. -/
theorem coloredBy_of_renderImage {side : ℕ} {image : Image Float} (h : renderImage scene side options = .ok image) :
    ∃ renderer, makeRenderer scene.background options = .ok renderer ∧
      Viewport.ColoredBy ⟨scene.camera, options.width, options.height, side⟩ (renderer.radiance scene.world) image := by
  obtain ⟨renderer, hRenderer, hImage⟩ := bind_eq_ok_iff.mp h
  refine ⟨renderer, hRenderer, ?_⟩
  split at hImage
  next => exact Viewport.coloredBy_of_renderBuckets hImage
  next =>
      obtain ⟨⟨traced, last⟩, hTraced, hSame⟩ := bind_eq_ok_iff.mp hImage
      obtain rfl := pure_eq_ok_iff.mp hSame
      exact Viewport.coloredBy_of_traceImage hTraced

/-- A rendering that begins has a side whose square is the number of samples. -/
theorem render_cases (scene : Scene) (options : RenderOptions) :
    render scene options = .error (.emptyImage options.width options.height) ∨
      render scene options = .error (.unevenSamples options.samplesPerPixel) ∨
      ∃ side, side * side = options.samplesPerPixel ∧ options.samplesPerPixel < UInt32.size ∧
        render scene options = (renderImage scene side options).mapError .fault := by
  unfold render
  split
  next => exact .inl rfl
  next =>
      refine .inr ?_
      cases hSide : samplesPerSide options.samplesPerPixel with
      | error failure => exact .inl (by rw [samplesPerSide_eq_error hSide]; rfl)
      | ok side => exact .inr ⟨side, (samplesPerSide_eq_ok_iff.mp hSide).1, (samplesPerSide_eq_ok_iff.mp hSide).2, rfl⟩

/-- The view of a rendering, of which pixels are cut into cells of a number per side. -/
def RenderOptions.view (options : RenderOptions) (camera : Camera Float) (side : ℕ) : Viewport Float :=
  ⟨camera, options.width, options.height, side⟩

/-- The rays of a pixel are its samples, or a single one where none are asked for. -/
theorem raysPerPixel_view (camera : Camera Float) {side : ℕ} (hSide : side * side = options.samplesPerPixel) :
    (options.view camera side).raysPerPixel = if options.samplesPerPixel = 0 then 1 else options.samplesPerPixel := by
  change (if side = 0 then 1 else side * side) = _
  rw [← hSide]
  simp only [mul_self_eq_zero]

/-- Sides are found for the squares among the numbers of 32 bits and for no others. A run that renders does so with
a number of samples of 32 bits, and only with the side whose square that is, so counting the cells of a pixel does not
overflow. Then every pixel of the image is blended from as many calls as there are samples, or from one where none are
asked for. -/
theorem render_averages_samples :
    (∀ samples < UInt32.size, ∀ side, samplesPerSide samples = .ok side ↔ side * side = samples) ∧
    (∀ samples, (∀ side, side * side ≠ samples) →
      samplesPerSide samples = .error (.unevenSamples samples)) ∧
    (∀ folder arguments command scene options, Request.ofArguments arguments = .run command →
      command.rendering? folder = some (scene, options) →
        command.run folder = renderAndSave folder scene options ∧ options.samplesPerPixel < UInt32.size) ∧
    ∀ scene options,
      (render scene options = .error (.emptyImage options.width options.height) ∨
        render scene options = .error (.unevenSamples options.samplesPerPixel) ∨
        ∃ side, side * side = options.samplesPerPixel ∧ side * side < UInt32.size ∧
          mulCounts side side = .ok options.samplesPerPixel ∧
          render scene options = (renderImage scene side options).mapError .fault) ∧
      ∀ image, render scene options = .ok image →
        ∃ side renderer, side * side = options.samplesPerPixel ∧ side * side < UInt32.size ∧
          mulCounts side side = .ok options.samplesPerPixel ∧
          makeRenderer scene.background options = .ok renderer ∧
          ∀ col row, col < options.width → row < options.height →
            let view := options.view scene.camera side
            ∃ generator last calls,
              view.Calls (renderer.radiance scene.world) ((row * options.width + col) * view.raysPerPixel)
                generator calls last ∧
              calls.length = (if options.samplesPerPixel = 0 then 1 else options.samplesPerPixel) ∧
              image.get col row = .ok (view.blend calls) := by
  have hCounted {side : ℕ} {options : RenderOptions} (hSide : side * side = options.samplesPerPixel)
      (hFits : side * side < UInt32.size) : mulCounts side side = .ok options.samplesPerPixel :=
    mulCounts_eq_ok_iff.mpr ⟨hFits, hSide⟩
  refine ⟨fun samples hSamples side => ?_, fun samples hUneven => ?_,
    fun folder arguments command scene options hRequest hRendering => ?_, fun scene options => ⟨?_, ?_⟩⟩
  · rw [samplesPerSide_eq_ok_iff, and_iff_left hSamples]
  · cases hSide : samplesPerSide samples with
    | error failure => rw [samplesPerSide_eq_error hSide]
    | ok side => exact absurd (samplesPerSide_eq_ok_iff.mp hSide).1 (hUneven side)
  · exact ⟨run_of_rendering hRendering, samplesFit_of_arguments hRequest hRendering⟩
  · obtain hEmpty | hUneven | ⟨side, hSide, hFits, hRender⟩ := render_cases scene options
    · exact .inl hEmpty
    · exact .inr (.inl hUneven)
    · rw [← hSide] at hFits
      exact .inr (.inr ⟨side, hSide, hFits, hCounted hSide hFits, hRender⟩)
  · intro image hImage
    obtain hEmpty | hUneven | ⟨side, hSide, hFits, hRender⟩ := render_cases scene options
    · cases hImage.symm.trans hEmpty
    · cases hImage.symm.trans hUneven
    · obtain ⟨renderer, hRenderer, hColored⟩ :=
        coloredBy_of_renderImage (mapError_eq_ok_iff.mp (hRender.symm.trans hImage))
      rw [← hSide] at hFits
      refine ⟨side, renderer, hSide, hFits, hCounted hSide hFits, hRenderer, fun col row hCol hRow => ?_⟩
      obtain ⟨generator, last, calls, hCalls, hLength, hGet⟩ := hColored.exists_calls hCol hRow
      exact ⟨generator, last, calls, hCalls, hLength.trans (raysPerPixel_view scene.camera hSide), hGet⟩

/-- One pixel of an empty scene, with four samples. -/
def overcast : Scene := ⟨World.empty, ⟨.orthogonal, 1.0, .identity⟩, Color.white⟩

def fourSamples : RenderOptions := { width := 1, height := 1, algorithm := .onOff, samplesPerPixel := 4 }

theorem exists_render_overcast : ∃ image, render overcast fourSamples = .ok image := by
  have hSide : samplesPerSide fourSamples.samplesPerPixel = .ok 2 := samplesPerSide_eq_ok_iff.mpr ⟨rfl, by decide⟩
  rw [render, if_neg (by decide), hSide]
  exact ⟨_, rfl⟩

theorem render_averages_samples_overcast :
    (16 < UInt32.size ∧ samplesPerSide 16 = .ok 4) ∧ samplesPerSide 10 = .error (.unevenSamples 10) ∧
      (∃ command scene options, Request.ofArguments ["demo"] = .run command ∧
        command.rendering? .empty = some (scene, options) ∧ command.run .empty = renderAndSave .empty scene options) ∧
      ∃ image renderer generator last calls, render overcast fourSamples = .ok image ∧
        makeRenderer overcast.background fourSamples = .ok renderer ∧
        (fourSamples.view overcast.camera 2).Calls (renderer.radiance overcast.world) 0 generator calls last ∧
        calls.length = 4 ∧ image.get 0 0 = .ok ((fourSamples.view overcast.camera 2).blend calls) := by
  obtain ⟨hSquares, hOthers, hRuns, hRenderings⟩ := render_averages_samples
  have hSize : 16 < UInt32.size := by decide
  have hUneven (side : ℕ) : side * side ≠ 10 := by
    intro hSquare
    have hSmall : side < 4 := by nlinarith
    interval_cases side <;> omega
  have hRequest : Request.ofArguments ["demo"] = .run (.demo {}) := rfl
  obtain ⟨hRun, -⟩ := hRuns .empty ["demo"] _ _ _ hRequest rfl
  obtain ⟨image, hImage⟩ := exists_render_overcast
  obtain ⟨side, renderer, hSide, -, -, hRenderer, hPixels⟩ := (hRenderings overcast fourSamples).2 image hImage
  obtain rfl : side = 2 := Nat.mul_self_inj.mp hSide
  obtain ⟨generator, last, calls, hCalls, hLength, hGet⟩ := hPixels 0 0 (by decide) (by decide)
  exact ⟨⟨hSize, (hSquares 16 hSize 4).mpr rfl⟩, hOthers 10 hUneven, ⟨_, _, _, hRequest, rfl, hRun⟩,
    image, renderer, generator, last, calls, hImage, hRenderer, hCalls, hLength, hGet⟩

end RayTracer.CommandLine
