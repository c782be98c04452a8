import Mathlib
import RayTracer.Proofs.CommandLine.SampleGrids
import RayTracer.Proofs.CommandLine.SavedOutputs
import RayTracer.Proofs.Render.RenderedImages
import RayTracer.Proofs.Render.SerialTracing

/-! Commands whose pictures need no random numbers. With a single ray through the center of every pixel and a
renderer that draws nothing, it does not matter for the files whether an image is traced in order or
rendered in buckets, nor which generators are used. -/

namespace RayTracer.CommandLine

open ImageFile (Shows)

/-- The same rendering in another manner and with other generators. -/
def RenderOptions.redrawn (options : RenderOptions) (parallel : Bool) (initState initSeq : UInt64) :
    RenderOptions :=
  { options with parallel := parallel, initState := initState, initSeq := initSeq }

/-- No random number is drawn for a world. -/
def RenderOptions.Drawless (options : RenderOptions) (world : World Float) : Prop :=
  options.samplesPerPixel = 0 ∧
    (options.algorithm = .pathTracing → world.Mirrored ∧ options.maxDepth < options.rouletteDepth)

def Command.redrawn (parallel : Bool) (initState initSeq : UInt64) : Command → Command
  | .demo options => .demo { options with render := options.render.redrawn parallel initState initSeq }
  | .render scene options => .render scene (options.redrawn parallel initState initSeq)
  | .convert input output options => .convert input output options

/-- No random number is drawn for the scene of a command. -/
def Command.Drawless (folder : Folder) : Command → Prop
  | .demo options => options.render.Drawless (demoWorld (options.render.algorithm ≠ .onOff))
  | .render path options =>
    ∀ scene, Scene.load folder path (aspectRatio options) = .ok scene → options.Drawless scene.world
  | .convert _ _ _ => True

/-- What is left of an outcome after the command: the report, if there is a failure, and the folder. -/
def Outcome.told (outcome : Outcome) : Option Report × Folder :=
  (outcome.failure.map Failure.report, outcome.folder)

variable {options : RenderOptions} (parallel : Bool) (initState initSeq : UInt64)

/-- The renderer of such options draws nothing. -/
theorem RenderOptions.Drawless.renderer {world : World Float} (h : options.Drawless world)
    {background : Color Float} {renderer : Renderer Float}
    (hMade : makeRenderer background options = .ok renderer) : renderer.Drawless world := by
  unfold makeRenderer at hMade
  split at hMade
  next => cases hMade; trivial
  next => cases hMade; trivial
  next => cases hMade; trivial
  next hPaths =>
      unfold Renderer.pathTracer at hMade
      split at hMade
      · cases hMade
      · cases hMade
        exact h.2 hPaths

/-- All manners of rendering come to the same image, or none of them comes to one. -/
theorem toOption_renderImage {scene : Scene} {renderer : Renderer Float}
    (hMade : makeRenderer scene.background options = .ok renderer)
    (hDrawless : renderer.Drawless scene.world) :
    (renderImage scene 0 options).toOption =
      ((⟨scene.camera, options.width, options.height, 0⟩ : Viewport Float).renderBuckets
        (renderer.radiance scene.world) 0 1).toOption := by
  let view : Viewport Float := ⟨scene.camera, options.width, options.height, 0⟩
  have hSame (generator : Pcg) (seed : UInt64) (size : ℕ) (hSize : 0 < size) :
      ((view.traceImage (renderer.radiance scene.world)).run generator).toOption =
        (view.renderBuckets (renderer.radiance scene.world) seed size).toOption.map (·, generator) :=
    Viewport.toOption_traceImage hDrawless.radiance rfl generator seed hSize
  rw [renderImage, hMade]
  simp only [bind, Except.bind]
  split
  · have hBoth := (hSame ⟨0, 0⟩ options.initState Bucket.defaultSize (by decide)).symm.trans
      (hSame ⟨0, 0⟩ 0 1 one_pos)
    exact Option.map_injective (Prod.mk_left_injective _) hBoth
  · have hTraced := hSame (Pcg.seeded options.initState options.initSeq) 0 1 one_pos
    have hFirst := congrArg (Option.map Prod.fst) hTraced
    rw [Option.map_map, Function.comp_def, Option.map_id'] at hFirst
    rw [← hFirst]
    cases (view.traceImage (renderer.radiance scene.world)).run
      (Pcg.seeded options.initState options.initSeq) <;> rfl

/-- The image is the same in order or in buckets and from any seeds. -/
theorem toOption_renderImage_redrawn {scene : Scene} (hDrawless : options.Drawless scene.world) :
    (renderImage scene 0 (options.redrawn parallel initState initSeq)).toOption =
      (renderImage scene 0 options).toOption := by
  have hMaker : makeRenderer scene.background (options.redrawn parallel initState initSeq) =
      makeRenderer scene.background options := rfl
  cases hMade : makeRenderer scene.background options with
  | error fault => simp only [renderImage, hMaker, hMade, bind, Except.bind]
  | ok renderer =>
      have hRenderer := hDrawless.renderer hMade
      have hOther := toOption_renderImage (hMaker.trans hMade) hRenderer
      exact hOther.trans (toOption_renderImage hMade hRenderer).symm

/-- With a single ray through every pixel there are no cells to count. -/
theorem render_of_center (scene : Scene) (hSamples : options.samplesPerPixel = 0) :
    render scene options =
      if options.width = 0 ∨ options.height = 0 then .error (.emptyImage options.width options.height)
      else (renderImage scene 0 options).mapError .fault := by
  have hSide : samplesPerSide options.samplesPerPixel = .ok 0 :=
    samplesPerSide_eq_ok_iff.mpr ⟨hSamples.symm, hSamples ▸ by decide⟩
  rw [render, hSide]
  split <;> rfl

theorem toOption_render_redrawn {scene : Scene} (hDrawless : options.Drawless scene.world) :
    (render scene (options.redrawn parallel initState initSeq)).toOption = (render scene options).toOption := by
  have hSame := toOption_renderImage_redrawn parallel initState initSeq hDrawless
  have hSamples : (options.redrawn parallel initState initSeq).samplesPerPixel = 0 := hDrawless.1
  rw [render_of_center scene hSamples, render_of_center scene hDrawless.1]
  change (if options.width = 0 ∨ options.height = 0 then _ else _ : Except Failure (Image Float)).toOption = _
  split
  · rfl
  · rw [toOption_mapError, toOption_mapError, hSame]

/-- Faults are told alike, so of a rendering only the image counts. -/
theorem told_renderAndSave (folder : Folder) (scene : Scene) (hSamples : options.samplesPerPixel = 0) :
    (renderAndSave folder scene options).told =
      if options.width = 0 ∨ options.height = 0 then
        (some (Failure.emptyImage options.width options.height).report, folder)
      else match (renderImage scene 0 options).toOption with
        | none => (some ⟨101, none, ""⟩, folder)
        | some image => (saveOutputs folder (image.map (·.map Double.ofFloat)) options).told := by
  rw [renderAndSave, render_of_center scene hSamples]
  by_cases hEmpty : options.width = 0 ∨ options.height = 0
  · rw [if_pos hEmpty, if_pos hEmpty]
    rfl
  · rw [if_neg hEmpty, if_neg hEmpty]
    cases renderImage scene 0 options <;> rfl

theorem told_renderAndSave_redrawn (folder : Folder) {scene : Scene}
    (hDrawless : options.Drawless scene.world) :
    (renderAndSave folder scene (options.redrawn parallel initState initSeq)).told =
      (renderAndSave folder scene options).told := by
  have hSamples : (options.redrawn parallel initState initSeq).samplesPerPixel = 0 := hDrawless.1
  rw [told_renderAndSave folder scene hSamples, told_renderAndSave folder scene hDrawless.1,
    toOption_renderImage_redrawn parallel initState initSeq hDrawless]
  rfl

/-- What a command tells and leaves in the folder is the same either way. -/
theorem told_run_redrawn (folder : Folder) {command : Command} (hDrawless : command.Drawless folder) :
    ((command.redrawn parallel initState initSeq).run folder).told = (command.run folder).told := by
  cases command with
  | demo options => exact told_renderAndSave_redrawn parallel initState initSeq folder hDrawless
  | render path options =>
      have hAspect : aspectRatio (options.redrawn parallel initState initSeq) = aspectRatio options := rfl
      simp only [Command.redrawn, Command.run, runRender, hAspect]
      cases hScene : Scene.load folder path (aspectRatio options) with
      | error error => rfl
      | ok scene =>
          have hScenes := hDrawless scene hScene
          exact told_renderAndSave_redrawn parallel initState initSeq folder hScenes
  | convert input output options => rfl

/-- What a process reports is what its command has told. -/
theorem execute_of_run {folder : Folder} {arguments : List String} {command : Command}
    (hRequest : Request.ofArguments arguments = .run command) :
    execute folder arguments =
      ((command.run folder).told.1.getD ⟨0, none, ""⟩, (command.run folder).told.2) := by
  simp only [execute, hRequest, Outcome.told]
  cases (command.run folder).failure <;> rfl

theorem Command.Drawless.of_rendering? {folder : Folder} {command : Command} {scene : Scene} {options : RenderOptions}
    (hDrawless : command.Drawless folder) (h : command.rendering? folder = some (scene, options)) :
    options.Drawless scene.world := by
  cases command with
  | demo given =>
      obtain ⟨rfl, rfl⟩ := Prod.mk.inj (Option.some.inj h)
      exact hDrawless
  | render path given =>
      obtain ⟨hScene, rfl⟩ := Command.rendering?_render_eq_some_iff.mp h
      exact hDrawless scene hScene
  | convert input output given => cases h

/-- No failure ends with the exit code of a success. -/
theorem Failure.exitCode_report_ne_zero (failure : Failure) : failure.report.exitCode ≠ 0 := by
  cases failure <;> simp [Failure.report]

/-- A process that reports success has run a command without a failure. -/
theorem failure_of_exitCode {folder : Folder} {arguments : List String} {command : Command}
    (hRequest : Request.ofArguments arguments = .run command) (hExit : (execute folder arguments).1.exitCode = 0) :
    (command.run folder).failure = none := by
  rw [execute_of_run hRequest, Outcome.told] at hExit
  cases hFailure : (command.run folder).failure with
  | none => rfl
  | some failure =>
      rw [hFailure] at hExit
      exact absurd hExit failure.exitCode_report_ne_zero

/-- Where nothing is drawn, tracing an image pixel by pixel on one generator and rendering it in buckets with
a generator for each pixel give the same image, and the generator is as it was. If they do not, both stop at
a fault, and where surfaces have colors and depths of paths can be counted there is none. So two commands
that differ only in the manner of rendering and in their seeds report the same and leave the same files. If they
report success and have rendered a scene, both have come to one image, whose picture is one of the files, and its float
map is another one, unless both were to lie in one place. -/
theorem tracing_eq_buckets_of_drawless :
    (∀ (α : Type) [Scalar α] (view : Viewport α) (world : World α) (renderer : Renderer α),
      view.samplesPerSide = 0 → renderer.Drawless world →
        let coloring : RayColoring (Except Fault) α := renderer.radiance world
        (∀ generator seed size, 0 < size →
          ((view.traceImage coloring).run generator).toOption =
            (view.renderBuckets coloring seed size).toOption.map (·, generator)) ∧
        ∀ blank : Image α, Image.blank view.width view.height = .ok blank → world.Reflects → world.Emits →
          (∀ tracer, renderer = .pathTracing tracer → tracer.maxDepth < PathTracer.depthLimit) →
          ∃ image : Image α,
            (image.width = view.width ∧ image.height = view.height ∧ image.isFilled = true) ∧
            (∀ generator, (view.traceImage coloring).run generator = .ok (image, generator)) ∧
            ∀ seed size, 0 < size → view.renderBuckets coloring seed size = .ok image) ∧
    ∀ (folder : Folder) (command : Command), command.Drawless folder →
      ∀ (parallel : Bool) (initState initSeq : UInt64) (arguments others : List String),
        Request.ofArguments arguments = .run command →
        Request.ofArguments others = .run (command.redrawn parallel initState initSeq) →
          execute folder arguments = execute folder others ∧
          ∀ scene options, command.rendering? folder = some (scene, options) →
            (execute folder arguments).1.exitCode = 0 →
            ∃ image bytes picture,
              render scene options = .ok image ∧
              render scene (options.redrawn parallel initState initSeq) = .ok image ∧
              Pfm.encode .littleEndian (image.map (·.map Double.ofFloat)) = .ok bytes ∧
              (folder.resolve? options.pfmOutput ≠ folder.resolve? options.pictureOutput →
                (execute folder arguments).2.read? options.pfmOutput = some (.bytes bytes)) ∧
              (((image.map (·.map Double.ofFloat)).normalize (.ofFloat options.factor) none).compress).toPicture
                (.ofFloat options.gamma) = .ok picture ∧
              Shows (execute folder arguments).2 options.pictureOutput picture := by
  constructor
  · intro α _ view world renderer hCenter hDrawless coloring
    refine ⟨fun generator seed size hSize =>
      Viewport.toOption_traceImage hDrawless.radiance hCenter generator seed hSize, ?_⟩
    intro blank hBlank hReflects hEmits hLimit
    exact Viewport.exists_image_of_gives hDrawless.radiance (Renderer.gives_radiance hReflects hEmits hLimit)
      hCenter hBlank
  · intro folder command hDrawless parallel initState initSeq arguments others hCommand hOther
    have hSame := told_run_redrawn parallel initState initSeq folder hDrawless
    refine ⟨by rw [execute_of_run hCommand, execute_of_run hOther, hSame], fun scene options hRendering hExit => ?_⟩
    have hRun := run_of_rendering hRendering
    have hDone := hRun ▸ failure_of_exitCode hCommand hExit
    obtain ⟨image, hImage, hSaved⟩ := exists_image_of_renderAndSave hDone
    have hHeld : (image.map (·.map Double.ofFloat)).Held := (held_of_render hImage).map _
    obtain ⟨bytes, picture, hEncode, hPicture, hShown, hFloatMap⟩ := exists_files_of_saveOutputs hHeld (hSaved ▸ hDone)
    have hFolder : (execute folder arguments).2 =
        (saveOutputs folder (image.map (·.map Double.ofFloat)) options).folder := by
      rw [execute_of_run hCommand, Outcome.told, hRun, hSaved]
    have hRedrawn : render scene (options.redrawn parallel initState initSeq) = .ok image := by
      have hOption := toOption_render_redrawn parallel initState initSeq (hDrawless.of_rendering? hRendering)
      exact toOption_eq_some_iff.mp (hOption.trans (toOption_eq_some_iff.mpr hImage))
    rw [hFolder]
    exact ⟨image, bytes, picture, hImage, hRedrawn, hEncode, hFloatMap, hPicture, hShown⟩

/-- A glowing ball above a floor, both of them mirrors. -/
def mirrorHall : World Float :=
  ⟨[⟨.sphere, .identity, ⟨.specular (.uniform ⟨0.5, 0.75, 1.0⟩) 0.1, .uniform ⟨0.25, 0.0, 0.0⟩⟩⟩,
    ⟨.plane, .translation ⟨0.0, 0.0, -1.0⟩,
      ⟨.specular (.uniform Color.white) 0.1, .uniform Color.black⟩⟩], []⟩

def hallView : Viewport Float := ⟨⟨.perspective 1.0, 1.5, .translation ⟨-3.0, 0.0, 0.0⟩⟩, 3, 2, 0⟩

/-- Three hits are followed, and none of them may be the last by chance. -/
def hallTracer : PathTracer Float := ⟨Color.white, 4, 2, 3⟩

/-- Whatever is seen in the hall is a mirror. -/
theorem material_of_mirrorHall {ray : Ray Float} {hit : Hit Float}
    (hSeen : mirrorHall.intersect? ray = some hit) :
    ∃ color emitted, hit.material = ⟨.specular (.uniform color) 0.1, .uniform emitted⟩ := by
  obtain ⟨shape, hShape, hMaterial⟩ := World.exists_material_of_intersect? hSeen
  rw [hMaterial]
  rcases List.mem_pair.mp hShape with rfl | rfl <;> exact ⟨_, _, rfl⟩

/-- An image of one pixel comes about whatever the scene, as long as only hits are told from misses. -/
theorem exists_render_onePixel (scene : Scene) :
    ∃ image, render scene onePixel = .ok image ∧ image.width = 1 ∧ image.height = 1 := by
  let view : Viewport Float := ⟨scene.camera, 1, 1, 0⟩
  let renderer : Renderer Float := .onOff scene.background Color.white
  have hDrawless : renderer.Drawless scene.world := trivial
  have hGives (ray : Ray Float) : Sampling.Gives (renderer.radiance scene.world ray) fun _ => True :=
    Sampling.gives_pure trivial
  have hBlank : (Image.blank view.width view.height : Except Fault (Image Float)) =
      .ok (Image.tabulate 1 1 fun _ => Color.black) := rfl
  obtain ⟨image, ⟨hWidth, hHeight, -⟩, hTraced, -⟩ :=
    Viewport.exists_image_of_gives hDrawless.radiance hGives rfl hBlank
  have hImage : renderImage scene 0 onePixel = .ok image := by
    have hRun := hTraced (Pcg.seeded onePixel.initState onePixel.initSeq)
    change ((view.traceImage (renderer.radiance scene.world)).run _ >>= fun traced => pure traced.1) = _
    rw [hRun]
    rfl
  refine ⟨image, ?_, hWidth, hHeight⟩
  rw [render_of_center scene rfl, hImage, if_neg (by decide)]
  rfl

/-- The built-in scene in a single pixel. -/
def smallDemo : List String := ["demo", "--algorithm", "onoff", "--width", "1", "--height", "1"]

theorem ofArguments_smallDemo : Request.ofArguments smallDemo = .run (.demo { render := onePixel }) := by
  with_unfolding_all rfl

theorem exitCode_smallDemo : (execute .empty smallDemo).1.exitCode = 0 := by
  obtain ⟨image, hImage, hWidth, hHeight⟩ := exists_render_onePixel (demoScene { render := onePixel })
  have hHeld : (image.map (·.map Double.ofFloat)).Held := (held_of_render hImage).map _
  have hSaved : ((Command.demo { render := onePixel }).run .empty).failure = none := by
    change (renderAndSave .empty (demoScene { render := onePixel }) onePixel).failure = none
    rw [renderAndSave, hImage]
    refine failure_saveOutputs_onePixel hHeld ?_ ?_
    · change 0 < image.width % UInt32.size
      rw [hWidth]
      decide
    · change 0 < image.height % UInt32.size
      rw [hHeight]
      decide
  rw [execute_of_run ofArguments_smallDemo, Outcome.told, hSaved]
  rfl

/-- Paths between mirrors, the flat picture of the built-in scene, and a single pixel of it in two files. -/
theorem tracing_eq_buckets_of_drawless_mirrorHall :
    (∃ image : Image Float, image.width = 3 ∧ image.height = 2 ∧
      (∀ generator,
        (hallView.traceImage ((Renderer.pathTracing hallTracer).radiance mirrorHall)).run generator =
          .ok (image, generator)) ∧
      ∀ seed, hallView.renderBuckets ((Renderer.pathTracing hallTracer).radiance mirrorHall) seed 2 =
        .ok image) ∧
    (∀ folder, execute folder ["demo", "--algorithm", "flat"] =
      execute folder ["demo", "--algorithm=flat", "--parallel", "--init-state", "7"]) ∧
    ∃ image bytes picture,
      render (demoScene { render := onePixel }) onePixel = .ok image ∧
      Pfm.encode .littleEndian (image.map (·.map Double.ofFloat)) = .ok bytes ∧
      (execute .empty smallDemo).2.read? "output.pfm" = some (.bytes bytes) ∧
      Shows (execute .empty smallDemo).2 "output.png" picture := by
  refine ⟨?_, fun folder => ?_, ?_⟩
  · have hMirrored : mirrorHall.Mirrored := by
      intro shape hShape
      rcases List.mem_pair.mp hShape with rfl | rfl <;> exact ⟨_, _, rfl⟩
    have hReflects : mirrorHall.Reflects := by
      intro ray hit hSeen
      obtain ⟨color, emitted, hMaterial⟩ := material_of_mirrorHall hSeen
      exact ⟨color, by rw [hMaterial]; rfl⟩
    have hEmits : mirrorHall.Emits := by
      intro ray hit hSeen
      obtain ⟨color, emitted, hMaterial⟩ := material_of_mirrorHall hSeen
      exact ⟨emitted, by rw [hMaterial]; rfl⟩
    have hDrawless : (Renderer.pathTracing hallTracer).Drawless mirrorHall :=
      ⟨hMirrored, Nat.lt_succ_self 2⟩
    have hBlank : (Image.blank hallView.width hallView.height : Except Fault (Image Float)) =
        .ok (Image.tabulate 3 2 fun _ => Color.black) := rfl
    obtain ⟨image, ⟨hWidth, hHeight, -⟩, hTraced, hBuckets⟩ :=
      (tracing_eq_buckets_of_drawless.1 Float hallView mirrorHall _ rfl hDrawless).2 _ hBlank hReflects hEmits
        (by rintro tracer ⟨⟩; decide)
    exact ⟨image, hWidth, hHeight, hTraced, fun seed => hBuckets seed 2 two_pos⟩
  · have hDrawless : (Command.demo { render := { algorithm := .flat } }).Drawless folder := ⟨rfl, nofun⟩
    exact (tracing_eq_buckets_of_drawless.2 folder _ hDrawless true 7 54
      ["demo", "--algorithm", "flat"] ["demo", "--algorithm=flat", "--parallel", "--init-state", "7"]
      (by with_unfolding_all rfl) (by with_unfolding_all rfl)).1
  · have hDrawless : (Command.demo { render := onePixel }).Drawless .empty := ⟨rfl, nofun⟩
    have hApart : Folder.empty.resolve? onePixel.pfmOutput ≠ Folder.empty.resolve? onePixel.pictureOutput := by
      change Folder.empty.resolve? "output.pfm" ≠ Folder.empty.resolve? "output.png"
      rw [resolve?_output.1, resolve?_output.2]
      decide
    obtain ⟨image, bytes, picture, hImage, -, hEncode, hFloatMap, -, hShown⟩ :=
      (tracing_eq_buckets_of_drawless.2 .empty _ hDrawless true 42 54 smallDemo (smallDemo ++ ["--parallel"])
        ofArguments_smallDemo (by with_unfolding_all rfl)).2 _ _ rfl exitCode_smallDemo
    exact ⟨image, bytes, picture, hImage, hEncode, hFloatMap hApart, hShown⟩

end RayTracer.CommandLine
