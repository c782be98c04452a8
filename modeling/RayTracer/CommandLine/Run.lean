import RayTracer.Binary.Parts
import RayTracer.CommandLine.Command
import RayTracer.CommandLine.DemoScene
import RayTracer.CommandLine.Help
import RayTracer.Render.Bucket
import RayTracer.Render.Renderer

/-!
Running commands. A command is a function on the folder that it reads from and writes to; what it has
written stays, also when it fails later.
-/

namespace RayTracer.CommandLine

inductive Failure where
  | emptyImage (width height : Nat)
  | unevenSamples (samples : Nat)
  | scene (path : String)
  | reading (path : String)
  | writing (path : String)
  | fault (reason : Fault)
  deriving DecidableEq, Repr

/-- The line that tells a failure. A fault is no failure of the command and has none. -/
def Failure.message? : Failure → Option String
  | .emptyImage width height =>
    some ("Image size must be positive, got " ++ toString width ++ "x" ++ toString height)
  | .unevenSamples samples =>
    some ("--samples-per-pixel must be a perfect square, got " ++ toString samples)
  | .scene path => some ("Failed to load scene " ++ path)
  | .reading path => some ("Failed to read " ++ path)
  | .writing path => some ("Failed to write " ++ path)
  | .fault _ => none

/-- The failure of a command that cannot go on: the one given where an error was reported. -/
def Failure.ofHalt {ε : Type} (failure : Failure) : Halt ε → Failure
  | .reported _ => failure
  | .fault reason => .fault reason

/-- A folder as a command leaves it, and the failure of the command if there was one. -/
structure Outcome where
  folder : Folder
  failure : Option Failure

/-- The side of the grid of cells for a number of samples per pixel, which has to be a square. The root is a
binary64 number that is made a count of 32 bits, so whether there was a side is told by squaring it again, and
the square has to be such a count too. -/
def samplesPerSide (samples : Nat) : Except Failure Nat :=
  let root : Float := Scalar.sqrt (Scalar.ofNat samples)
  let side := (Binary.Parts.ofFloat root).nearestCount (UInt32.size - 1)
  if side * side < UInt32.size ∧ side * side = samples then .ok side else .error (.unevenSamples samples)

def makeRenderer (background : Color Float) (options : RenderOptions) :
    Except Fault (Renderer Float) :=
  match options.algorithm with
  | .onOff => .ok (.onOff background Color.white)
  | .flat => .ok (.flat background)
  | .pointLight => .ok (.pointLight background Renderer.defaultAmbient)
  | .pathTracing =>
    Renderer.pathTracer background options.numOfRays options.maxDepth options.rouletteDepth

def renderImage (scene : Scene) (side : Nat) (options : RenderOptions) :
    Except Fault (Image Float) := do
  let renderer ← makeRenderer scene.background options
  let view : Viewport Float := ⟨scene.camera, options.width, options.height, side⟩
  let coloring : RayColoring (Except Fault) Float := renderer.radiance scene.world
  if options.parallel then view.renderBuckets coloring options.initState Bucket.defaultSize
  else return (← (view.traceImage coloring).run (Pcg.seeded options.initState options.initSeq)).1

def render (scene : Scene) (options : RenderOptions) : Except Failure (Image Float) := do
  if options.width = 0 ∨ options.height = 0 then
    throw (.emptyImage options.width options.height)
  let side ← samplesPerSide options.samplesPerPixel
  (renderImage scene side options).mapError .fault

def toneMapped (factor : Double) (image : Image Double) : Image Double :=
  (image.normalize factor none).compress

/-- Go on with the folder after an attempt to write a file, unless it failed. -/
def afterWriting (path : String) (written : ImageFile.Written) (next : Folder → Outcome) : Outcome :=
  match written.failure with
  | none => next written.folder
  | some halt => ⟨written.folder, some (.ofHalt (.writing path) halt)⟩

def writePicture (folder : Folder) (path : String) (gamma : Double) (image : Image Double) : Outcome :=
  afterWriting path (ImageFile.savePicture folder path gamma image) fun after => ⟨after, none⟩

/-- Write an image as a float map, then what is shown of it as a picture. -/
def saveOutputs (folder : Folder) (image : Image Double) (options : RenderOptions) : Outcome :=
  afterWriting options.pfmOutput (ImageFile.saveFloatMap folder options.pfmOutput image)
    fun after =>
      writePicture after options.pictureOutput (.ofFloat options.gamma)
        (toneMapped (.ofFloat options.factor) image)

def renderAndSave (folder : Folder) (scene : Scene) (options : RenderOptions) : Outcome :=
  match render scene options with
  | .error failure => ⟨folder, some failure⟩
  | .ok image => saveOutputs folder (image.map (·.map Double.ofFloat)) options

def aspectRatio (options : RenderOptions) : Float :=
  Scalar.ofNat options.width / Scalar.ofNat options.height

/-- The built-in scene. Without light there is nothing to see of its surroundings. -/
def demoScene (options : DemoOptions) : Scene where
  world := demoWorld (options.render.algorithm ≠ .onOff)
  camera := demoCamera options.orthogonal options.angle (aspectRatio options.render)
  background := Color.black

def runDemo (folder : Folder) (options : DemoOptions) : Outcome :=
  renderAndSave folder (demoScene options) options.render

def runRender (folder : Folder) (path : String) (options : RenderOptions) : Outcome :=
  match Scene.load folder path (aspectRatio options) with
  | .error halt => ⟨folder, some (.ofHalt (.scene path) halt)⟩
  | .ok scene => renderAndSave folder scene options

def runConversion (folder : Folder) (input output : String) (options : ConversionOptions) :
    Outcome :=
  match ImageFile.load folder input with
  | .error halt => ⟨folder, some (.ofHalt (.reading input) halt)⟩
  | .ok image =>
    writePicture folder output (.ofFloat options.gamma) (toneMapped (.ofFloat options.factor) image)

def Command.run (folder : Folder) : Command → Outcome
  | .demo options => runDemo folder options
  | .render scene options => runRender folder scene options
  | .convert input output options => runConversion folder input output options

/-- What a process reports: its exit code, its error line and its output. -/
structure Report where
  exitCode : UInt32
  error : Option String
  output : String

/-- The report on a failure. A fault ends the process by itself, with an exit code of its own. -/
def Failure.report : Failure → Report
  | .fault _ => ⟨101, none, ""⟩
  | failure => ⟨1, failure.message?.map ("Error: " ++ ·), ""⟩

def versionLine : String := "lumo 0.1.0\n"

def execute (folder : Folder) (arguments : List String) : Report × Folder :=
  match Request.ofArguments arguments with
  | .refused => (⟨2, none, ""⟩, folder)
  | .help topic => (⟨0, none, topic.page.text⟩, folder)
  | .version => (⟨0, none, versionLine⟩, folder)
  | .run command =>
    let outcome := command.run folder
    match outcome.failure with
    | none => (⟨0, none, ""⟩, outcome.folder)
    | some failure => (failure.report, outcome.folder)

end RayTracer.CommandLine
