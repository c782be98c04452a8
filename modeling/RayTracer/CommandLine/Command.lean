import RayTracer.CommandLine.Arguments
import RayTracer.Text.Numeral

/-!
The commands and their options.
-/

namespace RayTracer.CommandLine

inductive Algorithm where
  | onOff
  | flat
  | pointLight
  | pathTracing
  deriving DecidableEq, Repr

/-- The settings of a rendering; the defaults hold where the command line says nothing. -/
structure RenderOptions where
  width : Nat := 640
  height : Nat := 480
  algorithm : Algorithm := .pathTracing
  numOfRays : Nat := 10
  maxDepth : Nat := 3
  rouletteDepth : Nat := 3
  samplesPerPixel : Nat := 0
  initState : UInt64 := 42
  initSeq : UInt64 := 54
  /-- Render in buckets, with a generator for each pixel, instead of pixel by pixel on one. -/
  parallel : Bool := false
  factor : Float := 1.0
  gamma : Float := 1.0
  pfmOutput : String := "output.pfm"
  pictureOutput : String := "output.png"

structure DemoOptions where
  angle : Float := 0.0
  orthogonal : Bool := false
  render : RenderOptions := {}

structure ConversionOptions where
  factor : Float := 0.2
  gamma : Float := 1.0

inductive Command where
  | demo (options : DemoOptions)
  | render (scene : String) (options : RenderOptions)
  | convert (input output : String) (options : ConversionOptions)

inductive Topic where
  | program
  | demo
  | render
  | convert
  | help
  deriving DecidableEq, Repr

/-- The topics that are named by a word, which all but the program itself are. -/
def topicNames : List (String × Topic) :=
  [("demo", .demo), ("render", .render), ("pfm2png", .convert), ("help", .help)]

inductive Request where
  | run (command : Command)
  | version
  | help (topic : Topic)
  | refused

def size? (text : String) : Option Nat := Text.readCount? UInt64.size text.toList

def word? (text : String) : Option UInt64 := (size? text).map UInt64.ofNat

/-- A count of 32 bits from a lower limit on. A sign may be written, even before a zero that stays one. -/
def count? (least : Nat) (text : String) : Option Nat :=
  let (negative, digits) := Text.takeSign text.toList
  match digits with
  | '+' :: _ => none
  | _ =>
    match Text.readCount? UInt32.size digits with
    | some n => if least ≤ n ∧ (negative → n = 0) then some n else none
    | none => none

def number? (text : String) : Option Float := Text.readFloat? text.toList

def path? (text : String) : Option String := if text = "" then none else some text

def algorithmNames : List (String × Algorithm) :=
  [("onoff", .onOff), ("flat", .flat), ("pointlight", .pointLight), ("pathtracing", .pathTracing)]

def algorithm? (name : String) : Option Algorithm := algorithmNames.lookup name

/-- An option whose value is read by a reader and then set. -/
def option {σ β : Type} (name : String) (description : Description) (read : String → Option β)
    (set : β → σ → σ) : Rule σ :=
  ⟨name, description, .value fun text => (read text).map set⟩

/-- The description of an option that has a value even where it is not used. -/
def withFallback (summary fallback : String) : Description := ⟨summary, some fallback, []⟩

def sizeRules : List (Rule RenderOptions) :=
  [ option "width" (withFallback "Width of the image to render" "640") size?
      fun n o => { o with width := n },
    option "height" (withFallback "Height of the image to render" "480") size?
      fun n o => { o with height := n } ]

def algorithmRules : List (Rule RenderOptions) :=
  [ option "algorithm" ⟨"", some "pathtracing", algorithmNames.map (·.1)⟩ algorithm?
      fun a o => { o with algorithm := a },
    option "num-of-rays" (withFallback "Rays scattered at each bounce by the path tracer" "10")
      (count? 1) fun n o => { o with numOfRays := n },
    option "max-depth" (withFallback "Maximum depth of the paths traced by the path tracer" "3")
      (count? 0) fun n o => { o with maxDepth := n },
    option "russian-roulette-limit"
      (withFallback "Depth from which the path tracer starts Russian roulette" "3") (count? 0)
      fun n o => { o with rouletteDepth := n },
    option "samples-per-pixel"
      (withFallback "Rays per pixel; must be a perfect square (0 fires one central ray)" "0")
      (count? 0) fun n o => { o with samplesPerPixel := n },
    option "init-state" (withFallback "Initial state of the random number generator" "42") word?
      fun w o => { o with initState := w },
    option "init-seq" (withFallback "Sequence of the random number generator" "54") word?
      fun w o => { o with initSeq := w },
    ⟨"parallel", ⟨"Render buckets on all cores instead of tracing pixels in order", none, []⟩,
      .flag fun o => { o with parallel := true }⟩ ]

def outputRules : List (Rule RenderOptions) :=
  [ option "factor" (withFallback "Multiplicative factor used to normalize the PNG output" "1")
      number? fun x o => { o with factor := x },
    option "gamma" (withFallback "Gamma correction applied to the PNG output" "1") number?
      fun x o => { o with gamma := x },
    option "pfm-output" (withFallback "Name of the PFM file to create" "output.pfm") path?
      fun p o => { o with pfmOutput := p },
    option "png-output"
      (withFallback "Name of the LDR file to create; the extension selects the format" "output.png")
      path? fun p o => { o with pictureOutput := p } ]

def renderRules : List (Rule RenderOptions) := sizeRules ++ algorithmRules ++ outputRules

def demoRules : List (Rule DemoOptions) :=
  [ option "angle-deg" (withFallback "Rotation of the camera around the Z axis, in degrees" "0")
      number? fun x o => { o with angle := x },
    ⟨"orthogonal", ⟨"Use an orthogonal camera instead of a perspective camera", none, []⟩,
      .flag fun o => { o with orthogonal := true }⟩ ]
  ++ renderRules.map (Rule.lift fun modify o => { o with render := modify o.render })

def conversionRules : List (Rule ConversionOptions) :=
  [ option "factor" (withFallback "Multiplicative factor" "0.2") number?
      fun x o => { o with factor := x },
    option "gamma" (withFallback "Value to be used for gamma correction" "1") number?
      fun x o => { o with gamma := x } ]

/-- A command from its arguments, of which a fixed number is positional. -/
def readCommand {σ : Type} (topic : Topic) (rules : List (Rule σ)) (positionals : Nat) (settings : σ)
    (build : List String → σ → Option Command) (arguments : List String) : Request :=
  match readArguments rules positionals arguments ⟨settings, [], []⟩ with
  | .error .refused => .refused
  | .error .help => .help topic
  | .ok collected =>
    match build collected.positionals collected.settings with
    | some command => .run command
    | none => .refused

def readDemo : List String → Request :=
  readCommand .demo demoRules 0 {} fun _ options => some (.demo options)

def readRender : List String → Request :=
  readCommand .render renderRules 1 {} fun positionals options =>
    match positionals with
    | [scene] => some (.render scene options)
    | _ => none

def readConversion : List String → Request :=
  readCommand .convert conversionRules 2 {} fun positionals options =>
    match positionals with
    | [input, output] => some (.convert input output options)
    | _ => none

def readTopic : List String → Request
  | [] => .help .program
  | [name] => ((topicNames.lookup name).map Request.help).getD .refused
  | _ => .refused

def Request.ofArguments : List String → Request
  | [] => .refused
  | first :: rest =>
    if first = "demo" then readDemo rest
    else if first = "render" then readRender rest
    else if first = "pfm2png" then readConversion rest
    else if first = "help" then readTopic rest
    else if first = "--version" || (isShort first && first.startsWith "-V") then .version
    else if first = "--help" || (isShort first && first.startsWith "-h") then .help .program
    else .refused

end RayTracer.CommandLine
