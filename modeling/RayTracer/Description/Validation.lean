import RayTracer.Decimal.Shortest
import RayTracer.Description.Basic
import RayTracer.Storage.ImageFile
import RayTracer.Text.Quoted

/-!
What makes a description usable: every shape names a material of the scene, no chessboard is without
squares, and the camera has a positive distance and a positive aspect ratio where it states one. The first
violation in this order is reported.
-/

namespace RayTracer

inductive ParameterError where
  | zeroSteps (material : String)
  | cameraDistance (value : Float)
  | cameraAspectRatio (value : Float)
  deriving Repr

def ParameterError.message : ParameterError → String
  | .zeroSteps material =>
    "material " ++ Text.quoted material.toList ++ ": checkered pigment needs at least one step"
  | .cameraDistance value => "camera distance must be positive, got " ++ Decimal.text value
  | .cameraAspectRatio value => "camera aspect ratio must be positive, got " ++ Decimal.text value

inductive SceneError where
  | unreachable
  | malformed
  | undefinedMaterial (name : String)
  | texture (reason : ImageError)
  | invalidParameter (reason : ParameterError)
  deriving Repr

/-- The wording of an error, where it does not come from the system, a picture format or the grammar. -/
def SceneError.message? : SceneError → Option String
  | .unreachable => none
  | .malformed => none
  | .undefinedMaterial name => some ("Unknown material " ++ Text.quoted name.toList)
  | .texture reason => reason.message?.map ("Failed to load texture: " ++ ·)
  | .invalidParameter reason => some ("Invalid parameter: " ++ reason.message)

/-- Whether a pigment is a chessboard without squares. -/
def PigmentDescription.isEmptyBoard : PigmentDescription → Bool
  | .checkered _ _ steps => steps == 0
  | _ => false

def MaterialDescription.hasEmptyBoard (material : MaterialDescription) : Bool :=
  material.reflection.pigment.isEmptyBoard || material.emission.isEmptyBoard

namespace CameraDescription

/-- The distance of a perspective camera, unless it is usable. -/
def badDistance? (camera : CameraDescription) : Option Float :=
  match camera.projection with
  | .orthogonal => none
  | .perspective distance => if distance ≤ 0.0 then some distance else none

def badAspectRatio? (camera : CameraDescription) : Option Float :=
  match camera.aspectRatio with
  | none => none
  | some ratio => if ratio ≤ 0.0 then some ratio else none

end CameraDescription

namespace SceneDescription

/-- The first shape without a material. -/
def strayMaterial? (scene : SceneDescription) : Option String :=
  (scene.shapes.find? fun shape => (scene.material? shape.material).isNone).map (·.material)

/-- The first material with a chessboard without squares. -/
def emptyBoard? (scene : SceneDescription) : Option String :=
  (scene.materials.entries.find? fun entry => entry.2.hasEmptyBoard).map (·.1)

def validate (scene : SceneDescription) : Except SceneError Unit :=
  match scene.strayMaterial?, scene.emptyBoard?, scene.camera.bind CameraDescription.badDistance?,
      scene.camera.bind CameraDescription.badAspectRatio? with
  | some name, _, _, _ => .error (.undefinedMaterial name)
  | none, some name, _, _ => .error (.invalidParameter (.zeroSteps name))
  | none, none, some distance, _ => .error (.invalidParameter (.cameraDistance distance))
  | none, none, none, some ratio => .error (.invalidParameter (.cameraAspectRatio ratio))
  | none, none, none, none => .ok ()

end SceneDescription

end RayTracer
