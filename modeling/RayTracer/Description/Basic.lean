import RayTracer.Description.NameTable
import RayTracer.Scene.Camera
import RayTracer.Scene.World

/-!
Descriptions of scenes, as files hold them: materials by name, shapes that refer to them, lights, a camera
and a background. Textures are still names of files, and a camera may leave its aspect ratio to the image.
-/

namespace RayTracer

inductive PigmentDescription where
  | uniform (color : Color Float)
  | checkered (first second : Color Float) (steps : Nat)
  | imageFile (name : String)
  deriving Repr

def PigmentDescription.defaultSteps : Nat := 10

inductive ReflectionDescription where
  | diffuse (pigment : PigmentDescription) (reflectance : Float)
  | specular (pigment : PigmentDescription) (tolerance : Float)
  deriving Repr

def ReflectionDescription.pigment : ReflectionDescription → PigmentDescription
  | .diffuse pigment _ => pigment
  | .specular pigment _ => pigment

structure MaterialDescription where
  reflection : ReflectionDescription
  emission : PigmentDescription
  deriving Repr

structure ShapeDescription where
  solid : Solid
  /-- The name of a material of the scene. -/
  material : String
  steps : List (TransformStep Float)
  deriving Repr

structure CameraDescription where
  projection : Projection Float
  aspectRatio : Option Float
  steps : List (TransformStep Float)
  deriving Repr

structure SceneDescription where
  camera : Option CameraDescription
  materials : NameTable MaterialDescription
  shapes : List ShapeDescription
  lights : List (PointLight Float)
  background : Color Float
  deriving Repr

namespace SceneDescription

def material? (scene : SceneDescription) (name : String) : Option MaterialDescription :=
  scene.materials.find? name

/-- Whether two shapes, given by their places in the list, name the same material. -/
def sharesMaterial (scene : SceneDescription) (i j : Nat) : Bool :=
  match scene.shapes[i]?, scene.shapes[j]? with
  | some a, some b => a.material == b.material
  | _, _ => false

end SceneDescription

end RayTracer
