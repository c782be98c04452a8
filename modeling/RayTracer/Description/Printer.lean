import RayTracer.Description.Basic
import RayTracer.Json.Printer

/-!
Descriptions as JSON, with all defaults filled in. Records are written as objects.
-/

namespace RayTracer

namespace Json

def ofText (text : String) : Json := .string (some text)

def ofNat (n : Nat) : Json := .number (.ofNat n)

/-- The shortest numeral of a finite number; others have none and are written as null. -/
def ofFloat (x : Float) : Json :=
  match JsonNumber.ofFloat? x with
  | some n => .number n
  | none => .null

def record (members : List (String × Json)) : Json :=
  .object (members.map fun (name, value) => (some name, value))

def tagged (name : String) (content : Json) : Json := record [(name, content)]

def triple (x y z : Float) : Json := .array [ofFloat x, ofFloat y, ofFloat z]

def ofColor (color : Color Float) : Json := triple color.r color.g color.b

end Json

open Json

def TransformStep.toJson : TransformStep Float → Json
  | .identity => ofText "identity"
  | .translation v => tagged "translation" (triple v.x v.y v.z)
  | .scaling v => tagged "scaling" (triple v.x v.y v.z)
  | .rotationX angle => tagged "rotation_x" (ofFloat angle)
  | .rotationY angle => tagged "rotation_y" (ofFloat angle)
  | .rotationZ angle => tagged "rotation_z" (ofFloat angle)

def stepsToJson (steps : List (TransformStep Float)) : Json := .array (steps.map (·.toJson))

def PigmentDescription.toJson : PigmentDescription → Json
  | .uniform color => tagged "uniform" (ofColor color)
  | .checkered first second steps =>
    tagged "checkered"
      (record [("color1", ofColor first), ("color2", ofColor second), ("steps", ofNat steps)])
  | .imageFile name => tagged "image" (ofText name)

def ReflectionDescription.toJson : ReflectionDescription → Json
  | .diffuse pigment reflectance =>
    tagged "diffuse" (record [("pigment", pigment.toJson), ("reflectance", ofFloat reflectance)])
  | .specular pigment tolerance =>
    tagged "specular"
      (record [("pigment", pigment.toJson), ("threshold_angle_rad", ofFloat tolerance)])

def MaterialDescription.toJson (material : MaterialDescription) : Json :=
  record [("brdf", material.reflection.toJson), ("emitted_radiance", material.emission.toJson)]

def ShapeDescription.toJson (shape : ShapeDescription) : Json :=
  let name := match shape.solid with
    | .sphere => "sphere"
    | .plane => "plane"
  tagged name
    (record [("material", ofText shape.material), ("transformation", stepsToJson shape.steps)])

def PointLight.toJson (light : PointLight Float) : Json :=
  record [("position", triple light.position.x light.position.y light.position.z),
    ("color", ofColor light.color), ("linear_radius", ofFloat light.radius)]

def CameraDescription.toJson (camera : CameraDescription) : Json :=
  let ratio : Json := match camera.aspectRatio with
    | none => .null
    | some ratio => ofFloat ratio
  let kind := match camera.projection with
    | .orthogonal => [("type", ofText "orthogonal")]
    | .perspective distance => [("type", ofText "perspective"), ("distance", ofFloat distance)]
  record (kind ++ [("aspect_ratio", ratio), ("transformation", stepsToJson camera.steps)])

def SceneDescription.toJson (scene : SceneDescription) : Json :=
  let camera : Json := match scene.camera with
    | none => .null
    | some camera => camera.toJson
  record [("camera", camera),
    ("materials", record (scene.materials.entries.map fun (name, material) => (name, material.toJson))),
    ("shapes", .array (scene.shapes.map (·.toJson))),
    ("lights", .array (scene.lights.map (·.toJson))),
    ("background", ofColor scene.background)]

end RayTracer
