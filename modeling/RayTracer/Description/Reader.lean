import RayTracer.Description.Validation
import RayTracer.Json.Reader

/-!
Reading descriptions from JSON. A record is written as an object of its fields or as an array of them in
order; a choice is written as an object with one member, the name of the alternative. Fields with a
default may be left out. Most records refuse fields that they do not know; pigments and reflections pass
over them.
-/

namespace RayTracer

namespace Json

/-- Whether a record may have members that are no fields of it. -/
inductive UnknownFields where
  | refused
  | ignored
  deriving DecidableEq

/-- The values of the members of a name. -/
def membersNamed (name : String) (members : List (Option String × Json)) : List Json :=
  (members.filter fun member => member.1 == some name).map (·.2)

/-- The value of each field of a record, where there is one. A field that is stated twice, a member
whose name is no text and too many items of an array make the record unreadable. -/
def fields? (unknown : UnknownFields) (names : List String) : Json → Option (List (Option Json))
  | .array items =>
    if items.length ≤ names.length then
      some (items.map some ++ List.replicate (names.length - items.length) none)
    else none
  | .object members =>
    let readable := members.all fun member =>
      match member.1 with
      | none => false
      | some key => unknown == .ignored || names.contains key
    if readable then
      names.mapM fun name =>
        match membersNamed name members with
        | [] => some none
        | [value] => some (some value)
        | _ => none
    else none
  | _ => none

/-- The alternative of a choice and its content; an alternative without content may be a mere name. -/
def choice? : Json → Option (String × Option Json)
  | .string (some name) => some (name, none)
  | .object [(some name, content)] => some (name, some content)
  | _ => none

def required {β : Type} (read : Json → Option β) : Option Json → Option β
  | some value => read value
  | none => none

def optional {β : Type} (fallback : β) (read : Json → Option β) : Option Json → Option β
  | some value => read value
  | none => some fallback

/-- A value or nothing, which is written as null. -/
def nullable {β : Type} (read : Json → Option β) : Json → Option (Option β)
  | .null => some none
  | value => (read value).map some

def float? : Json → Option Float
  | .number n => n.toFloat?
  | _ => none

def text? : Json → Option String
  | .string content => content
  | _ => none

def list? {β : Type} (read : Json → Option β) : Json → Option (List β)
  | .array items => items.mapM read
  | _ => none

def vec? (value : Json) : Option (Vec Float) := do
  match ← list? float? value with
  | [x, y, z] => some ⟨x, y, z⟩
  | _ => none

def color? (value : Json) : Option (Color Float) := do
  let v ← vec? value
  return ⟨v.x, v.y, v.z⟩

/-- A count of 32 bits, written as an integer. -/
def steps? : Json → Option Nat
  | .number n => n.toCount? UInt32.size
  | _ => none

end Json

open Json

/-- Whether the content of the identity counts as none. In the steps of a camera, which are read only
after the kind of the camera is known, an empty object does as well as null. -/
def isNoContent (inCamera : Bool) : Json → Bool
  | .null => true
  | .object [] => inCamera
  | _ => false

def TransformStep.ofJson? (inCamera : Bool) (value : Json) : Option (TransformStep Float) := do
  match ← choice? value with
  | ("identity", none) => some .identity
  | ("identity", some content) => if isNoContent inCamera content then some .identity else none
  | ("translation", some content) => return .translation (← vec? content)
  | ("scaling", some content) => return .scaling (← vec? content)
  | ("rotation_x", some content) => return .rotationX (← float? content)
  | ("rotation_y", some content) => return .rotationY (← float? content)
  | ("rotation_z", some content) => return .rotationZ (← float? content)
  | _ => none

def PigmentDescription.ofJson? (value : Json) : Option PigmentDescription := do
  match ← choice? value with
  | ("uniform", some content) => return .uniform (← color? content)
  | ("checkered", some content) =>
    match ← fields? .ignored ["color1", "color2", "steps"] content with
    | [first, second, steps] =>
      return .checkered (← required color? first) (← required color? second)
        (← optional PigmentDescription.defaultSteps steps? steps)
    | _ => none
  | ("image", some content) => return .imageFile (← text? content)
  | _ => none

def ReflectionDescription.ofJson? (value : Json) : Option ReflectionDescription := do
  match ← choice? value with
  | ("diffuse", some content) =>
    match ← fields? .ignored ["pigment", "reflectance"] content with
    | [pigment, reflectance] =>
      return .diffuse (← required PigmentDescription.ofJson? pigment)
        (← optional 1.0 float? reflectance)
    | _ => none
  | ("specular", some content) =>
    match ← fields? .ignored ["pigment", "threshold_angle_rad"] content with
    | [pigment, tolerance] =>
      return .specular (← required PigmentDescription.ofJson? pigment)
        (← optional Reflection.defaultTolerance float? tolerance)
    | _ => none
  | _ => none

def MaterialDescription.ofJson? (value : Json) : Option MaterialDescription := do
  match ← fields? .refused ["brdf", "emitted_radiance"] value with
  | [reflection, emission] =>
    return ⟨← required ReflectionDescription.ofJson? reflection,
      ← optional (.uniform Color.black) PigmentDescription.ofJson? emission⟩
  | _ => none

def ShapeDescription.ofJson? (value : Json) : Option ShapeDescription := do
  let (name, content) ← choice? value
  let solid ← match name with
    | "sphere" => some Solid.sphere
    | "plane" => some Solid.plane
    | _ => none
  match ← fields? .refused ["material", "transformation"] (← content) with
  | [material, steps] =>
    return ⟨solid, ← required text? material,
      ← optional [] (list? (TransformStep.ofJson? false)) steps⟩
  | _ => none

def PointLight.ofJson? (value : Json) : Option (PointLight Float) := do
  match ← fields? .refused ["position", "color", "linear_radius"] value with
  | [position, color, radius] =>
    let place ← required vec? position
    return ⟨⟨place.x, place.y, place.z⟩, ← required color? color, ← optional 0.0 float? radius⟩
  | _ => none

/-- The kind of a camera and the rest of its record. The kind is a member of the object like the others,
or the first item of the array. -/
def cameraKind? : Json → Option (String × Json)
  | .array (kind :: rest) => do return (← text? kind, .array rest)
  | .object members =>
    match membersNamed "type" members with
    | [kind] => do
      return (← text? kind, .object (members.filter fun member => member.1 != some "type"))
    | _ => none
  | _ => none

def CameraDescription.ofJson? (value : Json) : Option CameraDescription := do
  let (kind, content) ← cameraKind? value
  let steps? := list? (TransformStep.ofJson? true)
  match kind with
  | "orthogonal" =>
    match ← fields? .refused ["aspect_ratio", "transformation"] content with
    | [ratio, steps] =>
      return ⟨.orthogonal, ← optional none (nullable float?) ratio, ← optional [] steps? steps⟩
    | _ => none
  | "perspective" =>
    match ← fields? .refused ["aspect_ratio", "distance", "transformation"] content with
    | [ratio, distance, steps] =>
      return ⟨.perspective (← optional 1.0 float? distance), ← optional none (nullable float?) ratio,
        ← optional [] steps? steps⟩
    | _ => none
  | _ => none

/-- A table of materials. Of entries with the same name the last counts, but all have to be readable. -/
def materialTable? : Json → Option (NameTable MaterialDescription)
  | .object members =>
    members.foldlM (fun table member => do
      let name ← member.1
      return table.set name (← MaterialDescription.ofJson? member.2)) NameTable.empty
  | _ => none

def SceneDescription.ofJson? (value : Json) : Option SceneDescription := do
  match ← fields? .refused ["camera", "materials", "shapes", "lights", "background"] value with
  | [camera, materials, shapes, lights, background] =>
    return {
      camera := ← optional none (nullable CameraDescription.ofJson?) camera
      materials := ← optional .empty materialTable? materials
      shapes := ← optional [] (list? ShapeDescription.ofJson?) shapes
      lights := ← optional [] (list? PointLight.ofJson?) lights
      background := ← optional Color.black color? background }
  | _ => none

namespace SceneDescription

/-- The description that a text states, whether usable or not. -/
def read (text : List Char) : Except SceneError SceneDescription :=
  match (Json.parse? text).bind ofJson? with
  | some scene => .ok scene
  | none => .error .malformed

def readValid (text : List Char) : Except SceneError SceneDescription := do
  let scene ← read text
  scene.validate
  return scene

def load (folder : Folder) (path : String) : Except SceneError SceneDescription :=
  match folder.read? path with
  | some (.bytes content) =>
    match Text.decode? content with
    | some text => readValid text
    | none => .error .unreachable
  | _ => .error .unreachable

end SceneDescription

end RayTracer
