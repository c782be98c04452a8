import RayTracer.Description.Reader

/-!
From a description to a scene: textures are loaded, names of materials resolved and steps composed.
-/

namespace RayTracer

/-- A world with a camera looking at it. -/
structure Scene where
  world : World Float
  camera : Camera Float
  /-- The light along rays that hit nothing. -/
  background : Color Float

def PigmentDescription.build (folder : Folder) (directory : String) :
    PigmentDescription → Except (Halt ImageError) (Pigment Float)
  | .uniform color => .ok (.uniform color)
  | .checkered first second steps => .ok (.checkered first second steps)
  | .imageFile name => do
    let image ← ImageFile.load folder (FileName.join directory name)
    return .texture (image.map (·.map Double.toFloat))

def ReflectionDescription.build (folder : Folder) (directory : String) :
    ReflectionDescription → Except (Halt ImageError) (Reflection Float)
  | .diffuse pigment reflectance => do return .diffuse (← pigment.build folder directory) reflectance
  | .specular pigment tolerance => do return .specular (← pigment.build folder directory) tolerance

def MaterialDescription.build (folder : Folder) (directory : String)
    (description : MaterialDescription) : Except (Halt ImageError) (Material Float) := do
  return ⟨← description.reflection.build folder directory, ← description.emission.build folder directory⟩

/-- The materials of a scene by name. All of them are built, used or not. -/
def buildMaterials (folder : Folder) (directory : String)
    (materials : NameTable MaterialDescription) :
    Except (Halt ImageError) (List (String × Material Float)) :=
  materials.entries.mapM fun (name, description) => do return (name, ← description.build folder directory)

def ShapeDescription.build (materials : List (String × Material Float))
    (description : ShapeDescription) : Except SceneError (Shape Float) :=
  match materials.lookup description.material with
  | some material => .ok ⟨description.solid, .ofSteps description.steps, material⟩
  | none => .error (.undefinedMaterial description.material)

/-- The camera of a description. Without a description it is a perspective camera at distance one. -/
def buildCamera (aspectRatio : Float) : Option CameraDescription → Camera Float
  | some description =>
    ⟨description.projection, description.aspectRatio.getD aspectRatio, .ofSteps description.steps⟩
  | none => ⟨.perspective 1.0, aspectRatio, .identity⟩

namespace Scene

/-- The scene of a description for an image of an aspect ratio. -/
def build (folder : Folder) (directory : String) (aspectRatio : Float)
    (description : SceneDescription) : Except (Halt SceneError) Scene := do
  description.validate.mapError .reported
  let materials ←
    (buildMaterials folder directory description.materials).mapError (·.map SceneError.texture)
  let shapes ← description.shapes.mapM fun stated => (stated.build materials).mapError .reported
  return {
    world := ⟨shapes, description.lights⟩
    camera := buildCamera aspectRatio description.camera
    background := description.background }

/-- The scene in a file. Textures are looked up in the directory of the file. -/
def load (folder : Folder) (path : String) (aspectRatio : Float) :
    Except (Halt SceneError) Scene := do
  let description ← (SceneDescription.load folder path).mapError .reported
  build folder (FileName.parent path) aspectRatio description

end Scene

end RayTracer
