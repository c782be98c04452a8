import RayTracer.CommandLine.Run

/-!
Which files a command is about, so that what lies on a disk can be gathered before it runs and put back
afterwards.
-/

namespace RayTracer

def PigmentDescription.imageFiles : PigmentDescription → List String
  | .imageFile name => [name]
  | .uniform _ | .checkered _ _ _ => []

def SceneDescription.imageFiles (scene : SceneDescription) : List String :=
  scene.materials.entries.flatMap fun (_, material) =>
    material.reflection.pigment.imageFiles ++ material.emission.imageFiles

/-- The paths on the way to what a path names, which is the last of them. -/
def FileName.stages (path : String) : List String :=
  let names := segments path
  (List.range names.length).map fun count => "/".intercalate (names.take (count + 1)) ++ "/"

namespace CommandLine

def Command.inputs : Command → List String
  | .demo _ => []
  | .render scene _ => [scene]
  | .convert input _ _ => [input]

/-- The files that a command reads when those it starts from are known. -/
def Command.textures (folder : Folder) : Command → List String
  | .render scene _ =>
    match SceneDescription.load folder scene with
    | .ok description => description.imageFiles.map (FileName.join (FileName.parent scene))
    | .error _ => []
  | .demo _ | .convert _ _ _ => []

/-- The files that a command writes, in order. -/
def Command.outputs : Command → List String
  | .demo options => [options.render.pfmOutput, options.render.pictureOutput]
  | .render _ options => [options.pfmOutput, options.pictureOutput]
  | .convert _ output _ => [output]

end CommandLine

end RayTracer
