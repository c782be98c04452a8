import RayTracer.Description.Build

/-!
The built-in scene: small spheres on the corners of a cube and two more that break its symmetry, with a
floor, a bright sky and a light around them where these make sense.
-/

namespace RayTracer.CommandLine

/-- A sphere of a tenth of a unit around a point. -/
def smallSphere (material : Material Float) (x y z : Float) : Shape Float :=
  ⟨.sphere, Transformation.translation ⟨x, y, z⟩ * Transformation.scaling ⟨0.1, 0.1, 0.1⟩, material⟩

def cornerMaterial : Material Float := .ofPigment (.uniform ⟨0.3, 0.4, 0.8⟩)

def markerMaterial : Material Float := .ofPigment (.checkered ⟨0.8, 0.2, 0.2⟩ ⟨0.9, 0.9, 0.9⟩ 4)

/-- The corners of the cube, the third coordinate changing fastest. -/
def cornerSpheres : List (Shape Float) :=
  let ends : List Float := [-0.5, 0.5]
  ends.flatMap fun x => ends.flatMap fun y => ends.map fun z => smallSphere cornerMaterial x y z

def markerSpheres : List (Shape Float) :=
  [smallSphere markerMaterial 0.0 0.0 (-0.5), smallSphere markerMaterial 0.0 0.5 0.0]

def floor : Shape Float :=
  ⟨.plane, .translation ⟨0.0, 0.0, -0.7⟩,
    .ofPigment (.checkered ⟨0.3, 0.5, 0.1⟩ ⟨0.1, 0.2, 0.5⟩ 4)⟩

def sky : Shape Float :=
  ⟨.sphere, Transformation.scaling ⟨200.0, 200.0, 200.0⟩ * Transformation.translation ⟨0.0, 0.0, 0.4⟩,
    { Material.black with emission := .uniform ⟨1.0, 0.9, 0.5⟩ }⟩

def demoLight : PointLight Float := ⟨⟨-30.0, 30.0, 30.0⟩, Color.white, 0.0⟩

/-- The spheres, with their surroundings or without. -/
def demoWorld (surroundings : Bool) : World Float :=
  let spheres := cornerSpheres ++ markerSpheres
  if surroundings then ⟨spheres ++ [floor, sky], [demoLight]⟩ else ⟨spheres, []⟩

/-- A camera one unit behind the origin, turned around the third axis by an angle in degrees. -/
def demoCamera (orthogonal : Bool) (angle aspectRatio : Float) : Camera Float :=
  ⟨if orthogonal then .orthogonal else .perspective 1.0, aspectRatio,
    Transformation.rotationZ angle * Transformation.translation ⟨-1.0, 0.0, 0.0⟩⟩

end RayTracer.CommandLine
