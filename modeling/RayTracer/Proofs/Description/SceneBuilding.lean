import Mathlib
import RayTracer.Description.Build
import RayTracer.Proofs.Outcomes

/-! From a description to a scene. All materials are built, in the order of their names, and then the shapes
with the materials that they name. What can go wrong is what validation finds and an image that does not
load: a shape without a material has been found before. The scene has every shape of the description, in
order and as it was described. -/

namespace RayTracer

theorem exists_of_rel_some {β γ : Type} {R : β → γ → Prop} {found : Option β} {result : γ}
    (h : Option.Rel R found (some result)) : ∃ item, found = some item ∧ R item result := by
  cases h with
  | some hRel => exact ⟨_, rfl, hRel⟩

section Images

variable {β γ : Type} (folder : Folder) (directory : String)

/-- Whether the image of a name loads, seen from a directory. -/
def ImageFile.Loads (name : String) : Prop :=
  ∃ image, ImageFile.load folder (FileName.join directory name) = .ok image

/-- Whether the first image that does not load ends its loading in this way. -/
def ImageFile.FirstFailure (names : List String) (halt : Halt ImageError) : Prop :=
  ∃ before name after, names = before ++ name :: after ∧ (∀ earlier ∈ before, Loads folder directory earlier) ∧
    ImageFile.load folder (FileName.join directory name) = .error halt

/-- Whether there is no result just when one of some images does not load, and then for the reason of the first. -/
def ImageFile.Governs (names : List String) (outcome : Except (Halt ImageError) β) : Prop :=
  ∀ halt, outcome = .error halt ↔ FirstFailure folder directory names halt

variable {folder directory}

namespace ImageFile

theorem not_firstFailure_nil {halt : Halt ImageError} : ¬FirstFailure folder directory [] halt := by
  rintro ⟨before, name, after, hNames, -⟩
  exact List.append_ne_nil_of_right_ne_nil before (List.cons_ne_nil name after) hNames.symm

/-- An image that fails is the first, or one of the others is after the first has loaded. -/
theorem firstFailure_cons_iff {name : String} {names : List String} {halt : Halt ImageError} :
    FirstFailure folder directory (name :: names) halt ↔
      load folder (FileName.join directory name) = .error halt ∨
        Loads folder directory name ∧ FirstFailure folder directory names halt := by
  constructor
  · rintro ⟨before, failing, after, hNames, hBefore, hFailing⟩
    rcases before with - | ⟨first, before⟩
    · obtain ⟨rfl, rfl⟩ := List.cons.inj hNames
      exact Or.inl hFailing
    · obtain ⟨rfl, rfl⟩ := List.cons.inj hNames
      obtain ⟨hFirst, hBefore⟩ := List.forall_mem_cons.mp hBefore
      exact Or.inr ⟨hFirst, before, failing, after, rfl, hBefore, hFailing⟩
  · rintro (hFailing | ⟨hName, before, failing, after, rfl, hBefore, hFailing⟩)
    · exact ⟨[], name, names, rfl, List.forall_mem_nil _, hFailing⟩
    · exact ⟨name :: before, failing, after, rfl, List.forall_mem_cons.mpr ⟨hName, hBefore⟩, hFailing⟩

/-- The first failure of two lists is that of the first list, or that of the second where the first loads. -/
theorem firstFailure_append_iff {names more : List String} {halt : Halt ImageError} :
    FirstFailure folder directory (names ++ more) halt ↔
      FirstFailure folder directory names halt ∨
        (∀ name ∈ names, Loads folder directory name) ∧ FirstFailure folder directory more halt := by
  induction names with
  | nil => simp [not_firstFailure_nil]
  | cons name names ih =>
      rw [List.cons_append, firstFailure_cons_iff, firstFailure_cons_iff, ih, List.forall_mem_cons]
      tauto

/-- Either all images load or one is the first that does not. -/
theorem forall_loads_iff {names : List String} :
    (∀ name ∈ names, Loads folder directory name) ↔ ∀ halt, ¬FirstFailure folder directory names halt := by
  induction names with
  | nil => simp [not_firstFailure_nil]
  | cons name names ih =>
      simp only [List.forall_mem_cons, firstFailure_cons_iff, not_or, not_and, ih, forall_and]
      unfold Loads
      cases load folder (FileName.join directory name) with
      | ok image => simp
      | error halt => simp

/-- What images govern succeeds when all of them load. -/
theorem Governs.exists_ok_iff {names : List String} {outcome : Except (Halt ImageError) β}
    (h : Governs folder directory names outcome) :
    (∃ result, outcome = .ok result) ↔ ∀ name ∈ names, Loads folder directory name := by
  rw [forall_loads_iff]
  constructor
  · rintro ⟨result, rfl⟩ halt hFailure
    cases (h halt).mpr hFailure
  · intro hNone
    cases outcome with
    | ok result => exact ⟨result, rfl⟩
    | error halt => exact absurd ((h halt).mp rfl) (hNone halt)

theorem governs_ok (result : β) : Governs folder directory [] (.ok result) := by
  intro halt
  simp [not_firstFailure_nil]

theorem governs_load (name : String) :
    Governs folder directory [name] (load folder (FileName.join directory name)) := by
  intro halt
  rw [firstFailure_cons_iff]
  simp [not_firstFailure_nil]

/-- The images of the first computation come before those of the second, which runs when all of them have
loaded. -/
theorem Governs.bind {names more : List String} {outcome : Except (Halt ImageError) β}
    {next : β → Except (Halt ImageError) γ} (hOutcome : Governs folder directory names outcome)
    (hNext : ∀ handed, Governs folder directory more (next handed)) :
    Governs folder directory (names ++ more) (outcome >>= next) := by
  intro halt
  have hLoaded := hOutcome.exists_ok_iff
  rw [bind_eq_error_iff, firstFailure_append_iff, ← hLoaded, ← hOutcome halt]
  refine or_congr_right ?_
  constructor
  · rintro ⟨handed, hHanded, hError⟩
    exact ⟨⟨handed, hHanded⟩, (hNext handed halt).mp hError⟩
  · rintro ⟨⟨handed, hHanded⟩, hFailure⟩
    exact ⟨handed, hHanded, (hNext handed halt).mpr hFailure⟩

/-- What is made of a result does not matter to what governs it. -/
theorem Governs.map {names : List String} {outcome : Except (Halt ImageError) β}
    (h : Governs folder directory names outcome) (f : β → γ) :
    Governs folder directory names (outcome >>= fun handed => pure (f handed)) := by
  rw [← List.append_nil names]
  exact h.bind fun handed => governs_ok (f handed)

/-- A loop is governed by the images of its items, in their order. -/
theorem Governs.mapM {images : β → List String} {step : β → Except (Halt ImageError) γ} (items : List β)
    (h : ∀ item, Governs folder directory (images item) (step item)) :
    Governs folder directory (items.flatMap images) (items.mapM step) := by
  induction items with
  | nil => exact governs_ok []
  | cons item items ih =>
      rw [List.mapM_cons, List.flatMap_cons]
      exact (h item).bind fun first => ih.map fun rest => first :: rest

end ImageFile

end Images

section Depictions

variable (folder : Folder) (directory : String)

/-- The images of a pigment. -/
def PigmentDescription.imageNames : PigmentDescription → List String
  | .imageFile name => [name]
  | _ => []

/-- The images of a material, that of the reflection before that of the emission. -/
def MaterialDescription.imageNames (description : MaterialDescription) : List String :=
  description.reflection.pigment.imageNames ++ description.emission.imageNames

/-- The images of all materials, used or not, in the order of the materials. -/
def SceneDescription.imageNames (description : SceneDescription) : List String :=
  description.materials.entries.flatMap fun entry => entry.2.imageNames

inductive PigmentDescription.Depicts : PigmentDescription → Pigment Float → Prop
  | uniform (color : Color Float) : Depicts (.uniform color) (.uniform color)
  | checkered (first second : Color Float) (steps : Nat) :
      Depicts (.checkered first second steps) (.checkered first second steps)
  | imageFile {name : String} {image : Image Double}
      (hLoad : ImageFile.load folder (FileName.join directory name) = .ok image) :
      Depicts (.imageFile name) (.texture (image.map (·.map Double.toFloat)))

inductive ReflectionDescription.Depicts : ReflectionDescription → Reflection Float → Prop
  | diffuse {description : PigmentDescription} {pigment : Pigment Float} (reflectance : Float)
      (hPigment : description.Depicts folder directory pigment) :
      Depicts (.diffuse description reflectance) (.diffuse pigment reflectance)
  | specular {description : PigmentDescription} {pigment : Pigment Float} (tolerance : Float)
      (hPigment : description.Depicts folder directory pigment) :
      Depicts (.specular description tolerance) (.specular pigment tolerance)

structure MaterialDescription.Depicts (description : MaterialDescription) (material : Material Float) :
    Prop where
  reflection : description.reflection.Depicts folder directory material.reflection
  emission : description.emission.Depicts folder directory material.emission

/-- A shape as described in a scene: its solid, placed by its steps from left to right, in the material that
it names. -/
structure ShapeDescription.Depicts (scene : SceneDescription) (description : ShapeDescription)
    (shape : Shape Float) : Prop where
  solid : shape.solid = description.solid
  placement : shape.transformation =
    description.steps.foldl (fun composed step => composed * step.toTransformation) .identity
  material : ∃ entry, scene.material? description.material = some entry ∧
    entry.Depicts folder directory shape.material

/-- The camera of a scene. One that leaves its aspect ratio open has that of the image, and a scene without a
camera is seen in perspective from a distance of one. -/
def SceneDescription.cameraFor (description : SceneDescription) (aspectRatio : Float) : Camera Float :=
  match description.camera with
  | some stated =>
    { projection := stated.projection
      aspectRatio := stated.aspectRatio.getD aspectRatio
      transformation := stated.steps.foldl (fun composed step => composed * step.toTransformation) .identity }
  | none => { projection := .perspective 1.0, aspectRatio, transformation := .identity }

/-- Whether a scene is the one described: every shape in its place, the lights, the background and the
camera. -/
structure SceneDescription.Depicts (aspectRatio : Float) (description : SceneDescription) (scene : Scene) :
    Prop where
  shapes : List.Forall₂ (ShapeDescription.Depicts folder directory description) description.shapes
    scene.world.shapes
  lights : scene.world.lights = description.lights
  background : scene.background = description.background
  camera : scene.camera = description.cameraFor aspectRatio

/-- Whether the first image that does not load ends its loading in this way, with the materials in the order of
their names. -/
def SceneDescription.FirstFailure (description : SceneDescription) (halt : Halt ImageError) : Prop :=
  ∃ entry ∈ description.materials.entries,
    (∀ earlier ∈ description.materials.entries, earlier.1 < entry.1 →
      ∀ name ∈ earlier.2.imageNames, ImageFile.Loads folder directory name) ∧
    ImageFile.FirstFailure folder directory entry.2.imageNames halt

end Depictions

section Materials

variable {folder : Folder} {directory : String}

/-- A pigment is built as one that its description depicts. -/
theorem PigmentDescription.build_eq_ok_iff {description : PigmentDescription} {pigment : Pigment Float} :
    description.build folder directory = .ok pigment ↔ description.Depicts folder directory pigment := by
  constructor
  · intro h
    cases description with
    | uniform color => cases h; exact .uniform color
    | checkered first second steps => cases h; exact .checkered first second steps
    | imageFile name =>
        obtain ⟨image, hLoad, hTexture⟩ := bind_eq_ok_iff.mp h
        cases hTexture
        exact .imageFile hLoad
  · rintro (color | ⟨first, second, steps⟩ | hLoad)
    · rfl
    · rfl
    · exact bind_eq_ok_iff.mpr ⟨_, hLoad, rfl⟩

/-- Building a pigment goes through when its image loads, if it has one. -/
theorem PigmentDescription.governs_build (description : PigmentDescription) :
    ImageFile.Governs folder directory description.imageNames (description.build folder directory) := by
  cases description with
  | uniform color => exact ImageFile.governs_ok _
  | checkered first second steps => exact ImageFile.governs_ok _
  | imageFile name => exact (ImageFile.governs_load name).map _

theorem ReflectionDescription.build_eq_ok_iff {description : ReflectionDescription}
    {reflection : Reflection Float} :
    description.build folder directory = .ok reflection ↔ description.Depicts folder directory reflection := by
  constructor
  · intro h
    cases description with
    | diffuse pigment reflectance =>
        obtain ⟨built, hBuilt, hReflection⟩ := bind_eq_ok_iff.mp h
        cases hReflection
        exact .diffuse reflectance (PigmentDescription.build_eq_ok_iff.mp hBuilt)
    | specular pigment tolerance =>
        obtain ⟨built, hBuilt, hReflection⟩ := bind_eq_ok_iff.mp h
        cases hReflection
        exact .specular tolerance (PigmentDescription.build_eq_ok_iff.mp hBuilt)
  · rintro (⟨reflectance, hPigment⟩ | ⟨tolerance, hPigment⟩)
    · exact bind_eq_ok_iff.mpr ⟨_, PigmentDescription.build_eq_ok_iff.mpr hPigment, rfl⟩
    · exact bind_eq_ok_iff.mpr ⟨_, PigmentDescription.build_eq_ok_iff.mpr hPigment, rfl⟩

theorem ReflectionDescription.governs_build (description : ReflectionDescription) :
    ImageFile.Governs folder directory description.pigment.imageNames
      (description.build folder directory) := by
  cases description with
  | diffuse pigment reflectance => exact pigment.governs_build.map _
  | specular pigment tolerance => exact pigment.governs_build.map _

theorem MaterialDescription.build_eq_ok_iff {description : MaterialDescription} {material : Material Float} :
    description.build folder directory = .ok material ↔ description.Depicts folder directory material := by
  constructor
  · intro h
    obtain ⟨reflection, hReflection, h⟩ := bind_eq_ok_iff.mp h
    obtain ⟨emission, hEmission, hMaterial⟩ := bind_eq_ok_iff.mp h
    cases hMaterial
    exact ⟨ReflectionDescription.build_eq_ok_iff.mp hReflection,
      PigmentDescription.build_eq_ok_iff.mp hEmission⟩
  · rintro ⟨hReflection, hEmission⟩
    exact bind_eq_ok_iff.mpr ⟨_, ReflectionDescription.build_eq_ok_iff.mpr hReflection,
      bind_eq_ok_iff.mpr ⟨_, PigmentDescription.build_eq_ok_iff.mpr hEmission, rfl⟩⟩

/-- Building a material goes through when its images load, that of the reflection first. -/
theorem MaterialDescription.governs_build (description : MaterialDescription) :
    ImageFile.Governs folder directory description.imageNames (description.build folder directory) :=
  description.reflection.governs_build.bind fun _ => description.emission.governs_build.map _

/-- Building all materials goes through when all their images load. -/
theorem governs_buildMaterials (materials : NameTable MaterialDescription) :
    ImageFile.Governs folder directory (materials.entries.flatMap fun entry => entry.2.imageNames)
      (buildMaterials folder directory materials) :=
  ImageFile.Governs.mapM materials.entries fun entry => entry.2.governs_build.map _

/-- Every material is found under its name, and no other. -/
theorem lookup_of_buildMaterials {materials : NameTable MaterialDescription}
    {built : List (String × Material Float)} (h : buildMaterials folder directory materials = .ok built)
    (name : String) :
    Option.Rel (MaterialDescription.Depicts folder directory) (materials.find? name) (built.lookup name) := by
  unfold NameTable.find?
  have hEntries := mapM_eq_ok_iff.mp h
  clear h
  generalize materials.entries = entries at hEntries ⊢
  induction hEntries with
  | nil => exact .none
  | @cons entry result entries built hEntry hEntries ih =>
      obtain ⟨material, hMaterial, hResult⟩ := bind_eq_ok_iff.mp hEntry
      cases hResult
      rw [List.lookup_cons, List.lookup_cons]
      cases name == entry.1 with
      | true => exact .some (MaterialDescription.build_eq_ok_iff.mp hMaterial)
      | false => exact ih

end Materials

section Shapes

variable {folder : Folder} {directory : String} {scene : SceneDescription}
  {materials : List (String × Material Float)}

/-- In a valid scene every shape names a material of the scene. -/
theorem SceneDescription.exists_material_of_validate (h : scene.validate = .ok ())
    {stated : ShapeDescription} (hStated : stated ∈ scene.shapes) :
    ∃ entry, scene.material? stated.material = some entry := by
  have hStray : scene.strayMaterial? = none := by
    unfold validate at h
    cases hStray : scene.strayMaterial? with
    | none => rfl
    | some name =>
        rw [hStray] at h
        cases h
  have hFound := List.find?_eq_none.mp (Option.map_eq_none_iff.mp hStray) stated hStated
  exact Option.ne_none_iff_exists'.mp (by simpa using hFound)

/-- A shape is built as its description depicts it. -/
theorem ShapeDescription.depicts_of_build
    (hMaterials : buildMaterials folder directory scene.materials = .ok materials)
    {stated : ShapeDescription} {shape : Shape Float} (h : stated.build materials = .ok shape) :
    stated.Depicts folder directory scene shape := by
  have hFound := lookup_of_buildMaterials hMaterials stated.material
  unfold build at h
  cases hMaterial : materials.lookup stated.material with
  | none =>
      rw [hMaterial] at h
      cases h
  | some material =>
      rw [hMaterial] at h hFound
      cases h
      obtain ⟨entry, hEntry, hDepicts⟩ := exists_of_rel_some hFound
      exact ⟨rfl, List.foldl_map, entry, hEntry, hDepicts⟩

/-- In a valid scene no shape is without a built material. -/
theorem ShapeDescription.exists_build (hValid : scene.validate = .ok ())
    (hMaterials : buildMaterials folder directory scene.materials = .ok materials)
    {stated : ShapeDescription} (hStated : stated ∈ scene.shapes) :
    ∃ shape, stated.build materials = .ok shape := by
  obtain ⟨entry, hEntry⟩ := scene.exists_material_of_validate hValid hStated
  have hFound := lookup_of_buildMaterials hMaterials stated.material
  unfold SceneDescription.material? at hEntry
  unfold build
  cases hMaterial : materials.lookup stated.material with
  | none =>
      rw [hEntry, hMaterial] at hFound
      cases hFound
  | some material => exact ⟨_, rfl⟩

end Shapes

section Scenes

variable {folder : Folder} {directory : String} {aspectRatio : Float} {description : SceneDescription}

theorem SceneDescription.buildCamera_eq :
    buildCamera aspectRatio description.camera = description.cameraFor aspectRatio := by
  unfold buildCamera cameraFor
  cases description.camera with
  | none => rfl
  | some stated => exact congrArg (Camera.mk _ _) List.foldl_map

/-- The first image in the order of the names is the first of all, since the table is in that order. -/
theorem SceneDescription.firstFailure_iff {halt : Halt ImageError} :
    description.FirstFailure folder directory halt ↔
      ImageFile.FirstFailure folder directory description.imageNames halt := by
  unfold FirstFailure imageNames
  obtain ⟨entries, hNames⟩ := description.materials
  dsimp only
  induction entries with
  | nil => simp [ImageFile.not_firstFailure_nil]
  | cons first entries ih =>
      obtain ⟨hFirst, hLater⟩ := List.pairwise_cons.mp hNames
      rw [List.flatMap_cons, ImageFile.firstFailure_append_iff, ← ih hLater]
      constructor
      · rintro ⟨entry, hEntry, hEarlier, hFailure⟩
        obtain ⟨hFirstLoads, hEarlier⟩ := List.forall_mem_cons.mp hEarlier
        rcases List.mem_cons.mp hEntry with rfl | hEntry
        · exact Or.inl hFailure
        · exact Or.inr ⟨hFirstLoads (hFirst entry hEntry), entry, hEntry, hEarlier, hFailure⟩
      · rintro (hFailure | ⟨hLoaded, entry, hEntry, hEarlier, hFailure⟩)
        · refine ⟨first, List.mem_cons_self, List.forall_mem_cons.mpr ⟨?_, ?_⟩, hFailure⟩
          · exact fun hLess => absurd hLess (lt_irrefl first.1)
          · exact fun other hOther hLess => absurd hLess (hFirst other hOther).asymm
        · refine ⟨entry, List.mem_cons_of_mem first hEntry, List.forall_mem_cons.mpr ⟨?_, hEarlier⟩, hFailure⟩
          exact fun _ => hLoaded

namespace Scene

/-- In a valid scene all shapes find their materials. -/
theorem exists_built_shapes (hValid : description.validate = .ok ()) {materials : List (String × Material Float)}
    (hMaterials : buildMaterials folder directory description.materials = .ok materials) :
    ∃ shapes, description.shapes.mapM (fun stated => (stated.build materials).mapError Halt.reported) =
      .ok shapes := by
  refine exists_mapM_eq_ok fun stated hStated => ?_
  obtain ⟨shape, hShape⟩ := ShapeDescription.exists_build hValid hMaterials hStated
  exact ⟨shape, mapError_eq_ok_iff.mpr hShape⟩

/-- A scene is put together of what its parts are built as. -/
theorem build_eq_ok_iff {scene : Scene} :
    build folder directory aspectRatio description = .ok scene ↔
      description.validate = .ok () ∧ ∃ materials,
        buildMaterials folder directory description.materials = .ok materials ∧ ∃ shapes,
          description.shapes.mapM (fun stated => (stated.build materials).mapError Halt.reported) = .ok shapes ∧
          scene = ⟨⟨shapes, description.lights⟩, buildCamera aspectRatio description.camera,
            description.background⟩ := by
  unfold build
  simp only [bind_eq_ok_iff, mapError_eq_ok_iff, pure_eq_ok_iff]
  constructor
  · rintro ⟨⟨⟩, hValid, materials, hMaterials, shapes, hShapes, rfl⟩
    exact ⟨hValid, materials, hMaterials, shapes, hShapes, rfl⟩
  · rintro ⟨hValid, materials, hMaterials, shapes, hShapes, rfl⟩
    exact ⟨(), hValid, materials, hMaterials, shapes, hShapes, rfl⟩

/-- Building goes through when the description is valid and all images load. -/
theorem exists_build_iff :
    (∃ scene, build folder directory aspectRatio description = .ok scene) ↔
      description.validate = .ok () ∧
        ∀ name ∈ description.imageNames, ImageFile.Loads folder directory name := by
  unfold SceneDescription.imageNames
  rw [← (governs_buildMaterials description.materials).exists_ok_iff]
  constructor
  · rintro ⟨scene, hScene⟩
    obtain ⟨hValid, materials, hMaterials, -⟩ := build_eq_ok_iff.mp hScene
    exact ⟨hValid, materials, hMaterials⟩
  · rintro ⟨hValid, materials, hMaterials⟩
    obtain ⟨shapes, hShapes⟩ := exists_built_shapes hValid hMaterials
    exact ⟨_, build_eq_ok_iff.mpr ⟨hValid, materials, hMaterials, shapes, hShapes, rfl⟩⟩

/-- What is built is the scene described. -/
theorem depicts_of_build {scene : Scene} (h : build folder directory aspectRatio description = .ok scene) :
    description.Depicts folder directory aspectRatio scene := by
  obtain ⟨-, materials, hMaterials, shapes, hShapes, rfl⟩ := build_eq_ok_iff.mp h
  exact {
    shapes := (mapM_eq_ok_iff.mp hShapes).imp fun _ _ hShape =>
      ShapeDescription.depicts_of_build hMaterials (mapError_eq_ok_iff.mp hShape)
    lights := rfl
    background := rfl
    camera := description.buildCamera_eq }

/-- The shapes cannot fail, so what ends the building early is the validation or the first image. -/
theorem build_eq_error_iff {halt : Halt SceneError} :
    build folder directory aspectRatio description = .error halt ↔
      (∃ error, description.validate = .error error ∧ halt = .reported error) ∨
        description.validate = .ok () ∧ ∃ reason,
          description.FirstFailure folder directory reason ∧ halt = reason.map .texture := by
  unfold build
  rw [bind_eq_error_iff, mapError_eq_error_iff]
  refine or_congr (exists_congr fun error => and_congr_right fun _ => eq_comm) ?_
  simp only [SceneDescription.firstFailure_iff]
  constructor
  · rintro ⟨⟨⟩, hValid, h⟩
    have hValid := mapError_eq_ok_iff.mp hValid
    refine ⟨hValid, ?_⟩
    rcases bind_eq_error_iff.mp h with hTexture | ⟨materials, hMaterials, h⟩
    · obtain ⟨reason, hReason, rfl⟩ := mapError_eq_error_iff.mp hTexture
      exact ⟨reason, (governs_buildMaterials description.materials reason).mp hReason, rfl⟩
    · obtain ⟨shapes, hShapes⟩ := exists_built_shapes hValid (mapError_eq_ok_iff.mp hMaterials)
      rw [hShapes] at h
      cases h
  · rintro ⟨hValid, reason, hFailure, rfl⟩
    have hMaterials := (governs_buildMaterials description.materials reason).mpr hFailure
    refine ⟨(), mapError_eq_ok_iff.mpr hValid, bind_eq_error_iff.mpr (Or.inl ?_)⟩
    exact mapError_eq_error_iff.mpr ⟨reason, hMaterials, rfl⟩

/-- An error that is reported is that of the validation or, if there is none, that of the first image. -/
theorem build_eq_reported_iff {error : SceneError} :
    build folder directory aspectRatio description = .error (.reported error) ↔
      description.validate = .error error ∨ description.validate = .ok () ∧
        ∃ reason, description.FirstFailure folder directory (.reported reason) ∧ error = .texture reason := by
  rw [build_eq_error_iff]
  refine or_congr ?_ (and_congr_right fun _ => ?_)
  · simp
  · constructor
    · rintro ⟨reason | fault, hFailure, hHalt⟩
      · exact ⟨reason, hFailure, Halt.reported.inj hHalt⟩
      · cases hHalt
    · rintro ⟨reason, hFailure, rfl⟩
      exact ⟨_, hFailure, rfl⟩

/-- The only faults are those of the images. -/
theorem build_eq_fault_iff {fault : Fault} :
    build folder directory aspectRatio description = .error (.fault fault) ↔
      description.validate = .ok () ∧ description.FirstFailure folder directory (.fault fault) := by
  rw [build_eq_error_iff]
  constructor
  · rintro (⟨error, -, hHalt⟩ | ⟨hValid, reason | cause, hFailure, hHalt⟩)
    · cases hHalt
    · cases hHalt
    · cases hHalt
      exact ⟨hValid, hFailure⟩
  · rintro ⟨hValid, hFailure⟩
    exact Or.inr ⟨hValid, _, hFailure, rfl⟩

/-- Building goes through when the description is valid and every image of every material loads, and then the
scene is the one described. Otherwise it reports the error of the validation or, if there is none, that of the
first image, unless loading that image ends at a fault; shapes always find their materials. -/
theorem build_faithful (folder : Folder) (directory : String) (aspectRatio : Float)
    (description : SceneDescription) :
    ((∃ scene, build folder directory aspectRatio description = .ok scene) ↔
      description.validate = .ok () ∧
        ∀ name ∈ description.imageNames, ImageFile.Loads folder directory name) ∧
    (∀ scene, build folder directory aspectRatio description = .ok scene →
      description.Depicts folder directory aspectRatio scene) ∧
    (∀ error, build folder directory aspectRatio description = .error (.reported error) ↔
        description.validate = .error error ∨ description.validate = .ok () ∧
          ∃ reason, description.FirstFailure folder directory (.reported reason) ∧ error = .texture reason) ∧
    (∀ fault, build folder directory aspectRatio description = .error (.fault fault) ↔
        description.validate = .ok () ∧ description.FirstFailure folder directory (.fault fault)) ∧
    (description.validate = .ok () → ∀ materials,
      buildMaterials folder directory description.materials = .ok materials →
        ∀ stated ∈ description.shapes, ∃ shape, stated.build materials = .ok shape) := by
  refine ⟨exists_build_iff, fun scene hScene => depicts_of_build hScene, fun error => build_eq_reported_iff,
    fun fault => build_eq_fault_iff, ?_⟩
  intro hValid materials hMaterials stated hStated
  exact ShapeDescription.exists_build hValid hMaterials hStated

end Scene

end Scenes

section Rooms

/-- Where there are no files, that there is none is reported of every image. -/
theorem ImageFile.exists_load_empty (path : String) : ∃ reason, load .empty path = .error (.reported reason) := by
  have hNothing : Folder.empty.read? path = none := by
    unfold Folder.read?
    cases Folder.empty.resolve? path with
    | none => rfl
    | some place => rfl
  unfold load
  split
  · exact ⟨.unreachable, by rw [loadFloatMap, hNothing]⟩
  · refine ⟨.codec, ?_⟩
    rw [loadPicture, hNothing]
    split
    next hSome => cases hSome
    next => rfl

/-- A ball on a floor, both of chalk, seen without perspective. -/
def SceneDescription.chalkRoom : SceneDescription where
  camera := some ⟨.orthogonal, none, []⟩
  materials := NameTable.empty.set "chalk" ⟨.diffuse (.uniform ⟨1.0, 1.0, 1.0⟩) 1.0, .uniform .black⟩
  shapes := [⟨.sphere, "chalk", [.translation ⟨0.0, 0.0, 1.0⟩]⟩, ⟨.plane, "chalk", []⟩]
  lights := []
  background := .black

/-- The room with a second material, which is of no use but shines with the colors of a picture. -/
def SceneDescription.paintedRoom : SceneDescription :=
  { chalkRoom with
    materials := chalkRoom.materials.set "sky" ⟨.diffuse (.uniform .black) 1.0, .imageFile "sky.pfm"⟩ }

/-- Where there are no files the first room can be built. The second cannot, though nothing in it has a
picture. -/
theorem Scene.build_faithful_rooms :
    (∃ scene, build .empty "" 1.5 .chalkRoom = .ok scene ∧
      SceneDescription.chalkRoom.Depicts .empty "" 1.5 scene) ∧
    ∃ reason, build .empty "" 1.5 .paintedRoom = .error (.reported (.texture reason)) := by
  obtain ⟨hBuilds, hDepicts, -⟩ := build_faithful .empty "" 1.5 .chalkRoom
  obtain ⟨-, -, hErrors, -⟩ := build_faithful .empty "" 1.5 .paintedRoom
  constructor
  · obtain ⟨scene, hScene⟩ := hBuilds.mpr ⟨rfl, List.forall_mem_nil _⟩
    exact ⟨scene, hScene, hDepicts scene hScene⟩
  · obtain ⟨reason, hReason⟩ := ImageFile.exists_load_empty (FileName.join "" "sky.pfm")
    have hFirst : SceneDescription.paintedRoom.FirstFailure .empty "" (.reported reason) :=
      SceneDescription.firstFailure_iff.mpr ⟨[], "sky.pfm", [], rfl, List.forall_mem_nil _, hReason⟩
    exact ⟨reason, (hErrors _).mpr (Or.inr ⟨rfl, reason, hFirst, rfl⟩)⟩

end Rooms

end RayTracer
