import Mathlib
import RayTracer.Proofs.Description.SceneLoading

/-! Which descriptions are usable, and what is reported of one that is not. There are four things to go wrong, and they
are looked for in a fixed order: shapes without a material, in the order of the shapes; chessboards without squares, in
the order of the names of the materials; the distance of the camera; its aspect ratio. The search for the first of each
kind decides whether there is one at all, so that what is reported is the first violation of all. A number that is none
violates nothing. -/

namespace RayTracer

/-- A chessboard without squares. -/
def PigmentDescription.Squareless (pigment : PigmentDescription) : Prop :=
  ∃ first second, pigment = .checkered first second 0

/-- Whether a chessboard without squares is reflected or emitted. -/
def MaterialDescription.Squareless (material : MaterialDescription) : Prop :=
  material.reflection.pigment.Squareless ∨ material.emission.Squareless

namespace SceneDescription

def HasMaterial (scene : SceneDescription) (name : String) : Prop := ∃ entry ∈ scene.materials.entries, entry.1 = name

/-- The distance of a camera in perspective. -/
def StatesDistance (scene : SceneDescription) (distance : Float) : Prop :=
  ∃ camera, scene.camera = some camera ∧ camera.projection = .perspective distance

/-- The aspect ratio of a camera of either kind that does not leave it to the image. -/
def StatesAspectRatio (scene : SceneDescription) (ratio : Float) : Prop :=
  ∃ camera, scene.camera = some camera ∧ camera.aspectRatio = some ratio

/-- What a description has to satisfy. -/
structure Usable (scene : SceneDescription) : Prop where
  shapes : ∀ shape ∈ scene.shapes, scene.HasMaterial shape.material
  materials : ∀ entry ∈ scene.materials.entries, ¬entry.2.Squareless
  distance : ∀ distance, scene.StatesDistance distance → ¬distance ≤ 0.0
  aspectRatio : ∀ ratio, scene.StatesAspectRatio ratio → ¬ratio ≤ 0.0

/-- The first violation in the order of the conditions, of several of one kind the first in the order of the shapes or
of the names of the materials, and how it is reported. -/
inductive FirstViolation (scene : SceneDescription) : SceneError → Prop
  | strayMaterial {before after : List ShapeDescription} {shape : ShapeDescription}
      (hShapes : scene.shapes = before ++ shape :: after)
      (hBefore : ∀ earlier ∈ before, scene.HasMaterial earlier.material)
      (hStray : ¬scene.HasMaterial shape.material) : FirstViolation scene (.undefinedMaterial shape.material)
  | squareless {entry : String × MaterialDescription}
      (hShapes : ∀ shape ∈ scene.shapes, scene.HasMaterial shape.material)
      (hEntry : entry ∈ scene.materials.entries)
      (hBefore : ∀ other ∈ scene.materials.entries, other.1 < entry.1 → ¬other.2.Squareless)
      (hSquareless : entry.2.Squareless) : FirstViolation scene (.invalidParameter (.zeroSteps entry.1))
  | distance {distance : Float}
      (hShapes : ∀ shape ∈ scene.shapes, scene.HasMaterial shape.material)
      (hMaterials : ∀ entry ∈ scene.materials.entries, ¬entry.2.Squareless)
      (hStated : scene.StatesDistance distance)
      (hBad : distance ≤ 0.0) : FirstViolation scene (.invalidParameter (.cameraDistance distance))
  | aspectRatio {ratio : Float}
      (hShapes : ∀ shape ∈ scene.shapes, scene.HasMaterial shape.material)
      (hMaterials : ∀ entry ∈ scene.materials.entries, ¬entry.2.Squareless)
      (hDistance : ∀ distance, scene.StatesDistance distance → ¬distance ≤ 0.0)
      (hStated : scene.StatesAspectRatio ratio)
      (hBad : ratio ≤ 0.0) : FirstViolation scene (.invalidParameter (.cameraAspectRatio ratio))

end SceneDescription

/-- The check finds out whether a pigment is a chessboard without squares. -/
theorem PigmentDescription.isEmptyBoard_iff (pigment : PigmentDescription) :
    pigment.isEmptyBoard = true ↔ pigment.Squareless := by
  cases pigment with
  | uniform color => simp [isEmptyBoard, Squareless]
  | checkered first second steps => simp [isEmptyBoard, Squareless]
  | imageFile name => simp [isEmptyBoard, Squareless]

theorem MaterialDescription.hasEmptyBoard_iff (material : MaterialDescription) :
    material.hasEmptyBoard = true ↔ material.Squareless := by
  rw [hasEmptyBoard, Bool.or_eq_true, PigmentDescription.isEmptyBoard_iff, PigmentDescription.isEmptyBoard_iff,
    Squareless]

namespace SceneDescription

variable {scene : SceneDescription}

/-- A name is not found when no material has it. -/
theorem isNone_material?_iff (name : String) : (scene.material? name).isNone = true ↔ ¬scene.HasMaterial name := by
  rw [Option.isNone_iff_eq_none, material?, NameTable.find?, List.lookup_eq_none_iff, HasMaterial]
  push Not
  exact forall₂_congr fun entry _ => bne_iff_ne.trans ne_comm

/-- The search finds nothing when every shape has its material. -/
theorem strayMaterial?_eq_none_iff :
    scene.strayMaterial? = none ↔ ∀ shape ∈ scene.shapes, scene.HasMaterial shape.material := by
  simp only [strayMaterial?, Option.map_eq_none_iff, List.find?_eq_none, isNone_material?_iff, not_not]

/-- What the search finds is the material of the first shape that has none. -/
theorem strayMaterial?_eq_some_iff {name : String} :
    scene.strayMaterial? = some name ↔ ∃ before shape after, scene.shapes = before ++ shape :: after ∧
      (∀ earlier ∈ before, scene.HasMaterial earlier.material) ∧ ¬scene.HasMaterial shape.material ∧
        shape.material = name := by
  have hKnown (other : ShapeDescription) :
      (!(scene.material? other.material).isNone) = true ↔ scene.HasMaterial other.material := by
    rw [Bool.not_eq_true', ← Bool.not_eq_true, isNone_material?_iff, not_not]
  simp only [strayMaterial?, Option.map_eq_some_iff, List.find?_eq_some_iff_append, isNone_material?_iff, hKnown]
  constructor
  · rintro ⟨shape, ⟨hStray, before, after, hShapes, hBefore⟩, hName⟩
    exact ⟨before, shape, after, hShapes, hBefore, hStray, hName⟩
  · rintro ⟨before, shape, after, hShapes, hBefore, hStray, hName⟩
    exact ⟨shape, ⟨hStray, before, after, hShapes, hBefore⟩, hName⟩

theorem emptyBoard?_eq_none_iff :
    scene.emptyBoard? = none ↔ ∀ entry ∈ scene.materials.entries, ¬entry.2.Squareless := by
  simp only [emptyBoard?, Option.map_eq_none_iff, List.find?_eq_none, MaterialDescription.hasEmptyBoard_iff]

/-- The first entry in the list is the first by name, since the names ascend. -/
theorem emptyBoard?_eq_some_iff {name : String} :
    scene.emptyBoard? = some name ↔ ∃ entry ∈ scene.materials.entries,
      (∀ other ∈ scene.materials.entries, other.1 < entry.1 → ¬other.2.Squareless) ∧ entry.2.Squareless ∧
        entry.1 = name := by
  have hFull (entry : String × MaterialDescription) : (!entry.2.hasEmptyBoard) = true ↔ ¬entry.2.Squareless := by
    rw [Bool.not_eq_true', ← Bool.not_eq_true, MaterialDescription.hasEmptyBoard_iff]
  simp only [emptyBoard?, Option.map_eq_some_iff, List.find?_eq_some_iff_append,
    MaterialDescription.hasEmptyBoard_iff, hFull]
  have hNames := scene.materials.ascending
  constructor
  · rintro ⟨entry, ⟨hSquareless, before, after, hMaterials, hBefore⟩, hName⟩
    rw [hMaterials, List.pairwise_append, List.pairwise_cons] at hNames
    rw [hMaterials]
    refine ⟨entry, List.mem_append_right before List.mem_cons_self, fun other hOther hLess => ?_, hSquareless, hName⟩
    rcases List.mem_append.mp hOther with hEarlier | hOther
    · exact hBefore other hEarlier
    · rcases List.mem_cons.mp hOther with rfl | hLater
      · exact absurd hLess (lt_irrefl _)
      · exact absurd hLess (hNames.2.1.1 other hLater).asymm
  · rintro ⟨entry, hEntry, hFirst, hSquareless, hName⟩
    obtain ⟨before, after, hMaterials⟩ := List.append_of_mem hEntry
    rw [hMaterials, List.pairwise_append] at hNames
    refine ⟨entry, ⟨hSquareless, before, after, hMaterials, fun earlier hEarlier => ?_⟩, hName⟩
    refine hFirst earlier ?_ (hNames.2.2 earlier hEarlier entry List.mem_cons_self)
    rw [hMaterials]
    exact List.mem_append_left _ hEarlier

/-- A distance is bad when it is stated and not positive, as far as it is a number. -/
theorem badDistance?_eq_some_iff {distance : Float} :
    scene.camera.bind CameraDescription.badDistance? = some distance ↔
      scene.StatesDistance distance ∧ distance ≤ 0.0 := by
  simp only [Option.bind_eq_some_iff, StatesDistance, ← exists_and_right, and_assoc]
  refine exists_congr fun camera => and_congr_right fun _ => ?_
  unfold CameraDescription.badDistance?
  cases camera.projection with
  | orthogonal => simp
  | perspective stated =>
      rw [Option.ite_none_right_eq_some, Option.some_inj, Projection.perspective.injEq, and_comm]
      exact and_congr_right fun hSame => by rw [hSame]

theorem badAspectRatio?_eq_some_iff {ratio : Float} :
    scene.camera.bind CameraDescription.badAspectRatio? = some ratio ↔
      scene.StatesAspectRatio ratio ∧ ratio ≤ 0.0 := by
  simp only [Option.bind_eq_some_iff, StatesAspectRatio, ← exists_and_right, and_assoc]
  refine exists_congr fun camera => and_congr_right fun _ => ?_
  unfold CameraDescription.badAspectRatio?
  cases camera.aspectRatio with
  | none => simp
  | some stated =>
      rw [Option.ite_none_right_eq_some, Option.some_inj, and_comm]
      exact and_congr_right fun hSame => by rw [hSame]

theorem badDistance?_eq_none_iff :
    scene.camera.bind CameraDescription.badDistance? = none ↔
      ∀ distance, scene.StatesDistance distance → ¬distance ≤ 0.0 := by
  simp only [Option.eq_none_iff_forall_ne_some, ne_eq, badDistance?_eq_some_iff, not_and]

theorem badAspectRatio?_eq_none_iff :
    scene.camera.bind CameraDescription.badAspectRatio? = none ↔
      ∀ ratio, scene.StatesAspectRatio ratio → ¬ratio ≤ 0.0 := by
  simp only [Option.eq_none_iff_forall_ne_some, ne_eq, badAspectRatio?_eq_some_iff, not_and]

/-- Validation accepts what is usable. -/
theorem validate_eq_ok_iff : scene.validate = .ok () ↔ scene.Usable := by
  constructor
  · intro h
    unfold validate at h
    split at h
    case h_5 hStray hBoard hDistance hRatio =>
      exact ⟨strayMaterial?_eq_none_iff.mp hStray, emptyBoard?_eq_none_iff.mp hBoard,
        badDistance?_eq_none_iff.mp hDistance, badAspectRatio?_eq_none_iff.mp hRatio⟩
    all_goals cases h
  · intro h
    unfold validate
    rw [strayMaterial?_eq_none_iff.mpr h.shapes, emptyBoard?_eq_none_iff.mpr h.materials,
      badDistance?_eq_none_iff.mpr h.distance, badAspectRatio?_eq_none_iff.mpr h.aspectRatio]

/-- Validation reports the first violation. -/
theorem validate_eq_error_iff {error : SceneError} :
    scene.validate = .error error ↔ scene.FirstViolation error := by
  constructor
  · intro h
    unfold validate at h
    split at h
    case h_1 hStray =>
      cases h
      obtain ⟨before, shape, after, hShapes, hBefore, hUnknown, rfl⟩ := strayMaterial?_eq_some_iff.mp hStray
      exact .strayMaterial hShapes hBefore hUnknown
    case h_2 hStray hBoard =>
      cases h
      obtain ⟨entry, hEntry, hBefore, hSquareless, rfl⟩ := emptyBoard?_eq_some_iff.mp hBoard
      exact .squareless (strayMaterial?_eq_none_iff.mp hStray) hEntry hBefore hSquareless
    case h_3 hStray hBoard hDistance =>
      cases h
      obtain ⟨hStated, hBad⟩ := badDistance?_eq_some_iff.mp hDistance
      exact .distance (strayMaterial?_eq_none_iff.mp hStray) (emptyBoard?_eq_none_iff.mp hBoard) hStated hBad
    case h_4 hStray hBoard hDistance hRatio =>
      cases h
      obtain ⟨hStated, hBad⟩ := badAspectRatio?_eq_some_iff.mp hRatio
      exact .aspectRatio (strayMaterial?_eq_none_iff.mp hStray) (emptyBoard?_eq_none_iff.mp hBoard)
        (badDistance?_eq_none_iff.mp hDistance) hStated hBad
    case h_5 => cases h
  · intro h
    unfold validate
    cases h with
    | strayMaterial hShapes hBefore hStray =>
        rw [strayMaterial?_eq_some_iff.mpr ⟨_, _, _, hShapes, hBefore, hStray, rfl⟩]
    | squareless hShapes hEntry hBefore hSquareless =>
        rw [strayMaterial?_eq_none_iff.mpr hShapes,
          emptyBoard?_eq_some_iff.mpr ⟨_, hEntry, hBefore, hSquareless, rfl⟩]
    | distance hShapes hMaterials hStated hBad =>
        rw [strayMaterial?_eq_none_iff.mpr hShapes, emptyBoard?_eq_none_iff.mpr hMaterials,
          badDistance?_eq_some_iff.mpr ⟨hStated, hBad⟩]
    | aspectRatio hShapes hMaterials hDistance hStated hBad =>
        rw [strayMaterial?_eq_none_iff.mpr hShapes, emptyBoard?_eq_none_iff.mpr hMaterials,
          badDistance?_eq_none_iff.mpr hDistance, badAspectRatio?_eq_some_iff.mpr ⟨hStated, hBad⟩]

/-- A text is read when it states a description that is valid. -/
theorem readValid_eq_ok_iff {text : List Char} :
    readValid text = .ok scene ↔ read text = .ok scene ∧ scene.validate = .ok () := by
  unfold readValid
  simp only [bind_eq_ok_iff, pure_eq_ok_iff]
  constructor
  · rintro ⟨_, hRead, ⟨⟩, hValid, rfl⟩
    exact ⟨hRead, hValid⟩
  · rintro ⟨hRead, hValid⟩
    exact ⟨scene, hRead, (), hValid, rfl⟩

/-- A text is not read when it states no description or one that is not valid. -/
theorem readValid_eq_error_iff {text : List Char} {error : SceneError} :
    readValid text = .error error ↔
      read text = .error error ∨ ∃ scene, read text = .ok scene ∧ scene.validate = .error error := by
  unfold readValid
  rw [bind_eq_error_iff]
  refine or_congr_right (exists_congr fun scene => and_congr_right fun _ => ?_)
  rw [bind_eq_error_iff, or_iff_left_iff_imp]
  rintro ⟨_, -, hReturned⟩
  cases hReturned

/-- Validation accepts the usable descriptions and no others, and of every other one it reports the first violation:
the first shape without a material, or else the first material with a chessboard without squares, or else the distance
of the camera, or else its aspect ratio. A description that has been read from a text is usable, and what keeps a text
that states a description from being read is the first violation. -/
theorem validate_reports_first (scene : SceneDescription) :
    (scene.validate = .ok () ↔ scene.Usable) ∧
      (∀ error, scene.validate = .error error ↔ scene.FirstViolation error) ∧
      ∀ text, (readValid text = .ok scene → scene.validate = .ok ()) ∧
        (read text = .ok scene → ∀ error, readValid text = .error error ↔ scene.FirstViolation error) := by
  refine ⟨validate_eq_ok_iff, fun error => validate_eq_error_iff, fun text => ⟨?_, ?_⟩⟩
  · intro hText
    exact (readValid_eq_ok_iff.mp hText).2
  · intro hRead error
    rw [readValid_eq_error_iff, hRead, ← validate_eq_error_iff]
    constructor
    · rintro (hUnread | ⟨_, hSame, hError⟩)
      · cases hUnread
      · cases hSame
        exact hError
    · exact fun hError => Or.inr ⟨scene, rfl, hError⟩

/-- A room with a floor of no squares, in which the second shape has no material. -/
def unfinishedRoom : SceneDescription where
  camera := none
  materials :=
    { entries := [("chalk", ⟨.diffuse (.uniform .black) 1.0, .uniform .black⟩),
        ("tiles", ⟨.diffuse (.checkered .black .black 0) 1.0, .uniform .black⟩)]
      ascending := List.pairwise_pair.mpr (by decide) }
  shapes := [⟨.plane, "tiles", []⟩, ⟨.sphere, "marble", []⟩]
  lights := []
  background := .black

/-- The same room with nothing in it. -/
def clearedRoom : SceneDescription := { unfinishedRoom with shapes := [] }

/-- Of the room the missing material is reported, and without its shapes the floor. An empty object states a
description that is usable. -/
theorem validate_reports_first_rooms :
    unfinishedRoom.validate = .error (.undefinedMaterial "marble") ∧
      clearedRoom.validate = .error (.invalidParameter (.zeroSteps "tiles")) ∧
      ∃ scene, readValid ['\x7b', '\x7d'] = .ok scene ∧ scene.validate = .ok () := by
  have hUnknown : ¬unfinishedRoom.HasMaterial "marble" := by
    simp [HasMaterial, unfinishedRoom]
  have hChalk : ¬(⟨.diffuse (.uniform .black) 1.0, .uniform .black⟩ : MaterialDescription).Squareless := by
    simp [MaterialDescription.Squareless, PigmentDescription.Squareless, ReflectionDescription.pigment]
  refine ⟨((validate_reports_first unfinishedRoom).2.1 _).mpr ?_,
    ((validate_reports_first clearedRoom).2.1 _).mpr ?_, _, rfl,
    ((validate_reports_first _).2.2 ['\x7b', '\x7d']).1 rfl⟩
  · have hShapes : unfinishedRoom.shapes =
        [⟨.plane, "tiles", []⟩] ++ (⟨.sphere, "marble", []⟩ : ShapeDescription) :: [] := rfl
    have hTiles : unfinishedRoom.HasMaterial "tiles" := ⟨_, List.mem_cons_of_mem _ List.mem_cons_self, rfl⟩
    exact .strayMaterial hShapes (List.forall_mem_singleton.mpr hTiles) hUnknown
  · have hTiles : ("tiles", ⟨.diffuse (.checkered .black .black 0) 1.0, .uniform .black⟩) ∈
        clearedRoom.materials.entries := List.mem_cons_of_mem _ List.mem_cons_self
    refine .squareless (List.forall_mem_nil _) hTiles ?_ (Or.inl ⟨_, _, rfl⟩)
    refine List.forall_mem_cons.mpr ⟨fun _ => hChalk, List.forall_mem_singleton.mpr fun hLess => ?_⟩
    exact absurd hLess (lt_irrefl _)

end SceneDescription

end RayTracer
