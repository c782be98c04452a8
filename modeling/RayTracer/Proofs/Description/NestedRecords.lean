import Mathlib
import RayTracer.Proofs.Description.Records

/-! The records of a description and how they stand in each other. Readers are nested as the records are, so a document
is read only if every record in it is. -/

namespace RayTracer

open Json

/-- The records of a description. What is diffuse or specular and a chessboard are the bodies of alternatives, and a
camera of one kind has a field less. -/
inductive RecordKind where
  | scene
  | camera
  | orthogonal
  | material
  | diffuse
  | specular
  | chessboard
  | shape
  | light

namespace RecordKind

def fields : RecordKind → List String
  | scene => ["camera", "materials", "shapes", "lights", "background"]
  | camera => ["type", "aspect_ratio", "distance", "transformation"]
  | orthogonal => ["type", "aspect_ratio", "transformation"]
  | material => ["brdf", "emitted_radiance"]
  | diffuse => ["pigment", "reflectance"]
  | specular => ["pigment", "threshold_angle_rad"]
  | chessboard => ["color1", "color2", "steps"]
  | shape => ["material", "transformation"]
  | light => ["position", "color", "linear_radius"]

/-- Whether a record can be read. A body is read as that of its alternative. -/
def Readable : RecordKind → Json → Prop
  | scene, record => ∃ result, SceneDescription.ofJson? record = some result
  | camera, record => ∃ result, CameraDescription.ofJson? record = some result
  | orthogonal, record => (∃ members, record = .object members ∧ (some "type", .string (some "orthogonal")) ∈ members) ∧
      ∃ result, CameraDescription.ofJson? record = some result
  | material, record => ∃ result, MaterialDescription.ofJson? record = some result
  | diffuse, body => ∃ result, ReflectionDescription.ofJson? (.object [(some "diffuse", body)]) = some result
  | specular, body => ∃ result, ReflectionDescription.ofJson? (.object [(some "specular", body)]) = some result
  | chessboard, body => ∃ result, PigmentDescription.ofJson? (.object [(some "checkered", body)]) = some result
  | shape, body => ∃ name result, ShapeDescription.ofJson? (.object [(some name, body)]) = some result
  | light, record => ∃ result, PointLight.ofJson? record = some result

/-- Whether a record stands directly in another one. The alternatives of a choice are members of an object. -/
inductive Holds : RecordKind → Json → RecordKind → Json → Prop
  | camera {document record : Json} (hField : FieldOf scene.fields "camera" record document)
      (hStated : record ≠ .null) : Holds scene document camera record
  | orthogonal {members : List (Option String × Json)}
      (hType : (some "type", .string (some "orthogonal")) ∈ members) :
      Holds camera (.object members) orthogonal (.object members)
  | material {document record : Json} {name : Option String} {members : List (Option String × Json)}
      (hField : FieldOf scene.fields "materials" (.object members) document) (hMember : (name, record) ∈ members) :
      Holds scene document material record
  | shape {document choice body : Json} {items : List Json} {name : String}
      (hField : FieldOf scene.fields "shapes" (.array items) document) (hItem : choice ∈ items)
      (hBody : FieldOf [] name body choice) : Holds scene document shape body
  | light {document record : Json} {items : List Json}
      (hField : FieldOf scene.fields "lights" (.array items) document) (hItem : record ∈ items) :
      Holds scene document light record
  | diffuse {record choice body : Json} (hField : FieldOf material.fields "brdf" choice record)
      (hBody : FieldOf [] "diffuse" body choice) : Holds material record diffuse body
  | specular {record choice body : Json} (hField : FieldOf material.fields "brdf" choice record)
      (hBody : FieldOf [] "specular" body choice) : Holds material record specular body
  | emitted {record choice body : Json} (hField : FieldOf material.fields "emitted_radiance" choice record)
      (hBody : FieldOf [] "checkered" body choice) : Holds material record chessboard body
  | diffused {record choice body : Json} (hField : FieldOf diffuse.fields "pigment" choice record)
      (hBody : FieldOf [] "checkered" body choice) : Holds diffuse record chessboard body
  | mirrored {record choice body : Json} (hField : FieldOf specular.fields "pigment" choice record)
      (hBody : FieldOf [] "checkered" body choice) : Holds specular record chessboard body

/-- Whether a record stands somewhere in a document. -/
inductive StandsIn (document : Json) : RecordKind → Json → Prop
  | whole : StandsIn document scene document
  | inside {kind inner : RecordKind} {record body : Json} (hRecord : StandsIn document kind record)
      (hBody : Holds kind record inner body) : StandsIn document inner body

/-- No record has two fields of one name. -/
theorem fields_nodup (kind : RecordKind) : kind.fields.Nodup := by
  cases kind <;> decide

end RecordKind

namespace Json

theorem nullable_of_ne_null {β : Type} {read : Json → Option β} {value : Json} (h : value ≠ .null) :
    nullable read value = (read value).map some := by
  cases value with
  | null => exact absurd rfl h
  | _ => rfl

/-- A list is read only if each of its items is. -/
theorem exists_of_list? {β : Type} {read : Json → Option β} {items : List Json} {results : List β} {item : Json}
    (h : list? read (.array items) = some results) (hItem : item ∈ items) : ∃ result, read item = some result := by
  obtain ⟨i, hPlace⟩ := List.mem_iff_getElem?.mp hItem
  obtain ⟨result, hResult, -⟩ := getElem?_of_mapM h hPlace
  exact ⟨result, hResult⟩

end Json

/-- A table is read only if each of its materials is, also where a later one takes the place of another. -/
theorem exists_of_materialTable? {members : List (Option String × Json)} {table : NameTable MaterialDescription}
    (h : materialTable? (.object members) = some table) {name : Option String} {record : Json}
    (hMember : (name, record) ∈ members) : ∃ result, MaterialDescription.ofJson? record = some result := by
  unfold materialTable? at h
  dsimp only at h
  generalize (NameTable.empty : NameTable MaterialDescription) = filled at h
  induction members generalizing filled with
  | nil => cases hMember
  | cons first members ih =>
      rw [List.foldlM_cons] at h
      obtain ⟨next, hNext, hRest⟩ := Option.bind_eq_some_iff.mp h
      rcases List.mem_cons.mp hMember with rfl | hLater
      · obtain ⟨_, -, hNext⟩ := Option.bind_eq_some_iff.mp hNext
        obtain ⟨result, hResult, -⟩ := Option.bind_eq_some_iff.mp hNext
        exact ⟨result, hResult⟩
      · exact ih hLater next hRest

open RecordKind in
/-- A scene that is read has its five fields and no others. -/
theorem SceneDescription.fields_of_ofJson? {value : Json} {result : SceneDescription}
    (h : ofJson? value = some result) :
    ∃ cameraPart materials shapes lights background,
      fields? .refused scene.fields value = some [cameraPart, materials, shapes, lights, background] ∧
        optional none (nullable CameraDescription.ofJson?) cameraPart = some result.camera ∧
        optional .empty materialTable? materials = some result.materials ∧
        optional [] (list? ShapeDescription.ofJson?) shapes = some result.shapes ∧
        optional [] (list? PointLight.ofJson?) lights = some result.lights := by
  unfold ofJson? at h
  obtain ⟨values, hFields, h⟩ := Option.bind_eq_some_iff.mp h
  split at h
  next cameraPart materials shapes lights background =>
    obtain ⟨_, hCamera, h⟩ := Option.bind_eq_some_iff.mp h
    obtain ⟨_, hMaterials, h⟩ := Option.bind_eq_some_iff.mp h
    obtain ⟨_, hShapes, h⟩ := Option.bind_eq_some_iff.mp h
    obtain ⟨_, hLights, h⟩ := Option.bind_eq_some_iff.mp h
    obtain ⟨_, -, h⟩ := Option.bind_eq_some_iff.mp h
    obtain rfl := Option.some.inj h
    exact ⟨_, _, _, _, _, hFields, hCamera, hMaterials, hShapes, hLights⟩
  next => cases h

open RecordKind in
/-- A material that is read has its two fields and no others. -/
theorem MaterialDescription.fields_of_ofJson? {value : Json} {result : MaterialDescription}
    (h : ofJson? value = some result) :
    ∃ reflection emission, fields? .refused material.fields value = some [reflection, emission] ∧
      required ReflectionDescription.ofJson? reflection = some result.reflection ∧
      optional (.uniform Color.black) PigmentDescription.ofJson? emission = some result.emission := by
  unfold ofJson? at h
  obtain ⟨values, hFields, h⟩ := Option.bind_eq_some_iff.mp h
  split at h
  next =>
    obtain ⟨_, hReflection, h⟩ := Option.bind_eq_some_iff.mp h
    obtain ⟨_, hEmission, h⟩ := Option.bind_eq_some_iff.mp h
    obtain rfl := Option.some.inj h
    exact ⟨_, _, hFields, hReflection, hEmission⟩
  next => cases h

/-- The body of a reflection that is read has its two fields, and maybe others that are ignored. -/
theorem ReflectionDescription.fields_of_ofJson? {name : String} {kind : RecordKind}
    (hKind : (name, kind) ∈ [("diffuse", RecordKind.diffuse), ("specular", RecordKind.specular)]) {body : Json}
    {result : ReflectionDescription} (h : ofJson? (.object [(some name, body)]) = some result) :
    ∃ pigment other, fields? .ignored kind.fields body = some [pigment, other] ∧
      required PigmentDescription.ofJson? pigment = some result.pigment := by
  unfold ofJson? at h
  obtain ⟨chosen, hChosen, h⟩ := Option.bind_eq_some_iff.mp h
  obtain rfl := Option.some.inj hChosen
  rcases List.mem_pair.mp hKind with hKind | hKind
  all_goals
    cases hKind
    obtain ⟨values, hFields, h⟩ := Option.bind_eq_some_iff.mp h
    split at h
    next =>
      obtain ⟨_, hPigment, h⟩ := Option.bind_eq_some_iff.mp h
      obtain ⟨_, -, h⟩ := Option.bind_eq_some_iff.mp h
      obtain rfl := Option.some.inj h
      exact ⟨_, _, hFields, hPigment⟩
    next => cases h

theorem ShapeDescription.fields_of_ofJson? {name : String} {body : Json} {result : ShapeDescription}
    (h : ofJson? (.object [(some name, body)]) = some result) :
    ∃ values, fields? .refused RecordKind.shape.fields body = some values := by
  cases hFields : fields? .refused RecordKind.shape.fields body with
  | some values => exact ⟨values, rfl⟩
  | none =>
      rw [RecordKind.fields] at hFields
      simp only [ofJson?, choice?, Option.bind_eq_bind, Option.bind_some, hFields, Option.bind_none] at h
      split at h <;> cases h

theorem PointLight.fields_of_ofJson? {value : Json} {result : PointLight Float} (h : ofJson? value = some result) :
    ∃ values, fields? .refused RecordKind.light.fields value = some values := by
  obtain ⟨values, hFields, -⟩ := Option.bind_eq_some_iff.mp h
  exact ⟨values, hFields⟩

/-- The kind of a camera is a member like the others, and what is left has the fields of its kind. -/
theorem CameraDescription.fields_of_ofJson? {members : List (Option String × Json)} {result : CameraDescription}
    (h : ofJson? (.object members) = some result) :
    ∃ kind names values, membersNamed "type" members = [.string (some kind)] ∧
      (kind, names) ∈ [("orthogonal", ["aspect_ratio", "transformation"]),
        ("perspective", ["aspect_ratio", "distance", "transformation"])] ∧
      fields? .refused names (.object (members.filter fun member => member.1 != some "type")) = some values := by
  unfold ofJson? at h
  obtain ⟨⟨kind, content⟩, hKind, h⟩ := Option.bind_eq_some_iff.mp h
  have hMembers : membersNamed "type" members = [.string (some kind)] ∧
      content = .object (members.filter fun member => member.1 != some "type") := by
    unfold cameraKind? at hKind
    dsimp only at hKind
    split at hKind
    next stated hStated =>
      obtain ⟨name, hName, hKind⟩ := Option.bind_eq_some_iff.mp hKind
      cases hKind
      unfold text? at hName
      split at hName
      next => exact ⟨by rw [hStated, hName], rfl⟩
      next => cases hName
    next => cases hKind
  obtain ⟨hStated, rfl⟩ := hMembers
  dsimp only at h
  split at h
  next =>
    obtain ⟨values, hFields, -⟩ := Option.bind_eq_some_iff.mp h
    exact ⟨_, _, values, hStated, List.mem_cons_self, hFields⟩
  next =>
    obtain ⟨values, hFields, -⟩ := Option.bind_eq_some_iff.mp h
    exact ⟨_, _, values, hStated, List.mem_cons_of_mem _ List.mem_cons_self, hFields⟩
  next => cases h

namespace RecordKind

variable {kind inner : RecordKind} {document record body : Json}

/-- A record is read only if each record that stands directly in it is. -/
theorem Readable.inside (h : kind.Readable record) (hHolds : Holds kind record inner body) : inner.Readable body := by
  cases hHolds with
  | camera hField hStated =>
      obtain ⟨_, hRead⟩ := h
      obtain ⟨_, _, _, _, _, hFields, hCamera, -⟩ := SceneDescription.fields_of_ofJson? hRead
      obtain rfl := eq_of_fieldOf hFields hField 0 (fields_nodup scene) rfl rfl
      obtain ⟨result, hResult, -⟩ := Option.map_eq_some_iff.mp ((nullable_of_ne_null hStated).symm.trans hCamera)
      exact ⟨result, hResult⟩
  | orthogonal hType => exact ⟨⟨_, rfl, hType⟩, h⟩
  | material hField hMember =>
      obtain ⟨_, hRead⟩ := h
      obtain ⟨_, _, _, _, _, hFields, -, hMaterials, -⟩ := SceneDescription.fields_of_ofJson? hRead
      obtain rfl := eq_of_fieldOf hFields hField 1 (fields_nodup scene) rfl rfl
      exact exists_of_materialTable? hMaterials hMember
  | shape hField hItem hBody =>
      obtain ⟨_, hRead⟩ := h
      obtain ⟨_, _, _, _, _, hFields, -, -, hShapes, -⟩ := SceneDescription.fields_of_ofJson? hRead
      obtain rfl := eq_of_fieldOf hFields hField 2 (fields_nodup scene) rfl rfl
      obtain ⟨_, hShape⟩ := exists_of_list? hShapes hItem
      obtain rfl := eq_of_choice?_bind hShape hBody
      exact ⟨_, _, hShape⟩
  | light hField hItem =>
      obtain ⟨_, hRead⟩ := h
      obtain ⟨_, _, _, _, _, hFields, -, -, -, hLights⟩ := SceneDescription.fields_of_ofJson? hRead
      obtain rfl := eq_of_fieldOf hFields hField 3 (fields_nodup scene) rfl rfl
      exact exists_of_list? hLights hItem
  | diffuse hField hBody =>
      obtain ⟨_, hRead⟩ := h
      obtain ⟨_, _, hFields, hReflection, -⟩ := MaterialDescription.fields_of_ofJson? hRead
      obtain rfl := eq_of_fieldOf hFields hField 0 (fields_nodup material) rfl rfl
      obtain rfl := eq_of_choice?_bind hReflection hBody
      exact ⟨_, hReflection⟩
  | specular hField hBody =>
      obtain ⟨_, hRead⟩ := h
      obtain ⟨_, _, hFields, hReflection, -⟩ := MaterialDescription.fields_of_ofJson? hRead
      obtain rfl := eq_of_fieldOf hFields hField 0 (fields_nodup material) rfl rfl
      obtain rfl := eq_of_choice?_bind hReflection hBody
      exact ⟨_, hReflection⟩
  | emitted hField hBody =>
      obtain ⟨_, hRead⟩ := h
      obtain ⟨_, _, hFields, -, hEmission⟩ := MaterialDescription.fields_of_ofJson? hRead
      obtain rfl := eq_of_fieldOf hFields hField 1 (fields_nodup material) rfl rfl
      obtain rfl := eq_of_choice?_bind hEmission hBody
      exact ⟨_, hEmission⟩
  | diffused hField hBody =>
      obtain ⟨_, hRead⟩ := h
      obtain ⟨_, _, hFields, hPigment⟩ := ReflectionDescription.fields_of_ofJson? List.mem_cons_self hRead
      obtain rfl := eq_of_fieldOf hFields hField 0 (fields_nodup _) rfl rfl
      obtain rfl := eq_of_choice?_bind hPigment hBody
      exact ⟨_, hPigment⟩
  | mirrored hField hBody =>
      obtain ⟨_, hRead⟩ := h
      obtain ⟨_, _, hFields, hPigment⟩ :=
        ReflectionDescription.fields_of_ofJson? (List.mem_cons_of_mem _ List.mem_cons_self) hRead
      obtain rfl := eq_of_fieldOf hFields hField 0 (fields_nodup _) rfl rfl
      obtain rfl := eq_of_choice?_bind hPigment hBody
      exact ⟨_, hPigment⟩

/-- In a document that is read every record can be read. -/
theorem StandsIn.readable (h : StandsIn document kind record) (hDocument : scene.Readable document) :
    kind.Readable record := by
  induction h with
  | whole => exact hDocument
  | inside _ hBody ih => exact ih.inside hBody

end RecordKind

end RayTracer
