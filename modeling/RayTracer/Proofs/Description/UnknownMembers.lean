import Mathlib
import RayTracer.Proofs.Description.NestedRecords

/-! Members of a description that are no fields. Most records are not read with a member that they do not know.
Chessboards and the bodies of reflections are: there such a member is passed over, also where it is the misspelt name
of a field that may be left out, which is then given its default. -/

namespace RayTracer

open Json

/-- Whether members that are no fields are passed over. -/
def RecordKind.unknown : RecordKind → UnknownFields
  | diffuse | specular | chessboard => .ignored
  | _ => .refused

/-- A camera of either kind has no strays. -/
theorem CameraDescription.not_hasStray {record : Json} {result : CameraDescription} (h : ofJson? record = some result) :
    ¬record.HasStray RecordKind.camera.fields := by
  rintro ⟨members, rfl, hStray⟩
  obtain ⟨kind, names, values, -, hNames, hFields⟩ := fields_of_ofJson? h
  have hOthers : names ⊆ ["aspect_ratio", "distance", "transformation"] := by
    rcases List.mem_pair.mp hNames with hNames | hNames <;> cases hNames <;> decide
  have hLeft : (Json.object members).HasStray RecordKind.camera.fields := ⟨members, rfl, hStray⟩
  exact not_hasStray_of_fields? hFields (hLeft.filter.of_subset hOthers)

/-- A camera without perspective has no distance either. -/
theorem CameraDescription.not_hasStray_orthogonal {members : List (Option String × Json)} {result : CameraDescription}
    (h : ofJson? (.object members) = some result) (hType : (some "type", .string (some "orthogonal")) ∈ members) :
    ¬(Json.object members).HasStray RecordKind.orthogonal.fields := by
  intro hStray
  obtain ⟨kind, names, values, hStated, hNames, hFields⟩ := fields_of_ofJson? h
  -- The kind is stated only once, so there is no other to be read.
  cases List.mem_singleton.mp (hStated ▸ mem_membersNamed hType)
  obtain hNames | hNames := List.mem_pair.mp hNames
  · cases hNames
    exact not_hasStray_of_fields? hFields hStray.filter
  · have hSame : "orthogonal" = "perspective" := congrArg Prod.fst hNames
    exact absurd hSame (by decide)

/-- A record that refuses unknown members has none when it is read. -/
theorem RecordKind.Readable.not_hasStray {kind : RecordKind} {record : Json} (h : kind.Readable record)
    (hStrict : kind.unknown = .refused) : ¬record.HasStray kind.fields := by
  cases kind with
  | scene =>
      obtain ⟨_, hRead⟩ := h
      obtain ⟨_, _, _, _, _, hFields, -⟩ := SceneDescription.fields_of_ofJson? hRead
      exact not_hasStray_of_fields? hFields
  | camera =>
      obtain ⟨_, hRead⟩ := h
      exact CameraDescription.not_hasStray hRead
  | orthogonal =>
      obtain ⟨⟨members, rfl, hType⟩, _, hRead⟩ := h
      exact CameraDescription.not_hasStray_orthogonal hRead hType
  | material =>
      obtain ⟨_, hRead⟩ := h
      obtain ⟨_, _, hFields, -⟩ := MaterialDescription.fields_of_ofJson? hRead
      exact not_hasStray_of_fields? hFields
  | shape =>
      obtain ⟨_, _, hRead⟩ := h
      obtain ⟨_, hFields⟩ := ShapeDescription.fields_of_ofJson? hRead
      exact not_hasStray_of_fields? hFields
  | light =>
      obtain ⟨_, hRead⟩ := h
      obtain ⟨_, hFields⟩ := PointLight.fields_of_ofJson? hRead
      exact not_hasStray_of_fields? hFields
  | diffuse | specular | chessboard => cases hStrict

namespace Json

/-- A pigment without the unknown members of a chessboard. -/
def cleanedPigment : Json → Json :=
  updateField [] "checkered" (withoutStrays RecordKind.chessboard.fields)

/-- The body of a reflection without unknown members, also in its pigment. -/
def cleanedBody (kind : RecordKind) (body : Json) : Json :=
  (body.withoutStrays kind.fields).updateField kind.fields "pigment" cleanedPigment

def cleanedReflection (choice : Json) : Json :=
  (choice.updateField [] "diffuse" (cleanedBody .diffuse)).updateField [] "specular" (cleanedBody .specular)

def cleanedMaterial (record : Json) : Json :=
  (record.updateField RecordKind.material.fields "brdf" cleanedReflection).updateField RecordKind.material.fields
    "emitted_radiance" cleanedPigment

def cleanedTable : Json → Json
  | .object members => .object (members.map fun member => (member.1, cleanedMaterial member.2))
  | value => value

/-- A document without the unknown members of chessboards and of the bodies of reflections. -/
def cleaned (document : Json) : Json :=
  document.updateField RecordKind.scene.fields "materials" cleanedTable

end Json

/-- A pigment is read as it is without unknown members. -/
theorem PigmentDescription.ofJson?_cleaned (value : Json) : ofJson? value.cleanedPigment = ofJson? value := by
  unfold ofJson?
  refine choice?_bind_updateField (fun body => ?_) value
  exact congrArg (Option.bind · _) (fields?_withoutStrays RecordKind.chessboard.fields body)

/-- A reflection is read as it is without unknown members, its pigment cleaned as well. -/
theorem ReflectionDescription.ofJson?_cleaned (value : Json) : ofJson? value.cleanedReflection = ofJson? value := by
  unfold ofJson?
  -- Of a body, the pigment is cleaned last.
  refine (choice?_bind_updateField (fun body => ?_) _).trans (choice?_bind_updateField (fun body => ?_) value)
  · refine (fields?_bind_updateField (fun values hLength => ?_) _).trans
      (congrArg (Option.bind · _) (fields?_withoutStrays RecordKind.specular.fields body))
    obtain ⟨pigment, tolerance, rfl⟩ := List.length_eq_two.mp hLength
    exact congrArg (Option.bind · _) (required_map PigmentDescription.ofJson?_cleaned pigment)
  · refine (fields?_bind_updateField (fun values hLength => ?_) _).trans
      (congrArg (Option.bind · _) (fields?_withoutStrays RecordKind.diffuse.fields body))
    obtain ⟨pigment, reflectance, rfl⟩ := List.length_eq_two.mp hLength
    exact congrArg (Option.bind · _) (required_map PigmentDescription.ofJson?_cleaned pigment)

/-- A material is read as it is without the unknown members further inside. -/
theorem MaterialDescription.ofJson?_cleaned (value : Json) : ofJson? value.cleanedMaterial = ofJson? value := by
  unfold ofJson?
  refine (fields?_bind_updateField (fun values hLength => ?_) _).trans
    (fields?_bind_updateField (fun values hLength => ?_) value)
  · obtain ⟨reflection, emission, rfl⟩ := List.length_eq_two.mp hLength
    refine congrArg (Option.bind (required ReflectionDescription.ofJson? reflection)) (funext fun _ => ?_)
    exact congrArg (Option.bind · _) (optional_map PigmentDescription.ofJson?_cleaned emission)
  · obtain ⟨reflection, emission, rfl⟩ := List.length_eq_two.mp hLength
    exact congrArg (Option.bind · _) (required_map ReflectionDescription.ofJson?_cleaned reflection)

/-- A table is read as it is with all its materials cleaned. -/
theorem materialTable?_cleaned (value : Json) : materialTable? value.cleanedTable = materialTable? value := by
  cases value with
  | object members =>
      rw [cleanedTable, materialTable?, materialTable?, List.foldlM_map]
      simp only [MaterialDescription.ofJson?_cleaned]
  | _ => rfl

/-- Unknown members of chessboards and of the bodies of reflections make no difference. -/
theorem SceneDescription.ofJson?_cleaned (document : Json) : ofJson? document.cleaned = ofJson? document := by
  unfold ofJson?
  refine fields?_bind_updateField (fun values hLength => ?_) document
  match values, hLength with
  | [camera, materials, shapes, lights, background], _ =>
    refine congrArg (Option.bind (optional none (nullable CameraDescription.ofJson?) camera)) (funext fun _ => ?_)
    exact congrArg (Option.bind · _) (optional_map materialTable?_cleaned materials)

/-- A record without the unknown members of chessboards and of the bodies of reflections in it. -/
def RecordKind.cleaned : RecordKind → Json → Json
  | scene => Json.cleaned
  | material => cleanedMaterial
  | diffuse => cleanedBody diffuse
  | specular => cleanedBody specular
  | chessboard => withoutStrays chessboard.fields
  | _ => id

namespace RecordKind

variable {kind inner : RecordKind} {document record body : Json}

/-- Cleaning moves no record. -/
theorem Holds.of_cleaned (h : Holds kind (kind.cleaned record) inner body) :
    ∃ original, Holds kind record inner original ∧ body = inner.cleaned original := by
  cases kind with
  | scene =>
      cases h with
      | camera hField hStated =>
          exact ⟨body, .camera (hField.of_updateField_other (by decide)) hStated, rfl⟩
      | material hField hMember =>
          obtain ⟨table, hTable, hMembers⟩ := hField.of_updateField_same
          cases table with
          | object members =>
              cases hMembers
              obtain ⟨original, hOriginal, hSame⟩ := List.mem_map.mp hMember
              cases hSame
              exact ⟨_, .material hTable hOriginal, rfl⟩
          | _ => cases hMembers
      | shape hField hItem hBody =>
          exact ⟨body, .shape (hField.of_updateField_other (by decide)) hItem hBody, rfl⟩
      | light hField hItem =>
          exact ⟨body, .light (hField.of_updateField_other (by decide)) hItem, rfl⟩
  | camera =>
      cases h with
      | orthogonal hType => exact ⟨_, .orthogonal hType, rfl⟩
  | material =>
      cases h with
      | diffuse hField hBody =>
          obtain ⟨choice, hChoice, rfl⟩ := (hField.of_updateField_other (by decide)).of_updateField_same
          obtain ⟨original, hOriginal, hSame⟩ := (hBody.of_updateField_other (by decide)).of_updateField_same
          exact ⟨original, .diffuse hChoice hOriginal, hSame⟩
      | specular hField hBody =>
          obtain ⟨choice, hChoice, rfl⟩ := (hField.of_updateField_other (by decide)).of_updateField_same
          obtain ⟨original, hOriginal, hSame⟩ := hBody.of_updateField_same
          exact ⟨original, .specular hChoice (hOriginal.of_updateField_other (by decide)), hSame⟩
      | emitted hField hBody =>
          obtain ⟨choice, hChoice, rfl⟩ := hField.of_updateField_same
          obtain ⟨original, hOriginal, hSame⟩ := hBody.of_updateField_same
          exact ⟨original, .emitted (hChoice.of_updateField_other (by decide)) hOriginal, hSame⟩
  | diffuse =>
      cases h with
      | diffused hField hBody =>
          obtain ⟨choice, hChoice, rfl⟩ := hField.of_updateField_same
          obtain ⟨original, hOriginal, hSame⟩ := hBody.of_updateField_same
          exact ⟨original, .diffused hChoice.of_withoutStrays hOriginal, hSame⟩
  | specular =>
      cases h with
      | mirrored hField hBody =>
          obtain ⟨choice, hChoice, rfl⟩ := hField.of_updateField_same
          obtain ⟨original, hOriginal, hSame⟩ := hBody.of_updateField_same
          exact ⟨original, .mirrored hChoice.of_withoutStrays hOriginal, hSame⟩
  | orthogonal | chessboard | shape | light => cases h

/-- The records of a cleaned document are the records of the document, cleaned. -/
theorem StandsIn.of_cleaned (h : StandsIn document.cleaned kind record) :
    ∃ original, StandsIn document kind original ∧ record = kind.cleaned original := by
  induction h with
  | whole => exact ⟨document, .whole, rfl⟩
  | inside _ hBody ih =>
      obtain ⟨_, hRecord, rfl⟩ := ih
      obtain ⟨original, hOriginal, hSame⟩ := hBody.of_cleaned
      exact ⟨original, hRecord.inside hOriginal, hSame⟩

/-- What has been cleaned has nothing left to clean. -/
theorem StandsIn.withoutStrays_eq (h : StandsIn document.cleaned kind record) (hLenient : kind.unknown = .ignored) :
    record.withoutStrays kind.fields = record := by
  obtain ⟨original, -, rfl⟩ := h.of_cleaned
  cases kind with
  | diffuse | specular =>
      change (cleanedBody _ original).withoutStrays _ = cleanedBody _ original
      rw [cleanedBody, withoutStrays_updateField, withoutStrays_withoutStrays]
  | chessboard => exact withoutStrays_withoutStrays _ original
  | scene | camera | orthogonal | material | shape | light => cases hLenient

end RecordKind

namespace SceneDescription

/-- A document that is no description is malformed, though its text is in order. -/
theorem readValid_eq_malformed {text : List Char} {document : Json} (hText : Json.parse? text = some document)
    (hDocument : ofJson? document = none) : readValid text = .error .malformed := by
  have hRead : read text = .error .malformed := by rw [read, hText, Option.bind_some, hDocument]
  rw [readValid, hRead]
  rfl

/-- A text is not read if a scene, a camera, a material, the body of a shape or a light in it has a member that is no
field. Such members of chessboards and of the bodies of reflections are passed over: the document without any of them
is read as the same description. -/
theorem readValid_unknownMembers {text : List Char} {document : Json} (hText : Json.parse? text = some document) :
    (∀ kind record, kind.unknown = .refused → RecordKind.StandsIn document kind record →
        record.HasStray kind.fields → readValid text = .error .malformed) ∧
      ofJson? document.cleaned = ofJson? document ∧
      ∀ kind record, kind.unknown = .ignored → RecordKind.StandsIn document.cleaned kind record →
        record.withoutStrays kind.fields = record := by
  refine ⟨fun kind record hStrict hStands hStray => ?_, ofJson?_cleaned document,
    fun kind record hLenient hStands => hStands.withoutStrays_eq hLenient⟩
  refine readValid_eq_malformed hText (Option.eq_none_iff_forall_ne_some.mpr fun result hResult => ?_)
  exact (hStands.readable ⟨result, hResult⟩).not_hasStray hStrict hStray

/-- A misspelt list of shapes. -/
theorem readValid_unknownMembers_shape :
    ∃ document, Json.parse? "\x7b\"shape\":[]\x7d".toList = some document ∧
      document.HasStray RecordKind.scene.fields ∧
      readValid "\x7b\"shape\":[]\x7d".toList = .error .malformed := by
  have hText : Json.parse? "\x7b\"shape\":[]\x7d".toList = some (.object [(some "shape", .array [])]) := by cbv
  have hStray : (Json.object [(some "shape", .array [])]).HasStray RecordKind.scene.fields :=
    ⟨_, rfl, _, List.mem_cons_self, by decide⟩
  exact ⟨_, hText, hStray, (readValid_unknownMembers hText).1 .scene _ rfl .whole hStray⟩

/-- A material that reflects half of the light, but for a slip in the name of the field. -/
def misspeltReflectance : List Char :=
  ("\x7b\"materials\":\x7b\"chalk\":\x7b\"brdf\":\x7b\"diffuse\":" ++
    "\x7b\"pigment\":\x7b\"image\":\"chalk.pfm\"\x7d,\"reflectence\":0.5\x7d\x7d\x7d\x7d\x7d").toList

/-- The body of the reflection with the slip. -/
def misspeltBody : Json :=
  .object [(some "pigment", .object [(some "image", .string (some "chalk.pfm"))]),
    (some "reflectence", .number ⟨false, ['0'], some ['5'], none⟩)]

def misspeltDocument : Json :=
  .object [(some "materials",
    .object [(some "chalk", .object [(some "brdf", .object [(some "diffuse", misspeltBody)])])])]

/-- What is made of it: a material that reflects all of the light. -/
def misreadScene : SceneDescription where
  camera := none
  materials := NameTable.empty.set "chalk" ⟨.diffuse (.imageFile "chalk.pfm") 1.0, .uniform .black⟩
  shapes := []
  lights := []
  background := .black

/-- The slip in the name of a field is not noticed. -/
theorem readValid_misspeltReflectance :
    Json.parse? misspeltReflectance = some misspeltDocument ∧
      RecordKind.StandsIn misspeltDocument .diffuse misspeltBody ∧
      misspeltBody.HasStray RecordKind.diffuse.fields ∧
      readValid misspeltReflectance = .ok misreadScene := by
  have hText : Json.parse? misspeltReflectance = some misspeltDocument := by cbv
  have hScene : ofJson? misspeltDocument = some misreadScene := rfl
  have hStands : RecordKind.StandsIn misspeltDocument .diffuse misspeltBody :=
    .inside (.inside .whole (.material (.member List.mem_cons_self) List.mem_cons_self))
      (.diffuse (.member List.mem_cons_self) (.member List.mem_cons_self))
  have hStray : misspeltBody.HasStray RecordKind.diffuse.fields :=
    ⟨_, rfl, _, List.mem_cons_of_mem _ List.mem_cons_self, by decide⟩
  refine ⟨hText, hStands, hStray, ?_⟩
  rw [readValid, read, hText, Option.bind_some, hScene]
  rfl

end SceneDescription

end RayTracer
