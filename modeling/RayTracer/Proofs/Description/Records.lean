import Mathlib
import RayTracer.Description.Reader

/-! Records in JSON, as objects of their fields or as arrays of them in order. Reading a record gives every field the
value that stands in it. What happens to members that are no fields is settled by the record: either there may be none,
or those that have a name make no difference. Whatever is done to the value of one field is done to what is read of
that field, and to nothing else. -/

namespace RayTracer

namespace Json

/-- Whether a value stands in a field of a record: as a member of its name, or as the item in its place. -/
inductive FieldOf (names : List String) (name : String) (value : Json) : Json → Prop
  | member {members : List (Option String × Json)} (h : (some name, value) ∈ members) :
      FieldOf names name value (.object members)
  | item {items : List Json} {i : Nat} (hName : names[i]? = some name) (hItem : items[i]? = some value) :
      FieldOf names name value (.array items)

/-- Whether an object has a member that is none of some fields. -/
def HasStray (names : List String) (value : Json) : Prop :=
  ∃ members, value = .object members ∧ ∃ member ∈ members, ∀ name ∈ names, member.1 ≠ some name

/-- An object without the members that have the name of no field. A member whose name is no text stays. -/
def withoutStrays (names : List String) : Json → Json
  | .object members => .object (members.filter fun member => member.1.all names.contains)
  | value => value

/-- A member with its value replaced by what a function makes of it, if it has the name. -/
def updateMember (name : String) (f : Json → Json) (member : Option String × Json) : Option String × Json :=
  if member.1 = some name then (member.1, f member.2) else member

theorem updateMember_key (name : String) (f : Json → Json) (member : Option String × Json) :
    (updateMember name f member).1 = member.1 := by
  unfold updateMember
  split <;> rfl

/-- A record with one of its values replaced by what a function makes of it. -/
def updateField (names : List String) (name : String) (f : Json → Json) : Json → Json
  | .object members => .object (members.map (updateMember name f))
  | .array items => .array (items.mapIdx fun i item => if names[i]? = some name then f item else item)
  | value => value

/-- What the members of an object state for a field: nothing or one value, but not several. -/
def statement? (members : List (Option String × Json)) (name : String) : Option (Option Json) :=
  match membersNamed name members with
  | [] => some none
  | [value] => some (some value)
  | _ => none

/-- Whether a member may stand in a record. -/
def isReadable (unknown : UnknownFields) (names : List String) (member : Option String × Json) : Bool :=
  match member.1 with
  | none => false
  | some key => unknown == .ignored || names.contains key

/-- An object is read by the members of its names, if no other member keeps it from being read. -/
theorem fields?_object (unknown : UnknownFields) (names : List String) (members : List (Option String × Json)) :
    fields? unknown names (.object members) =
      if members.all (isReadable unknown names) then names.mapM (statement? members) else none := rfl

section Loops

variable {α β : Type} {step : α → Option β} {items : List α} {results : List β}

/-- A loop that succeeds has a result for each item, in its place. -/
theorem getElem?_of_mapM (h : items.mapM step = some results) {i : Nat} {item : α} (hItem : items[i]? = some item) :
    ∃ result, step item = some result ∧ results[i]? = some result := by
  induction items generalizing results i with
  | nil => cases hItem
  | cons first items ih =>
      rw [List.mapM_cons] at h
      obtain ⟨result, hResult, h⟩ := Option.bind_eq_some_iff.mp h
      obtain ⟨rest, hRest, h⟩ := Option.bind_eq_some_iff.mp h
      obtain rfl := Option.some.inj h
      cases i with
      | zero =>
          cases hItem
          exact ⟨result, hResult, rfl⟩
      | succ i => exact ih hRest hItem

theorem mapM_congr_of_mem {other : α → Option β} (h : ∀ item ∈ items, step item = other item) :
    items.mapM step = items.mapM other := by
  induction items with
  | nil => rfl
  | cons first items ih =>
      obtain ⟨hFirst, hItems⟩ := List.forall_mem_cons.mp h
      rw [List.mapM_cons, List.mapM_cons, hFirst, ih hItems]

/-- A loop whose steps are changed item by item has its results changed item by item. -/
theorem mapM_map_zipWith (items : List α) (step : α → Option β) (change : α → β → β) :
    items.mapM (fun item => (step item).map (change item)) = (items.mapM step).map (List.zipWith change items) := by
  induction items with
  | nil => rfl
  | cons first items ih =>
      rw [List.mapM_cons, List.mapM_cons, ih]
      cases step first with
      | none => rfl
      | some result =>
          cases items.mapM step with
          | none => rfl
          | some results => rfl

theorem length_of_mapM (h : items.mapM step = some results) : results.length = items.length := by
  induction items generalizing results with
  | nil => exact Option.some.inj h ▸ rfl
  | cons first items ih =>
      rw [List.mapM_cons] at h
      obtain ⟨result, hResult, h⟩ := Option.bind_eq_some_iff.mp h
      obtain ⟨rest, hRest, h⟩ := Option.bind_eq_some_iff.mp h
      obtain rfl := Option.some.inj h
      rw [List.length_cons, List.length_cons, ih hRest]

end Loops

section Fields

variable {unknown : UnknownFields} {names : List String} {name : String} {record value : Json}
  {values : List (Option Json)}

/-- A record is read as one value or none for each of its fields. -/
theorem length_of_fields? (h : fields? unknown names record = some values) : values.length = names.length := by
  cases record with
  | object members =>
      rw [fields?_object, Option.ite_none_right_eq_some] at h
      exact length_of_mapM h.2
  | array items =>
      unfold fields? at h
      rw [Option.ite_none_right_eq_some] at h
      obtain ⟨hLength, hValues⟩ := h
      obtain rfl := Option.some.inj hValues
      rw [List.length_append, List.length_map, List.length_replicate, Nat.add_sub_cancel' hLength]
  | _ => cases h

/-- A member is found under its name. -/
theorem mem_membersNamed {members : List (Option String × Json)} (h : (some name, value) ∈ members) :
    value ∈ membersNamed name members :=
  List.mem_map.mpr ⟨_, List.mem_filter.mpr ⟨h, beq_self_eq_true _⟩, rfl⟩

/-- What stands in a field is what is read in its place. -/
theorem getElem?_of_fields? (h : fields? unknown names record = some values) (hDistinct : names.Nodup) {i : Nat}
    (hPlace : names[i]? = some name) (hField : FieldOf names name value record) : values[i]? = some (some value) := by
  cases hField with
  | @member members hMember =>
      rw [fields?_object, Option.ite_none_right_eq_some] at h
      obtain ⟨stated, hStated, hFound⟩ := getElem?_of_mapM h.2 hPlace
      have hAmong : value ∈ membersNamed name members := mem_membersNamed hMember
      unfold statement? at hStated
      split at hStated
      next hNone => simp [hNone] at hAmong
      next only hOnly =>
          obtain rfl := List.mem_singleton.mp (hOnly ▸ hAmong)
          rw [hFound, hStated]
      next => cases hStated
  | @item items j hName hItem =>
      obtain rfl : j = i :=
        (List.getElem?_inj (List.getElem?_eq_some_iff.mp hName).1 hDistinct).mp (hName.trans hPlace.symm)
      unfold fields? at h
      rw [Option.ite_none_right_eq_some] at h
      obtain ⟨hLength, hValues⟩ := h
      obtain rfl := Option.some.inj hValues
      rw [List.getElem?_append_left, List.getElem?_map, hItem, Option.map_some]
      rw [List.length_map]
      exact (List.getElem?_eq_some_iff.mp hItem).1

/-- The form of `getElem?_of_fields?` for a list of values that is written out. -/
theorem eq_of_fieldOf {part : Option Json} (h : fields? unknown names record = some values)
    (hField : FieldOf names name value record) (i : Nat) (hDistinct : names.Nodup) (hName : names[i]? = some name)
    (hPart : values[i]? = some part) : part = some value :=
  Option.some.inj (hPart.symm.trans (getElem?_of_fields? h hDistinct hName hField))

/-- What is a stray among more names is one among fewer. -/
theorem HasStray.of_subset {others : List String} (hOthers : others ⊆ names) (h : record.HasStray names) :
    record.HasStray others := by
  obtain ⟨members, hRecord, member, hMember, hStray⟩ := h
  exact ⟨members, hRecord, member, hMember, fun name hName => hStray name (hOthers hName)⟩

/-- Taking away the members of one name leaves the strays in place. -/
theorem HasStray.filter {members : List (Option String × Json)}
    (h : (Json.object members).HasStray (name :: names)) :
    (Json.object (members.filter fun member => member.1 != some name)).HasStray names := by
  obtain ⟨_, hRecord, member, hMember, hStray⟩ := h
  cases hRecord
  have hKept : (member.1 != some name) = true := bne_iff_ne.mpr (hStray name List.mem_cons_self)
  exact ⟨_, rfl, member, List.mem_filter.mpr ⟨hMember, hKept⟩,
    fun other hOther => hStray other (List.mem_cons_of_mem name hOther)⟩

/-- A record that refuses unknown fields is not read with one. -/
theorem not_hasStray_of_fields? (h : fields? .refused names record = some values) : ¬record.HasStray names := by
  rintro ⟨members, rfl, member, hMember, hStray⟩
  rw [fields?_object, Option.ite_none_right_eq_some] at h
  have hReadable := List.all_eq_true.mp h.1 member hMember
  unfold isReadable at hReadable
  split at hReadable
  next => cases hReadable
  next key hKey =>
      rw [Bool.or_eq_true, List.contains_iff_mem] at hReadable
      exact hStray key (hReadable.resolve_left Bool.false_ne_true) hKey

/-- Taking away strays takes away no member of a field. -/
theorem membersNamed_filter {members : List (Option String × Json)} (hName : name ∈ names) :
    membersNamed name (members.filter fun member => member.1.all names.contains) = membersNamed name members := by
  rw [membersNamed, membersNamed, List.filter_filter]
  refine congrArg (List.map Prod.snd) (List.filter_congr fun member _ => ?_)
  by_cases hSame : member.1 = some name
  · simp [hSame, hName]
  · rw [beq_eq_false_iff_ne.mpr hSame, Bool.false_and]

/-- A record that passes over unknown fields is read as if it had none. -/
theorem fields?_withoutStrays (names : List String) (record : Json) :
    fields? .ignored names (record.withoutStrays names) = fields? .ignored names record := by
  cases record with
  | object members =>
      have hReadable : (members.filter fun member => member.1.all names.contains).all (isReadable .ignored names) =
          members.all (isReadable .ignored names) := by
        rw [List.all_filter]
        refine congrArg members.all (funext fun member => ?_)
        unfold isReadable
        cases member.1 with
        | none => rfl
        | some key => simp
      have hStated : names.mapM (statement? (members.filter fun member => member.1.all names.contains)) =
          names.mapM (statement? members) := by
        refine mapM_congr_of_mem fun name hName => ?_
        rw [statement?, statement?, membersNamed_filter hName]
      rw [withoutStrays, fields?_object, fields?_object, hReadable, hStated]
  | _ => rfl

/-- A field that is left after taking away strays was there before. -/
theorem FieldOf.of_withoutStrays {others : List String}
    (h : FieldOf names name value (record.withoutStrays others)) : FieldOf names name value record := by
  cases record with
  | object members =>
      cases h with
      | member hMember => exact .member (List.mem_of_mem_filter hMember)
  | _ => exact h

/-- Strays can be taken away only once. -/
theorem withoutStrays_withoutStrays (names : List String) (record : Json) :
    (record.withoutStrays names).withoutStrays names = record.withoutStrays names := by
  cases record with
  | object members => simp only [withoutStrays, List.filter_filter, Bool.and_self]
  | _ => rfl

end Fields

section Replacements

variable {names : List String} {name changed : String} {f : Json → Json} {record value : Json}

theorem membersNamed_map (f : Json → Json) (other : String) (members : List (Option String × Json)) :
    membersNamed other (members.map (updateMember name f)) =
      (membersNamed other members).map (if other = name then f else id) := by
  have hKey : (fun member => member.1 == some other) ∘ updateMember name f = fun member => member.1 == some other :=
    funext fun member => congrArg (· == some other) (updateMember_key name f member)
  rw [membersNamed, membersNamed, List.filter_map, hKey, List.map_map, List.map_map]
  refine List.map_congr_left fun member hMember => ?_
  have hOther : member.1 = some other := eq_of_beq (List.mem_filter.mp hMember).2
  by_cases hSame : other = name
  · simp [updateMember, hOther, hSame]
  · simp [updateMember, hOther, hSame]

/-- Changing the members of one name changes what is stated of that name only. -/
theorem statement?_map (f : Json → Json) (other : String) (members : List (Option String × Json)) :
    statement? (members.map (updateMember name f)) other =
      (statement? members other).map fun value => if other = name then value.map f else value := by
  rw [statement?, statement?, membersNamed_map]
  by_cases hSame : other = name
  · simp only [if_pos hSame]
    rcases membersNamed other members with - | ⟨first, - | ⟨second, rest⟩⟩ <;> rfl
  · simp only [if_neg hSame, List.map_id, Option.map_id']

/-- Replacing the value of a field replaces what is read of that field. -/
theorem fields?_updateField (unknown : UnknownFields) (names : List String) (name : String) (f : Json → Json)
    (record : Json) :
    fields? unknown names (record.updateField names name f) = (fields? unknown names record).map
      (List.zipWith (fun other value => if other = name then value.map f else value) names) := by
  cases record with
  | object members =>
      have hReadable : isReadable unknown names ∘ updateMember name f = isReadable unknown names :=
        funext fun member => by simp only [Function.comp_apply, isReadable, updateMember_key]
      have hStated : statement? (members.map (updateMember name f)) =
          fun other => (statement? members other).map fun value => if other = name then value.map f else value :=
        funext fun other => statement?_map f other members
      rw [updateField, fields?_object, fields?_object, List.all_map, hReadable, hStated, mapM_map_zipWith]
      split <;> rfl
  | array items =>
      simp only [updateField, fields?, List.length_mapIdx]
      split
      next hLength =>
          rw [Option.map_some, Option.some_inj]
          refine List.ext_getElem (by simp [hLength]) fun i hLeft hRight => ?_
          simp only [List.getElem_append, List.getElem_zipWith, List.length_map, List.length_mapIdx, List.getElem_map,
            List.getElem_mapIdx, List.getElem_replicate]
          -- Fields beyond the items of the array are left out before and after.
          split
          next hItem =>
            have hPlace : i < names.length := hItem.trans_le hLength
            by_cases hName : names[i] = name
            · simp [List.getElem?_eq_getElem hPlace, hName]
            · simp [List.getElem?_eq_getElem hPlace, hName]
          next => simp
      next => rfl
  | _ => rfl

/-- What is read of the fields of a record is as before if what is read of the changed field is. -/
theorem fields?_bind_updateField {β : Type} {unknown : UnknownFields} {next : List (Option Json) → Option β}
    (h : ∀ values : List (Option Json), values.length = names.length →
      next (List.zipWith (fun other value => if other = name then value.map f else value) names values) = next values)
    (record : Json) :
    (fields? unknown names (record.updateField names name f)).bind next = (fields? unknown names record).bind next := by
  rw [fields?_updateField]
  cases hValues : fields? unknown names record with
  | none => rfl
  | some values => exact h values (length_of_fields? hValues)

/-- Taking away strays and changing a field can be done in either order. -/
theorem withoutStrays_updateField (names : List String) (name : String) (f : Json → Json) (record : Json) :
    (record.updateField names name f).withoutStrays names = (record.withoutStrays names).updateField names name f := by
  cases record with
  | object members =>
      rw [updateField, withoutStrays, withoutStrays, updateField, List.filter_map]
      simp only [Function.comp_def, updateMember_key]
  | _ => rfl

/-- The fields after a change are those before it, but for the one that was changed. -/
theorem FieldOf.of_updateField (h : FieldOf names name value (record.updateField names changed f)) :
    ∃ old, FieldOf names name old record ∧ value = if name = changed then f old else old := by
  cases record with
  | object members =>
      cases h with
      | member hMember =>
          obtain ⟨⟨key, old⟩, hOld, hSame⟩ := List.mem_map.mp hMember
          have hKey : key = some name := (updateMember_key changed f (key, old)).symm.trans (congrArg Prod.fst hSame)
          subst hKey
          refine ⟨old, .member hOld, (congrArg Prod.snd hSame).symm.trans ?_⟩
          simp only [updateMember, Option.some_inj]
          split <;> rfl
  | array items =>
      cases h with
      | @item _ i hName hItem =>
          obtain ⟨old, hOld, hSame⟩ := Option.map_eq_some_iff.mp (List.getElem?_mapIdx.symm.trans hItem)
          refine ⟨old, .item hName hOld, hSame.symm.trans ?_⟩
          rw [hName]
          simp only [Option.some_inj]
  | _ => cases h

theorem FieldOf.of_updateField_same (h : FieldOf names name value (record.updateField names name f)) :
    ∃ old, FieldOf names name old record ∧ value = f old := by
  obtain ⟨old, hOld, hValue⟩ := h.of_updateField
  exact ⟨old, hOld, hValue.trans (if_pos rfl)⟩

theorem FieldOf.of_updateField_other (h : FieldOf names name value (record.updateField names changed f))
    (hOther : name ≠ changed) : FieldOf names name value record := by
  obtain ⟨old, hOld, hValue⟩ := h.of_updateField
  rw [if_neg hOther] at hValue
  exact hValue ▸ hOld

/-- A field that has to be there is read alike if its value is. -/
theorem required_map {β : Type} {read : Json → Option β} (h : ∀ value, read (f value) = read value)
    (value : Option Json) : required read (value.map f) = required read value := by
  cases value with
  | none => rfl
  | some value => exact h value

theorem optional_map {β : Type} {fallback : β} {read : Json → Option β} (h : ∀ value, read (f value) = read value)
    (value : Option Json) : optional fallback read (value.map f) = optional fallback read value := by
  cases value with
  | none => rfl
  | some value => exact h value

end Replacements

/-- A choice that can be read has only one alternative. -/
theorem eq_of_choice? {value body : Json} {name : String} {chosen : String × Option Json}
    (h : choice? value = some chosen) (hBody : FieldOf [] name body value) : value = .object [(some name, body)] := by
  cases hBody with
  | member hMember =>
      unfold choice? at h
      split at h
      next hShape => cases hShape
      next hShape =>
        obtain rfl := Json.object.inj hShape
        rw [List.mem_singleton.mp hMember]
      next => cases h
  | item hName => cases hName

/-- A choice has one member, so the body that stands in it is the one that is read. -/
theorem eq_of_choice?_bind {β : Type} {next : String × Option Json → Option β} {result : β} {value body : Json}
    {name : String} (h : (choice? value).bind next = some result) (hBody : FieldOf [] name body value) :
    value = .object [(some name, body)] := by
  obtain ⟨_, hChoice, -⟩ := Option.bind_eq_some_iff.mp h
  exact eq_of_choice? hChoice hBody

/-- Changing the body of one alternative changes a choice of that alternative only. -/
theorem choice?_updateField (name : String) (f : Json → Json) (value : Json) :
    choice? (value.updateField [] name f) =
      (choice? value).map fun chosen => if chosen.1 = name then (chosen.1, chosen.2.map f) else chosen := by
  cases value with
  | object members =>
      rcases members with - | ⟨⟨- | key, content⟩, - | ⟨second, rest⟩⟩
      · rfl
      · rfl
      · rfl
      · by_cases hKey : key = name
        · simp [updateField, updateMember, choice?, hKey]
        · simp [updateField, updateMember, choice?, hKey]
      · simp [updateField, choice?]
  | string content =>
      cases content with
      | none => rfl
      | some key => simp [updateField, choice?]
  | _ => rfl

/-- What is read of a choice is as before if what is read of the body is. -/
theorem choice?_bind_updateField {β : Type} {next : String × Option Json → Option β} {name : String} {f : Json → Json}
    (h : ∀ body, next (name, some (f body)) = next (name, some body)) (value : Json) :
    (choice? (value.updateField [] name f)).bind next = (choice? value).bind next := by
  rw [choice?_updateField]
  cases choice? value with
  | none => rfl
  | some chosen =>
      obtain ⟨other, content⟩ := chosen
      rw [Option.map_some, Option.bind_some, Option.bind_some]
      by_cases hName : other = name
      · subst hName
        rw [if_pos rfl]
        cases content with
        | none => rfl
        | some body => exact h body
      · rw [if_neg hName]

end Json

end RayTracer
