/-!
Tables of entries that have names. A table is kept in the order of its names, and none of them has two entries.
-/

namespace RayTracer

section Entries

variable {β : Type}

/-- Entries with one more set: in its place in the order of the names, instead of an entry of the same name. -/
def setNamed (name : String) (value : β) : List (String × β) → List (String × β)
  | [] => [(name, value)]
  | (other, old) :: rest =>
    if name < other then (name, value) :: (other, old) :: rest
    else if name = other then (name, value) :: rest
    else (other, old) :: setNamed name value rest

/-- Setting an entry brings in no other. -/
theorem mem_setNamed {name : String} {value : β} {entries : List (String × β)} {entry : String × β}
    (h : entry ∈ setNamed name value entries) : entry = (name, value) ∨ entry ∈ entries := by
  induction entries with
  | nil => exact Or.inl (List.mem_singleton.mp h)
  | cons first entries ih =>
      unfold setNamed at h
      split at h
      · exact List.mem_cons.mp h
      · split at h
        · exact (List.mem_cons.mp h).imp_right (List.mem_cons_of_mem first)
        · rcases List.mem_cons.mp h with rfl | hLater
          · exact Or.inr List.mem_cons_self
          · exact (ih hLater).imp_right (List.mem_cons_of_mem first)

/-- An entry that is set goes to where the names still ascend. -/
theorem pairwise_setNamed {entries : List (String × β)} (h : entries.Pairwise fun entry later => entry.1 < later.1)
    (name : String) (value : β) : (setNamed name value entries).Pairwise fun entry later => entry.1 < later.1 := by
  induction entries with
  | nil => exact List.pairwise_singleton _ _
  | cons first entries ih =>
      obtain ⟨hFirst, hEntries⟩ := List.pairwise_cons.mp h
      unfold setNamed
      split
      case isTrue hBefore =>
        refine List.pairwise_cons.mpr ⟨fun later hLater => ?_, h⟩
        rcases List.mem_cons.mp hLater with rfl | hOld
        · exact hBefore
        · exact String.lt_trans hBefore (hFirst later hOld)
      case isFalse hNotBefore =>
        split
        case isTrue hSame => exact List.pairwise_cons.mpr ⟨hSame ▸ hFirst, hEntries⟩
        case isFalse hDistinct =>
          refine List.pairwise_cons.mpr ⟨fun later hLater => ?_, ih hEntries⟩
          rcases mem_setNamed hLater with rfl | hOld
          · refine Decidable.byContradiction fun hNotAfter => hDistinct ?_
            exact String.le_antisymm (String.not_lt.mp hNotAfter) (String.not_lt.mp hNotBefore)
          · exact hFirst later hOld

theorem lookup_entry (name other : String) (value : β) (entries : List (String × β)) :
    ((name, value) :: entries).lookup other = if other = name then some value else entries.lookup other := by
  by_cases hName : other = name
  · rw [hName, List.lookup_cons_self, if_pos rfl]
  · rw [if_neg hName, List.lookup_cons, beq_false_of_ne hName]

/-- Under the name that was set the value is found, and under all others what was found before. -/
theorem lookup_setNamed (name other : String) (value : β) (entries : List (String × β)) :
    (setNamed name value entries).lookup other = if other = name then some value else entries.lookup other := by
  induction entries with
  | nil => exact lookup_entry name other value []
  | cons first entries ih =>
      obtain ⟨held, old⟩ := first
      unfold setNamed
      split
      case isTrue => exact lookup_entry name other value _
      case isFalse =>
        split
        case isTrue hSame =>
          rw [lookup_entry, lookup_entry, hSame]
          split <;> rfl
        case isFalse hDistinct =>
          rw [lookup_entry, lookup_entry, ih]
          by_cases hHeld : other = held
          · have hOther : other ≠ name := fun hName => hDistinct (hName.symm.trans hHeld)
            rw [if_pos hHeld, if_pos hHeld, if_neg hOther]
          · rw [if_neg hHeld, if_neg hHeld]

end Entries

/-- Entries by name, in ascending order of the names. -/
structure NameTable (β : Type) where
  entries : List (String × β)
  ascending : entries.Pairwise fun entry later => entry.1 < later.1
  deriving Repr

namespace NameTable

variable {β : Type}

def empty : NameTable β := ⟨[], .nil⟩

def set (table : NameTable β) (name : String) (value : β) : NameTable β :=
  ⟨setNamed name value table.entries, pairwise_setNamed table.ascending name value⟩

def find? (table : NameTable β) (name : String) : Option β :=
  table.entries.lookup name

/-- Setting an entry changes what its name stands for and nothing else. -/
theorem find?_set (table : NameTable β) (name other : String) (value : β) :
    (table.set name value).find? other = if other = name then some value else table.find? other :=
  lookup_setNamed name other value table.entries

end NameTable

end RayTracer
