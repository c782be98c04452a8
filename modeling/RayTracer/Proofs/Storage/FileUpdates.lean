import Mathlib
import RayTracer.Storage.Folder

/-! Files that are read after others have been written. A path is resolved along directories that are there, so
writing a file makes no new ones: every path leads where it led before, the written file holds what was put into
it, and the files in all other places are as they were. -/

namespace RayTracer.Folder

variable {folder after : Folder} {path other : String} {place before : Place} {content : FileContent}

/-- A place is a directory if it is the root, was made one or holds a file somewhere below. -/
theorem isDirectory_iff :
    folder.isDirectory place = true ↔
      place = [] ∨ place ∈ folder.directories ∨ ∃ file ∈ folder.files, place <+: file.1 ∧ place ≠ file.1 := by
  have hAround (file : Place × FileContent) :
      (place.length < file.1.length ∧ place <+: file.1) ↔ place <+: file.1 ∧ place ≠ file.1 := by
    constructor
    · rintro ⟨hShorter, hPrefix⟩
      exact ⟨hPrefix, fun hSame => hShorter.ne (congrArg List.length hSame)⟩
    · rintro ⟨hPrefix, hOther⟩
      exact ⟨lt_of_le_of_ne hPrefix.length_le fun hSame => hOther (hPrefix.eq_of_length hSame), hPrefix⟩
  simp [isDirectory, hAround, or_assoc]

/-- Whatever lies on the way to a place is a directory. -/
def Reaches (folder : Folder) (place : Place) : Prop :=
  ∀ before, before <+: place → before ≠ place → folder.isDirectory before = true

/-- A path starts at a place that is reached. -/
theorem reaches_start (folder : Folder) (path : String) : folder.Reaches (start path) := by
  have hHere : folder.isDirectory [] = true := isDirectory_iff.mpr (Or.inl rfl)
  unfold start
  split
  next =>
      intro before hPrefix hBefore
      rcases List.prefix_cons_iff.mp hPrefix with rfl | ⟨rest, rfl, hRest⟩
      · exact hHere
      · rw [List.prefix_nil.mp hRest] at hBefore
        exact absurd rfl hBefore
  next =>
      intro before hPrefix hBefore
      exact absurd (List.prefix_nil.mp hPrefix) hBefore

/-- From a directory every name in it is reached. -/
theorem Reaches.concat (h : folder.Reaches place) (hPlace : folder.isDirectory place = true) (name : String) :
    folder.Reaches (place ++ [name]) := by
  intro before hPrefix hBefore
  rcases List.prefix_concat_iff.mp hPrefix with hSame | hShorter
  · exact absurd hSame hBefore
  · by_cases hEnd : before = place
    · rw [hEnd]
      exact hPlace
    · exact h before hShorter hEnd

/-- A place is reached through the one above it. -/
theorem Reaches.dropLast (h : folder.Reaches place) : folder.Reaches place.dropLast := by
  intro before hPrefix hBefore
  apply h before (hPrefix.trans (List.dropLast_prefix place))
  rintro rfl
  exact hBefore (hPrefix.eq_of_length_le (by simp))

/-- One step from a directory. -/
theorem Reaches.step (h : folder.Reaches place) (hPlace : folder.isDirectory place = true) (name : String) :
    folder.Reaches (step place name) := by
  unfold Folder.step around
  split_ifs
  · exact h
  · exact h
  · exact h.concat hPlace ".."
  · exact h.dropLast
  · exact h.concat hPlace name

/-- Walking along names reaches whatever it comes to. -/
theorem Reaches.walk {names : List String} (h : folder.Reaches before) (hWalk : folder.walk before names = some place) :
    folder.Reaches place := by
  induction names generalizing before with
  | nil =>
      obtain rfl := Option.some.inj hWalk
      exact h
  | cons name names ih =>
      simp only [Folder.walk, Option.ite_none_right_eq_some] at hWalk
      exact ih (h.step hWalk.1 name) hWalk.2

/-- The last step to a place is the last one of its path. -/
theorem exists_step_of_walk {names : List String} {last : String}
    (h : folder.walk before (names ++ [last]) = some place) : ∃ around, place = step around last := by
  induction names generalizing before with
  | nil =>
      simp only [List.nil_append, walk, Option.ite_none_right_eq_some] at h
      exact ⟨before, (Option.some.inj h.2).symm⟩
  | cons name names ih =>
      simp only [List.cons_append, walk, Option.ite_none_right_eq_some] at h
      exact ih h.2

/-- The path of a file is walked to its end, and its last segment is a name. -/
theorem exists_segments_of_resolve? (h : folder.resolve? path = some place) :
    ∃ names last, FileName.segments path = names ++ [last] ∧ (last ≠ "" ∧ last ≠ "." ∧ last ≠ "..") ∧
      folder.walk (start path) (names ++ [last]) = some place := by
  simp only [resolve?, Option.bind_eq_bind, Option.bind_eq_some_iff] at h
  obtain ⟨-, -, reached, hWalk, hFile⟩ := h
  split at hFile
  next => cases hFile
  next hProper =>
      obtain rfl := Option.some.inj hFile
      push Not at hProper
      obtain ⟨hSome, hHere, hUp, -⟩ := hProper
      cases hLast : (FileName.segments path).getLast? with
      | none => simp [hLast] at hSome
      | some last =>
          obtain ⟨names, hNames⟩ := List.getLast?_eq_some_iff.mp hLast
          rw [hLast, Option.getD_some] at hSome hHere hUp
          exact ⟨names, last, hNames, ⟨hSome, hHere, hUp⟩, hNames ▸ hWalk⟩

/-- What a path resolves to is reached. -/
theorem reaches_of_resolve? (h : folder.resolve? path = some place) : folder.Reaches place := by
  obtain ⟨names, last, -, -, hWalk⟩ := exists_segments_of_resolve? h
  exact (reaches_start folder path).walk hWalk

/-- A place has the name that its path ends with. -/
theorem getLast?_of_resolve? (h : folder.resolve? path = some place) :
    place.getLast? = (FileName.components path).getLast? := by
  obtain ⟨names, last, hNames, ⟨hSome, hHere, hUp⟩, hWalk⟩ := exists_segments_of_resolve? h
  obtain ⟨around, rfl⟩ := exists_step_of_walk hWalk
  simp [step, FileName.components, hNames, List.filter_append, hSome, hHere, hUp]

/-- Files with other extensions lie in other places. -/
theorem resolve?_ne_of_extension (h : folder.resolve? path = some place)
    (hOther : FileName.extension? other ≠ FileName.extension? path) : folder.resolve? other ≠ some place := by
  intro hSame
  apply hOther
  have hLast := (getLast?_of_resolve? hSame).symm.trans (getLast?_of_resolve? h)
  rw [FileName.extension?, FileName.extension?, hLast]

/-- A name without a slash leads to the file of that name, unless it is a directory. -/
theorem resolve?_name {name : String} (hName : FileName.segments name = [name])
    (hUsable : FileName.isUsable name = true) (hHere : FileName.isAbsolute name = false)
    (hProper : name ≠ "" ∧ name ≠ "." ∧ name ≠ "..") (hFile : folder.isDirectory [name] = false) :
    folder.resolve? name = some [name] := by
  have hStart : folder.isDirectory [] = true := isDirectory_iff.mpr (Or.inl rfl)
  simp [resolve?, hName, hUsable, hHere, hProper, hFile, hStart, start, walk, step]

/-- Writing replaces the file at the place that the path resolves to. -/
theorem write?_eq_some_iff :
    folder.write? path content = some after ↔ ∃ place, folder.resolve? path = some place ∧
      { folder with files := (place, content) :: folder.files.filter fun file => file.1 ≠ place } = after := by
  simp [write?, Option.bind_eq_some_iff]

/-- A file is written wherever its path leads, whatever is put into it. -/
theorem exists_write? (h : folder.resolve? path = some place) (content : FileContent) :
    ∃ after, folder.write? path content = some after :=
  ⟨_, write?_eq_some_iff.mpr ⟨place, h, rfl⟩⟩

/-- Writing a file makes no directory, and takes none away. -/
theorem isDirectory_of_write? (h : folder.write? path content = some after) (place : Place) :
    after.isDirectory place = folder.isDirectory place := by
  obtain ⟨written, hResolved, rfl⟩ := write?_eq_some_iff.mp h
  have hReaches := reaches_of_resolve? hResolved
  rw [Bool.eq_iff_iff]
  constructor
  · intro hPlace
    rcases isDirectory_iff.mp hPlace with rfl | hStated | ⟨file, hFile, hAround⟩
    · exact isDirectory_iff.mpr (Or.inl rfl)
    · exact isDirectory_iff.mpr (Or.inr (Or.inl hStated))
    · rcases List.mem_cons.mp hFile with rfl | hKept
      · exact hReaches place hAround.1 hAround.2
      · exact isDirectory_iff.mpr (Or.inr (Or.inr ⟨file, List.mem_of_mem_filter hKept, hAround⟩))
  · intro hPlace
    rcases isDirectory_iff.mp hPlace with rfl | hStated | ⟨file, hFile, hAround⟩
    · exact isDirectory_iff.mpr (Or.inl rfl)
    · exact isDirectory_iff.mpr (Or.inr (Or.inl hStated))
    · apply isDirectory_iff.mpr
      right; right
      -- A file that was in the place before has made way for the new one.
      by_cases hReplaced : file.1 = written
      · exact ⟨(written, content), List.mem_cons_self, hReplaced ▸ hAround⟩
      · exact ⟨file, List.mem_cons_of_mem _ (List.mem_filter.mpr ⟨hFile, by simpa using hReplaced⟩), hAround⟩

/-- A file that is written opens and closes no way. -/
theorem walk_of_write? (h : folder.write? path content = some after) (place : Place) (names : List String) :
    after.walk place names = folder.walk place names := by
  induction names generalizing place with
  | nil => rfl
  | cons name names ih => simp only [walk, isDirectory_of_write? h, ih]

/-- Paths lead where they led before a file was written. -/
theorem resolve?_of_write? (h : folder.write? path content = some after) (other : String) :
    after.resolve? other = folder.resolve? other := by
  simp only [resolve?, walk_of_write? h, isDirectory_of_write? h]

/-- Taking away one file leaves the others to be found. -/
theorem lookup_filter_ne {files : List (Place × FileContent)} (h : before ≠ place) :
    (files.filter fun file => file.1 ≠ place).lookup before = files.lookup before := by
  induction files with
  | nil => rfl
  | cons file files ih =>
      rw [List.filter_cons]
      split
      next => rw [List.lookup_cons, List.lookup_cons, ih]
      next hDropped =>
          have hKey : file.1 = place := by simpa using hDropped
          have hNot : (before == file.1) = false := beq_eq_false_iff_ne.mpr (hKey ▸ h)
          rw [ih, List.lookup_cons, hNot]

/-- What was written is read. -/
theorem read?_of_write? (h : folder.write? path content = some after) : after.read? path = some content := by
  obtain ⟨place, hPlace, hAfter⟩ := write?_eq_some_iff.mp h
  rw [read?, resolve?_of_write? h, hPlace, ← hAfter]
  exact List.lookup_cons_self

/-- What lies elsewhere is read as before. -/
theorem read?_of_write?_of_ne (h : folder.write? path content = some after)
    (hOther : folder.resolve? other ≠ folder.resolve? path) : after.read? other = folder.read? other := by
  obtain ⟨place, hPlace, hAfter⟩ := write?_eq_some_iff.mp h
  rw [read?, read?, resolve?_of_write? h, ← hAfter]
  cases hFound : folder.resolve? other with
  | none => rfl
  | some found =>
      have hApart : found ≠ place := by
        rintro rfl
        exact hOther (hFound.trans hPlace.symm)
      have hNot : (found == place) = false := beq_eq_false_iff_ne.mpr hApart
      simp only [Option.bind_eq_bind, Option.bind_some, List.lookup_cons, hNot]
      exact lookup_filter_ne hApart

end RayTracer.Folder
