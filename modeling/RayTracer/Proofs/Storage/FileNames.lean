import Mathlib
import RayTracer.Storage.FileName

/-! Names of files, taken apart. A text is cut at a character as the list of its characters is, so the segments and
the extension of a path can be computed. -/

namespace RayTracer

namespace Text

open String (splitOn splitAux splitOnAux)

/-- A separator of one character is found where the character is. -/
theorem splitOnAux_singleton (text : String) (c : Char) (start here : String.Pos.Raw) (found : List String) :
    splitOnAux text (String.singleton c) start here 0 found = splitAux text (· == c) start here found := by
  have hFirst : String.Pos.Raw.get (String.singleton c) 0 = c := by
    simpa using String.get_of_valid [] [c]
  have hNext : String.Pos.Raw.next (String.singleton c) 0 = ⟨c.utf8Size⟩ := by
    simpa using String.next_of_valid [] c []
  have hAlone : String.Pos.Raw.atEnd (String.singleton c) ⟨c.utf8Size⟩ = true := by
    have hList : String.singleton c = String.ofList [c] := by simp
    rw [String.atEnd_iff, hList, String.rawEndPos_ofList]
    simp
  fun_induction splitAux text (· == c) start here found with
  | case1 start here found hEnd => rw [splitOnAux, if_pos hEnd]
  | case2 start here found hMore hShorter hSame next ih =>
      have hBack : (String.Pos.Raw.next text here).unoffsetBy ⟨c.utf8Size⟩ = here := by
        rw [String.Pos.Raw.next, beq_iff_eq.mp hSame]
        apply String.Pos.Raw.ext
        simp
      rw [splitOnAux, if_neg hMore, hFirst, if_pos hSame, hNext, if_pos hAlone, hBack]
      exact ih
  | case3 start here found hMore hShorter hOther ih =>
      rw [splitOnAux, if_neg hMore, hFirst, if_neg hOther]
      simpa using ih

/-- A text is cut at a character as its list of characters is. -/
theorem splitOn_singleton (text : String) (c : Char) :
    text.splitOn (String.singleton c) = (text.toList.splitOnP (· == c)).map String.ofList := by
  have hSeparator : (String.singleton c == "") = false := by simp
  rw [← String.splitToList_of_valid, String.splitToList, splitOn, hSeparator]
  exact splitOnAux_singleton text c 0 0 []

end Text

namespace FileName

/-- The segments of a path are cut at its slashes. -/
theorem segments_eq (path : String) : segments path = (path.toList.splitOnP (· == '/')).map String.ofList :=
  Text.splitOn_singleton path '/'

/-- A name with one dot inside ends in an extension. -/
theorem extension?_eq_some {path name stem extension : String} (hName : (components path).getLast? = some name)
    (hProper : name ≠ "..") (hStem : stem ≠ "")
    (hParts : (name.toList.splitOnP (· == '.')).map String.ofList = [stem, extension]) :
    extension? path = some extension := by
  unfold extension?
  rw [hName]
  split
  next hNone => cases hNone
  next hSome => exact absurd (Option.some.inj hSome) hProper
  next found hSome =>
      obtain rfl := Option.some.inj hSome
      have hDot : name.splitOn "." = [stem, extension] := (Text.splitOn_singleton name '.').trans hParts
      simp [hDot, hStem]

end FileName

end RayTracer
