import Mathlib
import RayTracer.Image.Basic
import RayTracer.Proofs.Outcomes

/-! Images by a rule: a color for every position. The pixels of a filled image are such a rule, and reading
or writing one of them is evaluating or updating it, so loops over pixels become statements about functions
of positions. -/

namespace RayTracer

namespace Rectangle

/-- The place of a position in the list determines its column and its row. -/
theorem positions_eq_map_range (rectangle : Rectangle) :
    rectangle.positions = (List.range (rectangle.width * rectangle.height)).map fun place =>
      (rectangle.column + place % rectangle.width, rectangle.row + place / rectangle.width) := by
  obtain ⟨column, row, width, height⟩ := rectangle
  unfold positions
  by_cases hWidth : width = 0
  · simp [hWidth]
  · simp only [hWidth, ↓reduceIte]
    induction height with
    | zero => simp
    | succ height ih =>
        rw [List.range'_concat, List.flatMap_append, ih, Nat.mul_succ, List.range_add, List.map_append,
          List.map_map]
        congr 1
        simp only [List.flatMap_cons, List.flatMap_nil, List.append_nil, List.range'_eq_map_range,
          List.map_map, one_mul]
        apply List.map_congr_left
        intro place hPlace
        have hLt : place < width := List.mem_range.mp hPlace
        simp [Nat.mul_add_div (Nat.pos_of_ne_zero hWidth), Nat.mod_eq_of_lt hLt, Nat.div_eq_of_lt hLt]

@[simp] theorem length_positions (rectangle : Rectangle) :
    rectangle.positions.length = rectangle.width * rectangle.height := by
  simp [positions_eq_map_range]

/-- The positions of a rectangle are those between its edges. -/
theorem mem_positions {rectangle : Rectangle} {position : Nat × Nat} :
    position ∈ rectangle.positions ↔
      (rectangle.column ≤ position.1 ∧ position.1 < rectangle.column + rectangle.width) ∧
        rectangle.row ≤ position.2 ∧ position.2 < rectangle.row + rectangle.height := by
  obtain ⟨column, row⟩ := position
  unfold positions
  split
  · simp
    omega
  · simp [and_comm]

end Rectangle

namespace Image

variable {α : Type}

/-- The image of a size with the color that a rule gives each position. -/
def tabulate (width height : Nat) (rule : Nat × Nat → Color α) : Image α :=
  ⟨width, height, ((coordinates width height).map rule).toArray⟩

@[simp] theorem width_tabulate (width height : Nat) (rule : Nat × Nat → Color α) :
    (tabulate width height rule).width = width := rfl

@[simp] theorem height_tabulate (width height : Nat) (rule : Nat × Nat → Color α) :
    (tabulate width height rule).height = height := rfl

@[simp] theorem size_pixels_tabulate (width height : Nat) (rule : Nat × Nat → Color α) :
    (tabulate width height rule).pixels.size = width * height := by
  simp [tabulate, coordinates]

/-- What memory can hold can be counted. -/
theorem count_lt_of_held {count : Nat} (hHeld : count * pixelBytes < UInt64.size / 2) :
    count < UInt64.size := by
  simp only [pixelBytes] at hHeld
  omega

/-- A rule gives every position a color. -/
theorem isFilled_tabulate (width height : Nat) (rule : Nat × Nat → Color α) :
    (tabulate width height rule).isFilled = true := by
  simp [isFilled]

theorem mem_coordinates {width height : Nat} {position : Nat × Nat} :
    position ∈ coordinates width height ↔ position.1 < width ∧ position.2 < height := by
  simp [coordinates, Rectangle.mem_positions]

/-- A place in the list of the pixels tells its column and its row. -/
theorem coordinates_eq_map_range (width height : Nat) :
    coordinates width height =
      (List.range (width * height)).map fun place => (place % width, place / width) := by
  simp [coordinates, Rectangle.positions_eq_map_range]

/-- Only the colors inside the size matter. -/
theorem tabulate_congr {width height : Nat} {rule other : Nat × Nat → Color α}
    (h : ∀ position, position.1 < width → position.2 < height → rule position = other position) :
    tabulate width height rule = tabulate width height other := by
  unfold tabulate
  congr 2
  apply List.map_congr_left
  intro position hMem
  have hInside := mem_coordinates.mp hMem
  exact h position hInside.1 hInside.2

/-- The pixels of a row end before those of the next one begin. -/
theorem offset_lt {width height col row : Nat} (hCol : col < width) (hRow : row < height) :
    row * width + col < width * height := by
  calc
    row * width + col < row * width + width := by omega
    _ = width * (row + 1) := by ring
    _ ≤ width * height := Nat.mul_le_mul_left width hRow

/-- The place of a pixel among the pixels gives back its column and its row. -/
theorem column_row_of_offset {width col : Nat} (row : Nat) (hCol : col < width) :
    (row * width + col) % width = col ∧ (row * width + col) / width = row := by
  constructor
  · rw [Nat.mul_comm, Nat.mul_add_mod, Nat.mod_eq_of_lt hCol]
  · rw [Nat.mul_comm, Nat.mul_add_div (by omega), Nat.div_eq_of_lt hCol, Nat.add_zero]

/-- Positions of an image whose pixels can be counted are found without overflow. -/
theorem locate_eq (image : Image α) {col row : Nat} (hFit : image.width * image.height < UInt64.size)
    (hCol : col < image.width) (hRow : row < image.height) :
    image.locate col row = .ok (row * image.width + col) := by
  have hOffset := offset_lt hCol hRow
  have hSum : row * image.width + col < UInt64.size := by omega
  have hProduct : row * image.width < UInt64.size := by omega
  simp [locate, contains, offset, mulSizes, addSizes, hCol, hRow, hSum, hProduct, bind, Except.bind]

/-- Where a position is located, row after row. -/
theorem offset_of_locate {image : Image α} {col row position : Nat}
    (h : image.locate col row = .ok position) : position = row * image.width + col := by
  unfold locate offset mulSizes addSizes at h
  split at h
  next =>
      obtain ⟨product, hProduct, hSum⟩ := bind_eq_ok_iff.mp h
      split at hProduct
      next =>
          obtain rfl := Except.ok.inj hProduct
          split at hSum
          next => exact (Except.ok.inj hSum).symm
          next => cases hSum
      next => cases hProduct
  next => cases h

/-- What is read at a position stands in its place among the pixels. -/
theorem getElem?_of_get {image : Image α} {col row : Nat} {color : Color α} (h : image.get col row = .ok color) :
    image.pixels[row * image.width + col]? = some color := by
  obtain ⟨position, hPosition, hPixel⟩ := bind_eq_ok_iff.mp h
  rw [offset_of_locate hPosition] at hPixel
  cases hFound : image.pixels[row * image.width + col]? with
  | none =>
      rw [hFound] at hPixel
      cases hPixel
  | some found =>
      rw [hFound] at hPixel
      exact congrArg some (Except.ok.inj hPixel)

/-- The pixel of a position is the color that the rule gives it. -/
theorem getElem?_pixels_tabulate {width height : Nat} (rule : Nat × Nat → Color α) {col row : Nat}
    (hCol : col < width) (hRow : row < height) :
    (tabulate width height rule).pixels[row * width + col]? = some (rule (col, row)) := by
  have hOffset := offset_lt hCol hRow
  obtain ⟨hColumn, hLine⟩ := column_row_of_offset row hCol
  simp [tabulate, coordinates_eq_map_range, hOffset, hColumn, hLine]

/-- Reading a pixel evaluates the rule. -/
theorem get_tabulate {width height : Nat} (rule : Nat × Nat → Color α) {col row : Nat}
    (hFit : width * height < UInt64.size) (hCol : col < width) (hRow : row < height) :
    (tabulate width height rule).get col row = .ok (rule (col, row)) := by
  simp only [get, locate_eq (tabulate width height rule) hFit hCol hRow, width_tabulate, bind,
    Except.bind, getElem?_pixels_tabulate rule hCol hRow]
  rfl

/-- As many pixels as fill a size are known by the colors at all positions. -/
theorem eq_pixels_tabulate {width height : Nat} {pixels : Array (Color α)}
    (hSize : pixels.size = width * height) {rule : Nat × Nat → Color α}
    (h : ∀ col row, col < width → row < height → pixels[row * width + col]? = some (rule (col, row))) :
    pixels = (tabulate width height rule).pixels := by
  apply Array.ext_getElem?
  intro place
  by_cases hPlace : place < width * height
  · have hWidth : 0 < width := Nat.pos_of_mul_pos_right (Nat.zero_lt_of_lt hPlace)
    have hCol : place % width < width := Nat.mod_lt place hWidth
    have hRow : place / width < height := Nat.div_lt_of_lt_mul hPlace
    have hSplit : place / width * width + place % width = place := Nat.div_add_mod' place width
    have hLeft := h _ _ hCol hRow
    have hRight := getElem?_pixels_tabulate rule hCol hRow
    rw [hSplit] at hLeft hRight
    exact hLeft.trans hRight.symm
  · rw [Array.getElem?_eq_none (by omega), Array.getElem?_eq_none (by simp; omega)]

/-- Every filled image is given by a rule. -/
theorem exists_eq_tabulate [Scalar α] {image : Image α} (hFilled : image.isFilled = true) :
    ∃ rule, image = tabulate image.width image.height rule := by
  obtain ⟨width, height, pixels⟩ := image
  have hSize : pixels.size = width * height := beq_iff_eq.mp hFilled
  let rule (position : Nat × Nat) : Color α :=
    pixels.getD (position.2 * width + position.1) Color.black
  have hPixels : pixels = (tabulate width height rule).pixels := by
    apply eq_pixels_tabulate hSize
    intro col row hCol hRow
    have hOffset := offset_lt hCol hRow
    simp [rule, hSize, hOffset]
  exact ⟨rule, congrArg (Image.mk width height) hPixels⟩

/-- Mapping the colors maps the rule. -/
theorem map_tabulate {β : Type} (f : Color α → Color β) (width height : Nat)
    (rule : Nat × Nat → Color α) :
    (tabulate width height rule).map f = tabulate width height (f ∘ rule) := by
  simp [map, tabulate]

/-- The coordinates are listed row by row. -/
theorem map_coordinates_eq_flatten {β : Type} (width height : Nat) (f : Nat × Nat → β) :
    (coordinates width height).map f =
      ((List.range height).map fun row => (List.range width).map fun col => f (col, row)).flatten := by
  unfold coordinates Rectangle.positions
  split
  next hWidth =>
      have hEmpty : width = 0 := hWidth
      simp [hEmpty]
  next => simp [List.range'_eq_map_range, List.flatMap_def, Function.comp_def]

/-- Writing a pixel updates the rule. -/
theorem set_tabulate {width height : Nat} (rule : Nat × Nat → Color α) {col row : Nat}
    (color : Color α) (hFit : width * height < UInt64.size) (hCol : col < width) (hRow : row < height) :
    (tabulate width height rule).set col row color =
      .ok (tabulate width height (Function.update rule (col, row) color)) := by
  have hOffset := offset_lt hCol hRow
  have hLocate := locate_eq (tabulate width height rule) hFit hCol hRow
  simp only [set, hLocate, width_tabulate, size_pixels_tabulate, bind, Except.bind, hOffset, ↓reduceDIte]
  suffices hPixels : (tabulate width height rule).pixels.set (row * width + col) color (by simpa) =
      (tabulate width height (Function.update rule (col, row) color)).pixels by
    rw [hPixels]
    rfl
  apply eq_pixels_tabulate (by simp)
  intro otherCol otherRow hOtherCol hOtherRow
  by_cases hSame : (otherCol, otherRow) = (col, row)
  · obtain ⟨rfl, rfl⟩ := Prod.mk.inj hSame
    simp [hOffset]
  · have hPlace : row * width + col ≠ otherRow * width + otherCol := by
      intro hEqual
      have hHere := column_row_of_offset row hCol
      have hThere := column_row_of_offset otherRow hOtherCol
      rw [← hEqual] at hThere
      exact hSame (Prod.ext (hThere.1.symm.trans hHere.1) (hThere.2.symm.trans hHere.2))
    rw [Function.update_of_ne hSame, ← getElem?_pixels_tabulate rule hOtherCol hOtherRow]
    exact Array.getElem?_set_ne _ hPlace

/-- A black image that can be had: its pixels can be counted and held in memory. -/
theorem blank_eq_tabulate [Scalar α] {width height : Nat} {image : Image α}
    (h : blank width height = .ok image) :
    image = tabulate width height (fun _ => Color.black) ∧
      width * height * pixelBytes < UInt64.size / 2 := by
  simp only [blank, mulSizes, checkBuffer, bind, Except.bind] at h
  split at h
  · simp at h
  · rename_i count hCount
    split at hCount
    · cases hCount
      split at h
      · simp at h
      · rename_i hHeld
        refine ⟨?_, by by_contra hLarge; simp [hLarge] at hHeld⟩
        cases h
        suffices hPixels : Array.replicate (width * height) Color.black =
            (tabulate width height fun _ => Color.black (α := α)).pixels by rw [hPixels]; rfl
        apply eq_pixels_tabulate (by simp)
        intro col row hCol hRow
        simp [offset_lt hCol hRow]
    · simp at hCount

end Image

end RayTracer
