import Mathlib
import RayTracer.Image.Pfm
import RayTracer.Proofs.Binary.Narrowing
import RayTracer.Proofs.Binary.Words
import RayTracer.Proofs.Image.Tabulation

/-! The pixels of a float map. Writing narrows the channels, spells them in a byte order and puts the rows
from the bottom to the top; reading undoes the order and the spelling, so of each channel the widened
narrowed value remains. -/

namespace RayTracer

namespace Pfm

/-- A channel as it comes back from a file: as the binary32 number next to it. -/
def channelBack (x : Double) : Double := Binary.widen (Binary.narrow x)

theorem length_colorBytes (order : ByteOrder) (color : Color Double) :
    (colorBytes order color).length = 12 := by
  have hWord (w : UInt32) : (order.bytes w).length = 4 := by
    obtain ⟨_, _, _, _, hBytes, -⟩ := order.exists_bytes_eq w
    rw [hBytes]
    rfl
  simp only [colorBytes, List.length_append, hWord]

theorem length_flatMap_colorBytes (order : ByteOrder) (colors : List (Color Double)) :
    (colors.flatMap (colorBytes order)).length = 12 * colors.length := by
  induction colors with
  | nil => rfl
  | cons color colors ih =>
      rw [List.flatMap_cons, List.length_append, length_colorBytes, ih, List.length_cons]
      ring

/-- The color that twelve bytes spell is read in front of any others. -/
theorem readColors_colorBytes_append (order : ByteOrder) (color : Color Double) (rest : List UInt8) :
    readColors order (colorBytes order color ++ rest) =
      color.map channelBack :: readColors order rest := by
  obtain ⟨_, _, _, _, hRed, hRedBack⟩ := order.exists_bytes_eq (Binary.narrow color.r)
  obtain ⟨_, _, _, _, hGreen, hGreenBack⟩ := order.exists_bytes_eq (Binary.narrow color.g)
  obtain ⟨_, _, _, _, hBlue, hBlueBack⟩ := order.exists_bytes_eq (Binary.narrow color.b)
  simp only [colorBytes, hRed, hGreen, hBlue, List.cons_append, List.nil_append, readColors, hRedBack,
    hGreenBack, hBlueBack]
  rfl

/-- Of every color that was spelled the channels come back narrowed. -/
theorem readColors_flatMap_colorBytes (order : ByteOrder) (colors : List (Color Double)) :
    readColors order (colors.flatMap (colorBytes order)) = colors.map (Color.map channelBack) := by
  induction colors with
  | nil => rfl
  | cons color colors ih =>
      rw [List.flatMap_cons, readColors_colorBytes_append, ih]
      rfl

/-- Twelve bytes are a color. -/
theorem readColors_of_le (order : ByteOrder) : ∀ {bytes : List UInt8}, 12 ≤ bytes.length →
    ∃ color, readColors order bytes = color :: readColors order (bytes.drop 12)
  | _ :: _ :: _ :: _ :: _ :: _ :: _ :: _ :: _ :: _ :: _ :: _ :: _, _ => ⟨_, rfl⟩

/-- There are as many colors as the bytes suffice for. -/
theorem length_readColors (order : ByteOrder) {count : Nat} {bytes : List UInt8}
    (hLength : bytes.length = 12 * count) : (readColors order bytes).length = count := by
  induction count generalizing bytes with
  | zero =>
      rw [List.length_eq_zero_iff.mp hLength]
      rfl
  | succ count ih =>
      obtain ⟨color, hRead⟩ := readColors_of_le order (show 12 ≤ bytes.length by omega)
      rw [hRead, List.length_cons, ih (by rw [List.length_drop]; omega)]

/-- Rows of one width are told apart again. -/
theorem splitRows_flatten {β : Type} {width : Nat} {rows : List (List β)}
    (hRows : ∀ row ∈ rows, row.length = width) : splitRows width rows.length rows.flatten = rows := by
  induction rows with
  | nil => rfl
  | cons row rows ih =>
      have hRow : row.length = width := hRows row List.mem_cons_self
      have hRest := ih fun other hOther => hRows other (List.mem_cons_of_mem row hOther)
      rw [List.length_cons, splitRows, List.flatten_cons, List.take_left' hRow, List.drop_left' hRow, hRest]

/-- Rows that are put together again are what was split. -/
theorem flatten_splitRows {β : Type} (width height : Nat) (items : List β) :
    (splitRows width height items).flatten = items.take (width * height) := by
  induction height generalizing items with
  | zero => rw [splitRows, List.flatten_nil, Nat.mul_zero, List.take_zero]
  | succ height ih => rw [splitRows, List.flatten_cons, ih, Nat.mul_succ, Nat.add_comm, List.take_add]

/-- The image of a size has a pixel for every place of it when there are the bytes for them. -/
theorem size_pixels_imageOf (order : ByteOrder) {width height : Nat} {bytes : List UInt8}
    (hLength : bytes.length = 12 * (width * height)) :
    (imageOf order width height bytes).pixels.size = width * height := by
  have hColors := length_readColors order hLength
  calc
    (imageOf order width height bytes).pixels.size
        = (splitRows width height (readColors order bytes)).reverse.flatten.length := rfl
    _ = (splitRows width height (readColors order bytes)).flatten.length := by
      rw [List.length_flatten, List.length_flatten, List.map_reverse, List.sum_reverse]
    _ = width * height := by rw [flatten_splitRows, List.length_take, hColors, Nat.min_self]

/-- Counting the rows from the bottom lists them in reverse. -/
theorem reverse_map_range {β : Type} (height : Nat) (row : Nat → β) :
    ((List.range height).map fun line => row (height - 1 - line)).reverse =
      (List.range height).map row := by
  rw [← List.map_reverse, List.range_eq_range', List.reverse_range', List.map_map, ← List.range_eq_range']
  apply List.map_congr_left
  intro line hMem
  have hLine : line < height := List.mem_range.mp hMem
  have hTwice : height - 1 - (0 + height - 1 - line) = line := by omega
  rw [Function.comp_apply, hTwice]

/-- The colors of an image by a rule, the lowest row first. -/
def upward (width height : Nat) (rule : Nat × Nat → Color Double) : List (Color Double) :=
  (Image.coordinates width height).map fun position => rule (position.1, height - 1 - position.2)

/-- What is spelled from the lowest row on is read as the image, with narrowed channels. -/
theorem imageOf_upward (order : ByteOrder) (width height : Nat) (rule : Nat × Nat → Color Double) :
    imageOf order width height ((upward width height rule).flatMap (colorBytes order)) =
      (Image.tabulate width height rule).map (Color.map channelBack) := by
  let row (line : Nat) : List (Color Double) :=
    (List.range width).map fun col => (rule (col, line)).map channelBack
  have hColors : readColors order ((upward width height rule).flatMap (colorBytes order)) =
      ((List.range height).map fun line => row (height - 1 - line)).flatten := by
    rw [readColors_flatMap_colorBytes, upward, List.map_map, Image.map_coordinates_eq_flatten]
    rfl
  have hRows : splitRows width height (readColors order
      ((upward width height rule).flatMap (colorBytes order))) =
      (List.range height).map fun line => row (height - 1 - line) := by
    have hWidth : ∀ line ∈ (List.range height).map fun line => row (height - 1 - line),
        line.length = width := by
      intro line hMem
      obtain ⟨place, -, rfl⟩ := List.mem_map.mp hMem
      simp [row]
    have hSplit := splitRows_flatten hWidth
    rwa [List.length_map, List.length_range, ← hColors] at hSplit
  rw [imageOf, hRows, reverse_map_range, Image.map_tabulate, Image.tabulate,
    Image.map_coordinates_eq_flatten]
  rfl

/-- The file of a filled image is its header and its colors from the lowest row on. -/
theorem encode_tabulate (order : ByteOrder) {width height : Nat} (rule : Nat × Nat → Color Double)
    (hFit : width * height < UInt64.size) :
    encode order (Image.tabulate width height rule) =
      .ok (header order width height ++ (upward width height rule).flatMap (colorBytes order)) := by
  have hGet : ∀ position ∈ Rectangle.positions ⟨0, 0, width, height⟩,
      (fun position : Nat × Nat => (Image.tabulate width height rule).get position.1
        (height - 1 - position.2)) position =
        .ok (rule (position.1, height - 1 - position.2)) := by
    intro position hMem
    obtain ⟨hCol, hRow⟩ := Image.mem_coordinates.mp hMem
    exact Image.get_tabulate rule hFit hCol (by omega)
  have hVisit : Rectangle.visit (fun position : Nat × Nat => (Image.tabulate width height rule).get
      position.1 (height - 1 - position.2)) ⟨0, 0, width, height⟩ =
      .ok (upward width height rule).toArray := by
    rw [Rectangle.visit_eq, mapM_eq_ok_map hGet]
    rfl
  have hEncode : encode order (Image.tabulate width height rule) = (do
      let colors ← Rectangle.visit (fun position : Nat × Nat => (Image.tabulate width height rule).get
        position.1 (height - 1 - position.2)) ⟨0, 0, width, height⟩
      return header order width height ++ colors.toList.flatMap (colorBytes order)) := rfl
  rw [hEncode, hVisit]
  rfl

end Pfm

end RayTracer
