import Mathlib
import RayTracer.Proofs.Render.PixelCalls
import RayTracer.Proofs.Render.SamplingRules
import RayTracer.Proofs.Scene.HitGeometry

/-! The areas of the screen that pixels stand for, over exact numbers. Both sides of the screen are cut into equal
strips, and the area of a pixel is where its column and its row cross. A ray is at the screen at parameter one, however
it got there: the eye of a perspective camera stands as far before the screen as its rays are long across it. So every
ray that is cast for a pixel crosses the area of this pixel, at the same point for both projections, and the areas
cover the screen without overlapping. -/

namespace RayTracer

noncomputable section

/-- One of a number of equal strips between plus and minus a reach, counted from plus. -/
def strip (reach : ℝ) (count place : ℕ) : Set ℝ :=
  Set.Icc (reach * (1 - 2.0 * (place + 1) / count)) (reach * (1 - 2.0 * place / count))

/-- The part of the screen that belongs to a pixel. The second axis runs to the left and the third one up, so both
fall as columns and rows grow. -/
def pixelArea (aspectRatio : ℝ) (width height : ℕ) (pixel : ℕ × ℕ) : Set (ℝ × ℝ) :=
  strip aspectRatio width pixel.1 ×ˢ strip 1 height pixel.2

end

section Strips

/-- The strip of a place, counted from the far end of the screen. -/
theorem strip_exact (reach : ℝ) (count place : ℕ) :
    strip reach count place = Set.Icc (reach * (1 - 2 * (place + 1) / count)) (reach * (1 - 2 * place / count)) := by
  rw [strip, Scalar.two_exact]

variable {reach : ℝ} {count : ℕ}

/-- A share of a strip lies in it. -/
theorem mem_strip (hReach : 0 ≤ reach) (place : ℕ) {share : ℝ} (hShare : share ∈ Set.Icc 0 1) :
    reach * (1 - 2 * (place + share) / count) ∈ strip reach count place := by
  obtain ⟨hNonneg, hLe⟩ := hShare
  rw [strip_exact]
  constructor
  · gcongr
  · gcongr
    exact le_add_of_nonneg_right hNonneg

/-- The strips descend. -/
theorem lower_le_of_lt (hReach : 0 ≤ reach) {before after : ℕ} (hBefore : before < after) :
    reach * (1 - 2 * (after : ℝ) / count) ≤ reach * (1 - 2 * ((before : ℝ) + 1) / count) := by
  have hNext : (before : ℝ) + 1 ≤ after := by exact_mod_cast hBefore
  gcongr

theorem le_of_mem_strip (hReach : 0 ≤ reach) {before after : ℕ} (hBefore : before < after) {x y : ℝ}
    (hx : x ∈ strip reach count before) (hy : y ∈ strip reach count after) : y ≤ x := by
  rw [strip_exact] at hx hy
  exact (hy.2.trans (lower_le_of_lt hReach hBefore)).trans hx.1

/-- Different strips have at most an edge in common. -/
theorem disjoint_interior_strip (hReach : 0 ≤ reach) {one other : ℕ} (hOther : one ≠ other) :
    Disjoint (interior (strip reach count one)) (interior (strip reach count other)) := by
  wlog hBefore : one < other generalizing one other
  · exact (this hOther.symm (lt_of_le_of_ne (not_lt.mp hBefore) hOther.symm)).symm
  rw [strip_exact, strip_exact, interior_Icc, interior_Icc, Set.disjoint_left]
  intro x hAbove hBelow
  exact absurd (hBelow.2.trans_le (lower_le_of_lt hReach hBefore)) (not_lt.mpr hAbove.1.le)

/-- Strips stay on the screen. -/
theorem strip_subset (hReach : 0 ≤ reach) {place : ℕ} (hPlace : place < count) :
    strip reach count place ⊆ Set.Icc (-reach) reach := by
  have hCount : (0 : ℝ) < count := by exact_mod_cast Nat.zero_lt_of_lt hPlace
  have hLast : (place : ℝ) + 1 ≤ count := by exact_mod_cast hPlace
  have hEnd : 2 * ((place : ℝ) + 1) / count ≤ 2 := by
    rw [div_le_iff₀ hCount]
    linarith
  have hStart : 0 ≤ 2 * (place : ℝ) / count := by positivity
  intro x hx
  rw [strip_exact] at hx
  constructor
  · calc
      -reach = reach * (1 - 2) := by ring
      _ ≤ reach * (1 - 2 * (place + 1) / count) := by gcongr
      _ ≤ x := hx.1
  · calc
      x ≤ reach * (1 - 2 * place / count) := hx.2
      _ ≤ reach * (1 - 0) := by gcongr
      _ = reach := by ring

/-- The number of strips above a point, as a whole number and a share. -/
theorem exists_place_of_le (hCount : 0 < count) {above : ℝ} (hAbove : above ∈ Set.Icc (0 : ℝ) count) :
    ∃ place < count, above - place ∈ Set.Icc (0 : ℝ) 1 := by
  obtain ⟨hNonneg, hLe⟩ := hAbove
  rcases hLe.lt_or_eq with hInside | hEnd
  · refine ⟨⌊above⌋₊, (Nat.floor_lt hNonneg).mpr hInside, ?_, ?_⟩
    · exact sub_nonneg.mpr (Nat.floor_le hNonneg)
    · linarith [Nat.lt_floor_add_one above]
  · -- The lower end belongs to the last strip.
    refine ⟨count - 1, Nat.sub_lt hCount one_pos, ?_⟩
    rw [hEnd, Nat.cast_pred hCount]
    norm_num

/-- The strips cover the screen. -/
theorem iUnion_strip (hReach : 0 < reach) (hCount : 0 < count) :
    ⋃ place ∈ Set.Iio count, strip reach count place = Set.Icc (-reach) reach := by
  refine Set.Subset.antisymm (Set.iUnion₂_subset fun place hPlace => strip_subset hReach.le hPlace) fun x hx => ?_
  have hPositive : (0 : ℝ) < count := by exact_mod_cast hCount
  have hAbove : (reach - x) / (2 * reach) * count ∈ Set.Icc (0 : ℝ) count := by
    have hShare : (reach - x) / (2 * reach) ≤ 1 := by
      rw [div_le_one (by positivity)]
      linarith [hx.1]
    constructor
    · have hDown := sub_nonneg.mpr hx.2
      positivity
    · exact mul_le_of_le_one_left hPositive.le hShare
  obtain ⟨place, hPlace, hShare⟩ := exists_place_of_le hCount hAbove
  have hMem : reach * (1 - 2 * (place + ((reach - x) / (2 * reach) * count - place)) / count) ∈
      strip reach count place := mem_strip hReach.le place hShare
  have hSame : reach * (1 - 2 * (place + ((reach - x) / (2 * reach) * count - place)) / count) = x := by
    field_simp
    ring
  rw [hSame] at hMem
  exact Set.mem_iUnion₂.mpr ⟨place, hPlace, hMem⟩

end Strips

section Areas

variable {aspectRatio : ℝ} {width height : ℕ}

/-- Two pixels share no more than an edge. -/
theorem disjoint_interior_pixelArea (hRatio : 0 ≤ aspectRatio) {one other : ℕ × ℕ} (hOther : one ≠ other) :
    Disjoint (interior (pixelArea aspectRatio width height one))
      (interior (pixelArea aspectRatio width height other)) := by
  rw [pixelArea, pixelArea, interior_prod_eq, interior_prod_eq, Set.disjoint_prod]
  rcases Prod.ext_iff.not.mp hOther |> not_and_or.mp with hColumn | hRow
  · exact Or.inl (disjoint_interior_strip hRatio hColumn)
  · exact Or.inr (disjoint_interior_strip zero_le_one hRow)

/-- The pixels cover the screen. -/
theorem iUnion_pixelArea (hRatio : 0 < aspectRatio) (hWidth : 0 < width) (hHeight : 0 < height) :
    ⋃ pixel ∈ Set.Iio width ×ˢ Set.Iio height, pixelArea aspectRatio width height pixel =
      Set.Icc (-aspectRatio) aspectRatio ×ˢ Set.Icc (-1) 1 := by
  rw [← iUnion_strip hRatio hWidth, ← iUnion_strip one_pos hHeight]
  exact Set.biUnion_prod _ _ (strip aspectRatio width) (strip 1 height)

end Areas

namespace Camera

/-- The point of the screen that has screen coordinates, in the space of the camera. -/
noncomputable def onScreen (aspectRatio u v : ℝ) : Point ℝ := ⟨0, aspectRatio * (1 - 2.0 * u), 2.0 * v - 1⟩

/-- Rays of both projections are at the screen at parameter one. -/
theorem pointAt_one_localRay (camera : Camera ℝ) (u v : ℝ) :
    (camera.localRay u v).pointAt 1 = onScreen camera.aspectRatio u v := by
  cases hProjection : camera.projection with
  | orthogonal =>
      simp only [localRay, hProjection, Ray.primary, Ray.pointAt_exact, Vec.unitX, onScreen, Point.mk.injEq]
      norm_num [mul_comm]
  | perspective distance =>
      simp only [localRay, hProjection, Ray.primary, Ray.pointAt_exact, onScreen, Point.mk.injEq]
      norm_num [mul_comm]

/-- Every ray goes through the point of the screen that it is for. -/
theorem pointAt_one_ray {camera : Camera ℝ} (hAffine : camera.transformation.forward.row3 = Row.affine) (u v : ℝ) :
    (camera.ray u v).pointAt 1 = camera.transformation.applyPoint (onScreen camera.aspectRatio u v) := by
  rw [ray, Ray.pointAt_transform hAffine, pointAt_one_localRay]

/-- Where the ray through a position of a pixel crosses the screen. -/
theorem pointAt_one_pixelRay {camera : Camera ℝ} (hAffine : camera.transformation.forward.row3 = Row.affine)
    (width height : ℕ) (pixel : ℕ × ℕ) (right down : ℝ) :
    (camera.pixelRay width height pixel right down).pointAt 1 = camera.transformation.applyPoint
      ⟨0, camera.aspectRatio * (1 - 2 * (pixel.1 + right) / width), 1 * (1 - 2 * (pixel.2 + down) / height)⟩ := by
  rw [pixelRay, pointAt_one_ray hAffine, onScreen, Scalar.two_exact]
  congr 2
  · change camera.aspectRatio * (1 - 2 * ((pixel.1 + right) / width)) = _
    ring
  · change 2 * (1.0 - (pixel.2 + down) / height) - 1 = _
    rw [Scalar.one_exact]
    ring

end Camera

namespace Viewport

/-- A place of a cell is a position inside the pixel. -/
theorem withinPixel_mem_Icc {view : Viewport ℝ} {cell : ℕ} (hCell : cell < view.samplesPerSide) {place : ℝ}
    (hPlace : place ∈ Set.Icc 0 1) : view.withinPixel cell place ∈ Set.Icc 0 1 := by
  obtain ⟨hNonneg, hLe⟩ := hPlace
  have hCount : (0 : ℝ) < view.samplesPerSide := by exact_mod_cast Nat.zero_lt_of_lt hCell
  have hNext : (cell : ℝ) + 1 ≤ view.samplesPerSide := by exact_mod_cast hCell
  change ((cell : ℝ) + place) / view.samplesPerSide ∈ Set.Icc 0 1
  constructor
  · positivity
  · rw [div_le_one hCount]
    linarith

variable {view : Viewport ℝ} {coloring : RayColoring (Except Fault) ℝ} {generator last : Pcg}

/-- The ray that is due for a call goes through a position of the pixel that the call is made for. -/
theorem exists_position_of_aim {number : ℕ} (hNumber : number < view.raysPerPixel) (place : ℕ) (generator : Pcg) :
    ∃ right ∈ Set.Icc (0 : ℝ) 1, ∃ down ∈ Set.Icc (0 : ℝ) 1,
      (view.aim (place * view.raysPerPixel + number) generator).1 =
        view.camera.pixelRay view.width view.height (view.pixelAt place) right down := by
  by_cases hCenter : view.samplesPerSide = 0
  · have hRays : view.raysPerPixel = 1 := if_pos hCenter
    have hHalf : (0.5 : ℝ) ∈ Set.Icc (0 : ℝ) 1 := by norm_num
    obtain rfl : number = 0 := by omega
    refine ⟨0.5, hHalf, 0.5, hHalf, ?_⟩
    rw [Nat.add_zero, aim_center hCenter]
  · have hRays : view.raysPerPixel = view.samplesPerSide * view.samplesPerSide := if_neg hCenter
    rw [hRays] at hNumber ⊢
    rw [aim_cell hCenter hNumber]
    have hAcross : number % view.samplesPerSide < view.samplesPerSide := Nat.mod_lt _ (Nat.pos_of_ne_zero hCenter)
    have hDown : number / view.samplesPerSide < view.samplesPerSide := Nat.div_lt_of_lt_mul hNumber
    exact ⟨_, withinPixel_mem_Icc hAcross (Sampling.unitOf_mem_Icc _), _,
      withinPixel_mem_Icc hDown (Sampling.unitOf_mem_Icc _), rfl⟩

/-- Every one of the calls in a row has the ray that is due at its number. -/
theorem Calls.exists_aim_of_mem {number : ℕ} {calls : List (Call ℝ)}
    (h : view.Calls coloring number generator calls last) :
    ∀ call ∈ calls, ∃ later < calls.length, ∃ given, call.ray = (view.aim (number + later) given).1 := by
  induction h with
  | done number generator => exact List.forall_mem_nil _
  | @next number generator last call calls aimed answered rest ih =>
      refine List.forall_mem_cons.mpr ⟨⟨0, Nat.zero_lt_succ _, generator, congrArg Prod.fst aimed⟩, ?_⟩
      intro other hOther
      obtain ⟨later, hLater, given, hRay⟩ := ih other hOther
      refine ⟨later + 1, Nat.succ_lt_succ hLater, given, ?_⟩
      rw [hRay, Nat.add_assoc, Nat.add_comm 1 later]

/-- What a pixel blends are the colors of rays through positions of that pixel. -/
theorem exists_positions_of_pixelColor {pixel : ℕ × ℕ} (hPixel : pixel.1 < view.width) {color : Color ℝ}
    (h : (view.pixelColor coloring pixel).run generator = .ok (color, last)) :
    ∃ calls, calls.length = view.raysPerPixel ∧ color = view.blend calls ∧
      ∀ call ∈ calls, ∃ right ∈ Set.Icc (0 : ℝ) 1, ∃ down ∈ Set.Icc (0 : ℝ) 1,
        call.ray = view.camera.pixelRay view.width view.height pixel right down := by
  have hPlace : view.pixelAt (pixel.2 * view.width + pixel.1) = pixel := by
    obtain ⟨hColumn, hRow⟩ := Image.column_row_of_offset pixel.2 hPixel
    rw [pixelAt, hColumn, hRow]
  rw [← hPlace] at h
  obtain ⟨calls, hCalls, hLength, hBlend⟩ := calls_of_pixelColor h
  refine ⟨calls, hLength, hBlend, fun call hCall => ?_⟩
  obtain ⟨later, hLater, given, hRay⟩ := hCalls.exists_aim_of_mem call hCall
  rw [hLength] at hLater
  obtain ⟨right, hRight, down, hDown, hAim⟩ :=
    exists_position_of_aim hLater (pixel.2 * view.width + pixel.1) given
  exact ⟨right, hRight, down, hDown, by rw [hRay, hAim, hPlace]⟩

/-- Every sample stays in its own pixel. Whatever numbers are drawn for a cell of a pixel, its ray is at parameter one
at a point of the area that belongs to the pixel, carried into place with the camera; which point that is depends on
neither the projection nor the placing. So the color of a pixel only blends colors of rays through its own area, one
for each cell. The areas of different pixels have at most an edge in common, together they fill the screen, and those
of lower rows lie lower, so the first row is at the top. -/
theorem samples_stay_in_pixels {aspectRatio : ℝ} (hRatio : 0 < aspectRatio) {width height : ℕ} (hWidth : 0 < width)
    (hHeight : 0 < height) (samplesPerSide : ℕ) :
    let view (projection : Projection ℝ) (placing : Transformation ℝ) : Viewport ℝ :=
      ⟨⟨projection, aspectRatio, placing⟩, width, height, samplesPerSide⟩
    let area := pixelArea aspectRatio width height
    (∀ pixel cell : ℕ × ℕ, cell.1 < samplesPerSide → cell.2 < samplesPerSide →
      ∀ across ∈ Set.Icc (0 : ℝ) 1, ∀ down ∈ Set.Icc (0 : ℝ) 1, ∃ y z, (y, z) ∈ area pixel ∧
        ∀ projection placing, placing.forward.row3 = ⟨0, 0, 0, 1⟩ →
          ((view projection placing).camera.pixelRay width height pixel
            ((view projection placing).withinPixel cell.1 across)
            ((view projection placing).withinPixel cell.2 down)).pointAt 1 = placing.applyPoint ⟨0, y, z⟩) ∧
    (∀ projection placing, placing.forward.row3 = ⟨0, 0, 0, 1⟩ → ∀ pixel : ℕ × ℕ, pixel.1 < width →
      ∀ (coloring : RayColoring (Except Fault) ℝ) (generator last : Pcg) (color : Color ℝ),
        ((view projection placing).pixelColor coloring pixel).run generator = .ok (color, last) →
        ∃ calls : List (Call ℝ), calls.length = (view projection placing).raysPerPixel ∧
          color = (view projection placing).blend calls ∧
          ∀ call ∈ calls, ∃ y z, (y, z) ∈ area pixel ∧ call.ray.pointAt 1 = placing.applyPoint ⟨0, y, z⟩) ∧
    (∀ one other, one ≠ other → Disjoint (interior (area one)) (interior (area other))) ∧
    ⋃ pixel ∈ Set.Iio width ×ˢ Set.Iio height, area pixel =
      Set.Icc (-aspectRatio) aspectRatio ×ˢ Set.Icc (-1) 1 ∧
    ∀ upper lower : ℕ × ℕ, upper.2 < lower.2 → ∀ p ∈ area upper, ∀ q ∈ area lower, q.2 ≤ p.2 := by
  intro view area
  have hArea (pixel : ℕ × ℕ) {right down : ℝ} (hRight : right ∈ Set.Icc 0 1) (hDown : down ∈ Set.Icc 0 1) :
      (aspectRatio * (1 - 2 * (pixel.1 + right) / width), 1 * (1 - 2 * (pixel.2 + down) / height)) ∈ area pixel :=
    ⟨mem_strip hRatio.le pixel.1 hRight, mem_strip zero_le_one pixel.2 hDown⟩
  refine ⟨?_, ?_, ?_, iUnion_pixelArea hRatio hWidth hHeight, ?_⟩
  · intro pixel cell hColumn hRow across hAcross down hDown
    have hRight := (view .orthogonal .identity).withinPixel_mem_Icc hColumn hAcross
    have hBelow := (view .orthogonal .identity).withinPixel_mem_Icc hRow hDown
    exact ⟨_, _, hArea pixel hRight hBelow, fun projection placing hAffine =>
      Camera.pointAt_one_pixelRay hAffine width height pixel _ _⟩
  · intro projection placing hAffine pixel hPixel coloring generator last color h
    obtain ⟨calls, hLength, hBlend, hRays⟩ := exists_positions_of_pixelColor hPixel h
    refine ⟨calls, hLength, hBlend, fun call hCall => ?_⟩
    obtain ⟨right, hRight, down, hDown, hRay⟩ := hRays call hCall
    exact ⟨_, _, hArea pixel hRight hDown, by
      rw [hRay]; exact Camera.pointAt_one_pixelRay hAffine width height pixel right down⟩
  · intro one other hOther
    exact disjoint_interior_pixelArea hRatio.le hOther
  · intro upper lower hLower p hp q hq
    exact le_of_mem_strip zero_le_one hLower hp.2 hq.2

/-- The pixel at the lower right of three by two, and the lower right corner of its last cell: both projections cast
their rays through one point of the last half of the screen's height and of the last third of its width. -/
theorem samples_stay_in_pixels_corner :
    ((0 : ℝ) < 3 / 2 ∧ 0 < 3 ∧ 0 < 2) ∧ ∃ y z : ℝ, (-(3 / 2) ≤ y ∧ y ≤ -(1 / 2)) ∧ (-1 ≤ z ∧ z ≤ 0) ∧
      ∀ projection ∈ [Projection.orthogonal, .perspective (1 / 2 : ℝ)],
        let view : Viewport ℝ := ⟨⟨projection, 3 / 2, .translation ⟨0, 0, 4⟩⟩, 3, 2, 2⟩
        (view.camera.pixelRay 3 2 (2, 1) (view.withinPixel 1 1) (view.withinPixel 1 1)).pointAt 1 =
          (Transformation.translation ⟨0, 0, 4⟩).applyPoint ⟨0, y, z⟩ := by
  have hRatio : (0 : ℝ) < 3 / 2 := by norm_num
  have hAffine : (Transformation.translation (⟨0, 0, 4⟩ : Vec ℝ)).forward.row3 = ⟨0, 0, 0, 1⟩ :=
    (Transformation.regular_translation _).forward_affine
  have hEnd : (1 : ℝ) ∈ Set.Icc 0 1 := Set.right_mem_Icc.mpr zero_le_one
  obtain ⟨y, z, ⟨hAcross, hDown⟩, hRays⟩ := (samples_stay_in_pixels hRatio (Nat.succ_pos 2) (Nat.succ_pos 1) 2).1
    (2, 1) (1, 1) one_lt_two one_lt_two 1 hEnd 1 hEnd
  refine ⟨⟨hRatio, by decide, by decide⟩, y, z, ?_, ?_, fun projection _ => hRays projection _ hAffine⟩
  · norm_num [strip_exact] at hAcross
    exact hAcross
  · norm_num [strip_exact] at hDown
    exact hDown

end Viewport

end RayTracer
