import Mathlib
import RayTracer.Proofs.Render.BucketTiling

/-! The buckets of an image partition it. Two of them that share a pixel have the same corner, the one found
by rounding the pixel down, so together the buckets list every pixel of the image once. Sorting them for
rendering permutes them, whatever the distances are. -/

namespace RayTracer

theorem Rectangle.nodup_positions (rectangle : Rectangle) : rectangle.positions.Nodup := by
  have hColumns : (List.range' rectangle.column rectangle.width).Nodup := List.nodup_range'
  have hRows : (List.range' rectangle.row rectangle.height).Nodup := List.nodup_range'
  unfold positions
  split
  next => exact List.nodup_nil
  next =>
      rw [List.nodup_flatMap]
      refine ⟨fun row _ => hColumns.map fun _ _ hEqual => congrArg Prod.fst hEqual, ?_⟩
      refine hRows.imp fun {row other} hDifferent position hHere hThere => ?_
      obtain ⟨_, -, rfl⟩ := List.mem_map.mp hHere
      obtain ⟨_, -, hEqual⟩ := List.mem_map.mp hThere
      exact hDifferent (congrArg Prod.snd hEqual).symm

namespace Bucket

/-- A side is cut into as many parts as it takes to cover it. -/
theorem length_corners (extent size : Nat) : (corners extent size).length = extent ⌈/⌉ size := by
  rw [corners, List.length_map, List.length_range, Nat.ceilDiv_eq_add_pred_div]

theorem nodup_corners (extent : Nat) {size : Nat} (hSize : 0 < size) : (corners extent size).Nodup :=
  List.nodup_range.map fun _ _ hEqual => Nat.eq_of_mul_eq_mul_right hSize hEqual

/-- The grid has as many buckets as its two sides have parts. -/
theorem length_grid (width height size : Nat) :
    (grid width height size).length = (width ⌈/⌉ size) * (height ⌈/⌉ size) := by
  unfold grid
  split
  next hWidth => simp [hWidth]
  next => simp [length_corners, Nat.mul_comm]

theorem nodup_grid (width height : Nat) {size : Nat} (hSize : 0 < size) :
    (grid width height size).Nodup := by
  unfold grid
  split
  next => exact List.nodup_nil
  next =>
      rw [List.nodup_flatMap]
      refine ⟨fun y _ => (nodup_corners width hSize).map fun _ _ hEqual => congrArg Bucket.x hEqual, ?_⟩
      refine (nodup_corners height hSize).imp fun {y other} hDifferent bucket hHere hThere => ?_
      obtain ⟨_, -, rfl⟩ := List.mem_map.mp hHere
      obtain ⟨_, -, hEqual⟩ := List.mem_map.mp hThere
      exact hDifferent (congrArg Bucket.y hEqual).symm

theorem size_le_of_mem_grid {width height size : Nat} {bucket : Bucket} (hSize : 0 < size)
    (hBucket : bucket ∈ grid width height size) : bucket.width ≤ size ∧ bucket.height ≤ size := by
  obtain ⟨-, -, hShape⟩ := (mem_grid hSize).mp hBucket
  rw [hShape]
  exact ⟨min_le_left _ _, min_le_left _ _⟩

/-- The corner of a bucket is any of its pixels, rounded down. -/
theorem corner_eq_of_mem_grid {width height size : Nat} {bucket : Bucket} {pixel : Nat × Nat}
    (hSize : 0 < size) (hBucket : bucket ∈ grid width height size) (hPixel : pixel ∈ bucket.coordinates) :
    bucket.x = pixel.1 / size * size ∧ bucket.y = pixel.2 / size * size := by
  have hRound {corner place : Nat} (hAt : size ∣ corner) (hLow : corner ≤ place)
      (hHigh : place < corner + size) : corner = place / size * size := by
    obtain ⟨i, rfl⟩ := hAt
    have hQuotient : place / size = i := by
      apply Nat.div_eq_of_lt_le
      · rwa [Nat.mul_comm]
      · rwa [Nat.succ_mul, Nat.mul_comm]
    rw [hQuotient, Nat.mul_comm]
  -- Buckets that are cut off at the edge are no exception: they still start at a multiple of the size.
  obtain ⟨⟨-, hx⟩, ⟨-, hy⟩, -⟩ := (mem_grid hSize).mp hBucket
  obtain ⟨hWidth, hHeight⟩ := size_le_of_mem_grid hSize hBucket
  obtain ⟨⟨hLeft, hRight⟩, hTop, hBottom⟩ := mem_coordinates.mp hPixel
  exact ⟨hRound hx hLeft (by omega), hRound hy hTop (by omega)⟩

/-- Buckets that share a pixel are the same. -/
theorem eq_of_mem_grid {width height size : Nat} {bucket other : Bucket} {pixel : Nat × Nat}
    (hSize : 0 < size) (hBucket : bucket ∈ grid width height size) (hOther : other ∈ grid width height size)
    (hHere : pixel ∈ bucket.coordinates) (hThere : pixel ∈ other.coordinates) : bucket = other := by
  have hCorner := corner_eq_of_mem_grid hSize hBucket hHere
  have hOtherCorner := corner_eq_of_mem_grid hSize hOther hThere
  obtain ⟨-, -, hShape⟩ := (mem_grid hSize).mp hBucket
  obtain ⟨-, -, hOtherShape⟩ := (mem_grid hSize).mp hOther
  rw [hShape, hOtherShape, hCorner.1, hCorner.2, hOtherCorner.1, hOtherCorner.2]

/-- The buckets of the grid list the pixels of the image, each once. -/
theorem coordinates_grid_perm (width height : Nat) {size : Nat} (hSize : 0 < size) :
    ((grid width height size).flatMap coordinates).Perm (Image.coordinates width height) := by
  have hNodup : ((grid width height size).flatMap coordinates).Nodup := by
    rw [List.nodup_flatMap]
    refine ⟨fun bucket _ => bucket.rectangle.nodup_positions, ?_⟩
    refine (nodup_grid width height hSize).imp_of_mem ?_
    intro bucket other hBucket hOther hDifferent pixel hHere hThere
    exact hDifferent (eq_of_mem_grid hSize hBucket hOther hHere hThere)
  refine (List.perm_ext_iff_of_nodup hNodup (Rectangle.nodup_positions _)).mpr fun pixel => ?_
  constructor
  · intro hPixel
    obtain ⟨bucket, hBucket, hHere⟩ := List.mem_flatMap.mp hPixel
    exact Image.mem_coordinates.mpr ((inside_of_mem_grid hSize hBucket).mem_coordinates hHere)
  · intro hPixel
    obtain ⟨hCol, hRow⟩ := Image.mem_coordinates.mp hPixel
    exact List.mem_flatMap.mpr (exists_mem_grid hSize hCol hRow)

section Plan

variable {α : Type} [Scalar α] {width height size : Nat} {buckets : List Bucket}

/-- The pixels of the buckets are those of the image, each of them once. -/
theorem coordinates_plan_perm (h : plan α width height size = .ok buckets) (hSize : 0 < size) :
    (buckets.flatMap coordinates).Perm (Image.coordinates width height) := by
  have hRectangles := (rectangles_plan_perm h).flatMap_right Rectangle.positions
  rw [List.flatMap_map, List.flatMap_map] at hRectangles
  exact hRectangles.trans (coordinates_grid_perm width height hSize)

/-- No bucket is larger than asked for. -/
theorem size_le_of_mem_plan {bucket : Bucket} (h : plan α width height size = .ok buckets)
    (hSize : 0 < size) (hMem : bucket ∈ buckets) : bucket.width ≤ size ∧ bucket.height ≤ size := by
  have hRectangle := (rectangles_plan_perm h).subset (List.mem_map_of_mem (f := rectangle) hMem)
  obtain ⟨origin, hOrigin, hSame⟩ := List.mem_map.mp hRectangle
  have hLe := size_le_of_mem_grid hSize hOrigin
  simp only [rectangle, Rectangle.mk.injEq] at hSame
  obtain ⟨-, -, hWidth, hHeight⟩ := hSame
  exact ⟨hWidth ▸ hLe.1, hHeight ▸ hLe.2⟩

theorem length_plan (h : plan α width height size = .ok buckets) :
    buckets.length = (width ⌈/⌉ size) * (height ⌈/⌉ size) := by
  have hLength := (rectangles_plan_perm h).length_eq
  rwa [List.length_map, List.length_map, length_grid] at hLength

/-- Buckets are numbered in the order of the plan. -/
theorem index_plan (h : plan α width height size = .ok buckets) {i : Nat} (hi : i < buckets.length) :
    buckets[i].index = i := by
  unfold plan at h
  split at h
  · cases h
  · cases h
    simp [number]

/-- A pixel of the image lies in one bucket only: buckets at two places of the list share none. -/
theorem eq_of_mem_plan {bucket other : Bucket} {pixel : Nat × Nat}
    (h : plan α width height size = .ok buckets) (hSize : 0 < size) (hBucket : bucket ∈ buckets)
    (hOther : other ∈ buckets) (hHere : pixel ∈ bucket.coordinates) (hThere : pixel ∈ other.coordinates) :
    bucket = other := by
  have hNodup := (coordinates_plan_perm h hSize).nodup_iff.mpr (Rectangle.nodup_positions _)
  have hDisjoint := (List.nodup_flatMap.mp hNodup).2
  have hSymm : Std.Symm (Function.onFun List.Disjoint coordinates) :=
    ⟨fun _ _ hApart => List.Disjoint.symm hApart⟩
  by_contra hDifferent
  exact hDisjoint.forall hBucket hOther hDifferent hHere hThere

/-- The areas of the buckets add up to that of the image. -/
theorem sum_area_plan (h : plan α width height size = .ok buckets) (hSize : 0 < size) :
    (buckets.map fun bucket => bucket.width * bucket.height).sum = width * height := by
  have hLength := (coordinates_plan_perm h hSize).length_eq
  rw [List.length_flatMap] at hLength
  simpa [coordinates, rectangle, Image.coordinates] using hLength

end Plan

/-- The buckets of an image cut it into pieces: every pixel lies in exactly one of them, none is empty,
reaches beyond the image or exceeds the size of buckets, there are as many as the rounded-up quotients
say, their pixels add up to those of the image, and each is numbered by its place in the list. How distances
are computed for the order does not matter. -/
theorem plan_partition (α : Type) [Scalar α] (width height : Nat) {size : Nat} (hSize : 0 < size) :
    ∃ buckets, plan α width height size = .ok buckets ∧
      (∀ col row, col < width → row < height →
        ∃! bucket, bucket ∈ buckets ∧ (col, row) ∈ bucket.coordinates) ∧
      (∀ bucket ∈ buckets, bucket.Inside width height ∧ bucket.width ≤ size ∧ bucket.height ≤ size) ∧
      buckets.length = (width ⌈/⌉ size) * (height ⌈/⌉ size) ∧
      (buckets.map fun bucket => bucket.width * bucket.height).sum = width * height ∧
      (width * height < UInt64.size → ∀ bucket ∈ buckets,
        bucket.pixelCount = .ok (bucket.width * bucket.height)) ∧
      ∀ i (hi : i < buckets.length), buckets[i].index = i := by
  obtain ⟨buckets, hPlan⟩ : ∃ buckets, plan α width height size = .ok buckets := by
    simp [plan, Nat.ne_of_gt hSize]
  refine ⟨buckets, hPlan, ?_, ?_, length_plan hPlan, sum_area_plan hPlan hSize, ?_,
    fun i hi => index_plan hPlan hi⟩
  · intro col row hCol hRow
    obtain ⟨bucket, hBucket, hPixel⟩ : ∃ bucket ∈ buckets, (col, row) ∈ bucket.coordinates :=
      exists_mem_plan hPlan hSize hCol hRow
    refine ⟨bucket, ⟨hBucket, hPixel⟩, fun other hOther => ?_⟩
    exact eq_of_mem_plan hPlan hSize hOther.1 hBucket hOther.2 hPixel
  · intro bucket hBucket
    exact ⟨inside_of_mem_plan hPlan hSize hBucket, size_le_of_mem_plan hPlan hSize hBucket⟩
  · intro hFit bucket hBucket
    exact (inside_of_mem_plan hPlan hSize hBucket).pixelCount_eq hFit

/-- Two by three buckets, of which one column and one row are cut off. -/
theorem plan_partition_ragged :
    0 < 64 ∧ ∃ buckets, plan Float 100 130 64 = .ok buckets ∧ buckets.length = 6 ∧
      (∃! bucket, bucket ∈ buckets ∧ (99, 129) ∈ bucket.coordinates) ∧
      (buckets.map fun bucket => bucket.width * bucket.height).sum = 13000 := by
  have hSize : 0 < 64 := by decide
  obtain ⟨buckets, hPlan, hPixels, -, hLength, hAreas, -⟩ := plan_partition Float 100 130 hSize
  exact ⟨hSize, buckets, hPlan, hLength, hPixels 99 129 (by decide) (by decide), hAreas⟩

end Bucket

end RayTracer
