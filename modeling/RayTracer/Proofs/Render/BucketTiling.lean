import Mathlib
import RayTracer.Proofs.Image.Tabulation
import RayTracer.Render.Bucket

/-! Buckets lie inside their image and reach every pixel of it, the ragged ones at the right and the lower
edge included. The order of rendering permutes them and changes no rectangle. -/

namespace RayTracer.Bucket

/-- The bucket is not empty and lies inside an image of a size. -/
structure Inside (bucket : Bucket) (width height : Nat) : Prop where
  width_pos : 0 < bucket.width
  height_pos : 0 < bucket.height
  right_le : bucket.x + bucket.width ≤ width
  bottom_le : bucket.y + bucket.height ≤ height

theorem mem_coordinates {bucket : Bucket} {pixel : Nat × Nat} :
    pixel ∈ bucket.coordinates ↔
      (bucket.x ≤ pixel.1 ∧ pixel.1 < bucket.x + bucket.width) ∧
        bucket.y ≤ pixel.2 ∧ pixel.2 < bucket.y + bucket.height :=
  Rectangle.mem_positions

theorem Inside.mem_coordinates {bucket : Bucket} {width height : Nat} {pixel : Nat × Nat}
    (hInside : bucket.Inside width height) (hPixel : pixel ∈ bucket.coordinates) :
    pixel.1 < width ∧ pixel.2 < height := by
  have hMem := Bucket.mem_coordinates.mp hPixel
  have hRight := hInside.right_le
  have hBottom := hInside.bottom_le
  omega

theorem Inside.area_le {bucket : Bucket} {width height : Nat} (hInside : bucket.Inside width height) :
    bucket.width * bucket.height ≤ width * height := by
  have hRight := hInside.right_le
  have hBottom := hInside.bottom_le
  exact Nat.mul_le_mul (by omega) (by omega)

/-- The pixels of a bucket can be counted where those of the image can. -/
theorem Inside.pixelCount_eq {bucket : Bucket} {width height : Nat} (hInside : bucket.Inside width height)
    (hFit : width * height < UInt64.size) :
    bucket.pixelCount = .ok (bucket.width * bucket.height) := by
  rw [pixelCount, mulSizes, if_pos (hInside.area_le.trans_lt hFit)]

/-- Corners stand at the multiples of the bucket size, as far as the extent reaches. -/
theorem mem_corners {extent size corner : Nat} (hSize : 0 < size) :
    corner ∈ corners extent size ↔ corner < extent ∧ size ∣ corner := by
  have hCount (i : Nat) : i < (extent + size - 1) / size ↔ i * size < extent := by
    rw [← Nat.succ_le_iff, Nat.le_div_iff_mul_le hSize, Nat.succ_mul]
    omega
  simp only [corners, List.mem_map, List.mem_range, hCount]
  constructor
  · rintro ⟨i, hLt, rfl⟩
    exact ⟨hLt, Nat.dvd_mul_left size i⟩
  · rintro ⟨hLt, i, rfl⟩
    exact ⟨i, by rwa [Nat.mul_comm], Nat.mul_comm i size⟩

theorem corner_mem_corners {extent size place : Nat} (hSize : 0 < size) (hPlace : place < extent) :
    place / size * size ∈ corners extent size :=
  (mem_corners hSize).mpr
    ⟨(Nat.div_mul_le_self place size).trans_lt hPlace, Nat.dvd_mul_left size (place / size)⟩

/-- A bucket of the grid has its corner at a multiple of the size and ends where the image does. -/
theorem mem_grid {width height size : Nat} {bucket : Bucket} (hSize : 0 < size) :
    bucket ∈ grid width height size ↔
      (bucket.x < width ∧ size ∣ bucket.x) ∧ (bucket.y < height ∧ size ∣ bucket.y) ∧
        bucket = ⟨bucket.x, bucket.y, min size (width - bucket.x), min size (height - bucket.y), 0⟩ := by
  unfold grid
  split
  · simp
    omega
  · simp only [List.mem_flatMap, List.mem_map]
    constructor
    · rintro ⟨y, hy, x, hx, rfl⟩
      exact ⟨(mem_corners hSize).mp hx, (mem_corners hSize).mp hy, rfl⟩
    · rintro ⟨hx, hy, hBucket⟩
      exact ⟨bucket.y, (mem_corners hSize).mpr hy, bucket.x, (mem_corners hSize).mpr hx, hBucket.symm⟩

theorem inside_of_mem_grid {width height size : Nat} {bucket : Bucket} (hSize : 0 < size)
    (h : bucket ∈ grid width height size) : bucket.Inside width height := by
  obtain ⟨⟨hx, -⟩, ⟨hy, -⟩, hBucket⟩ := (mem_grid hSize).mp h
  rw [hBucket]
  constructor <;> dsimp only <;> omega

/-- Every pixel lies in the bucket whose corner is found by rounding its coordinates down. -/
theorem exists_mem_grid {width height size : Nat} {pixel : Nat × Nat} (hSize : 0 < size)
    (hCol : pixel.1 < width) (hRow : pixel.2 < height) :
    ∃ bucket ∈ grid width height size, pixel ∈ bucket.coordinates := by
  have hLeft := corner_mem_corners hSize hCol
  have hTop := corner_mem_corners hSize hRow
  refine ⟨⟨pixel.1 / size * size, pixel.2 / size * size, min size (width - pixel.1 / size * size),
    min size (height - pixel.2 / size * size), 0⟩, ?_, ?_⟩
  · exact (mem_grid hSize).mpr ⟨(mem_corners hSize).mp hLeft, (mem_corners hSize).mp hTop, rfl⟩
  · have hAcross := Nat.div_add_mod' pixel.1 size
    have hDown := Nat.div_add_mod' pixel.2 size
    have hColumn := Nat.mod_lt pixel.1 hSize
    have hLine := Nat.mod_lt pixel.2 hSize
    rw [mem_coordinates]
    dsimp only
    omega

section Plan

variable {α : Type} [Scalar α]

/-- Sorting loses no bucket. -/
theorem sortByDistance_perm (width height : Nat) (buckets : List Bucket) :
    (sortByDistance α width height buckets).Perm buckets := by
  unfold sortByDistance
  have hSorted := List.mergeSort_perm
    (buckets.map fun bucket => ((squaredDistance width height bucket : α), bucket))
    (fun a b => Scalar.totalLe a.1 b.1)
  simpa [Function.comp_def] using hSorted.map (·.2)

theorem map_rectangle_number (buckets : List Bucket) :
    (number buckets).map rectangle = buckets.map rectangle := by
  rw [number, List.mapIdx_eq_zipIdx_map, List.map_map]
  change buckets.zipIdx.map (rectangle ∘ Prod.fst) = buckets.map rectangle
  rw [← List.map_map, List.zipIdx_map_fst]

/-- Only for buckets without extent there is no plan. -/
theorem size_pos_of_plan {width height size : Nat} {buckets : List Bucket}
    (h : plan α width height size = .ok buckets) : 0 < size := by
  unfold plan at h
  split at h
  next => cases h
  next hSize => exact Nat.pos_of_ne_zero hSize

/-- The rectangles of a plan are those of the grid in another order. -/
theorem rectangles_plan_perm {width height size : Nat} {buckets : List Bucket}
    (h : plan α width height size = .ok buckets) :
    (buckets.map rectangle).Perm ((grid width height size).map rectangle) := by
  unfold plan at h
  split at h
  · cases h
  · cases h
    rw [map_rectangle_number]
    exact (sortByDistance_perm width height _).map rectangle

theorem inside_of_mem_plan {width height size : Nat} {buckets : List Bucket} {bucket : Bucket}
    (h : plan α width height size = .ok buckets) (hSize : 0 < size) (hMem : bucket ∈ buckets) :
    bucket.Inside width height := by
  have hRectangle := (rectangles_plan_perm h).subset (List.mem_map_of_mem (f := rectangle) hMem)
  obtain ⟨origin, hOrigin, hSame⟩ := List.mem_map.mp hRectangle
  have hInside := inside_of_mem_grid hSize hOrigin
  simp only [rectangle, Rectangle.mk.injEq] at hSame
  obtain ⟨hx, hy, hWidth, hHeight⟩ := hSame
  exact ⟨hWidth ▸ hInside.width_pos, hHeight ▸ hInside.height_pos,
    hx ▸ hWidth ▸ hInside.right_le, hy ▸ hHeight ▸ hInside.bottom_le⟩

/-- Every pixel of the image is in a bucket. -/
theorem exists_mem_plan {width height size : Nat} {buckets : List Bucket} {pixel : Nat × Nat}
    (h : plan α width height size = .ok buckets) (hSize : 0 < size)
    (hCol : pixel.1 < width) (hRow : pixel.2 < height) :
    ∃ bucket ∈ buckets, pixel ∈ bucket.coordinates := by
  obtain ⟨origin, hOrigin, hPixel⟩ := exists_mem_grid hSize hCol hRow
  have hRectangle := (rectangles_plan_perm h).symm.subset (List.mem_map_of_mem (f := rectangle) hOrigin)
  obtain ⟨bucket, hMem, hSame⟩ := List.mem_map.mp hRectangle
  exact ⟨bucket, hMem, by rwa [coordinates, hSame]⟩

end Plan

end RayTracer.Bucket
