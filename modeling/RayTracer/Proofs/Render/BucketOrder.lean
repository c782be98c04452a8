import Mathlib
import RayTracer.Proofs.Binary.ExactArithmetic
import RayTracer.Proofs.Exact.Reals
import RayTracer.Proofs.Render.BucketPartition

/-! The order in which the buckets of an image are rendered. Sorting is stable and the grid lists its buckets row
by row, so buckets come by the distances that are computed for them and, where these are equal, row by row. Four
times a squared distance is a whole number. On images of up to 2 ^ 24 columns and rows binary64 computes it
exactly, and the order is the one that exact arithmetic gives. -/

namespace RayTracer

namespace Rectangle

/-- The squared distance from the center of a rectangle to that of an image. -/
noncomputable def centerDistance (width height : ℕ) (rectangle : Rectangle) : ℝ :=
  (rectangle.column + rectangle.width / 2.0 - width / 2.0) ^ 2 +
    (rectangle.row + rectangle.height / 2.0 - height / 2.0) ^ 2

/-- The corner comes first row by row. -/
def RowMajor (here there : Rectangle) : Prop :=
  here.row < there.row ∨ here.row = there.row ∧ here.column < there.column

/-- The center is nearer to that of the image, or it is as near and the corner comes first row by row. -/
def Precedes (width height : ℕ) (here there : Rectangle) : Prop :=
  here.centerDistance width height < there.centerDistance width height ∨
    here.centerDistance width height = there.centerDistance width height ∧ here.RowMajor there

variable {width height : ℕ} {here there : Rectangle}

/-- Of two rectangles only one can come first. -/
theorem RowMajor.asymm (h : here.RowMajor there) : ¬there.RowMajor here := by
  unfold RowMajor at *
  omega

/-- What precedes is not farther from the center. -/
theorem Precedes.le (h : here.Precedes width height there) :
    here.centerDistance width height ≤ there.centerDistance width height :=
  h.elim le_of_lt fun hTie => hTie.1.le

theorem Precedes.asymm (h : here.Precedes width height there) : ¬there.Precedes width height here := by
  intro hBack
  have hSame := h.le.antisymm hBack.le
  obtain hNearer | ⟨-, hRows⟩ := h
  · exact hNearer.ne hSame
  · obtain hNearer | ⟨-, hBackRows⟩ := hBack
    · exact hNearer.ne hSame.symm
    · exact hRows.asymm hBackRows

instance : Std.Irrefl (Precedes width height) := ⟨fun _ h => h.asymm h⟩

instance : Std.Antisymm (Precedes width height) := ⟨fun _ _ h hBack => absurd hBack h.asymm⟩

end Rectangle

/-- A stable sort leaves items that rank alike in the order in which they came. -/
theorem pairwise_stable_mergeSort {Item : Type} {le : Item → Item → Bool} {before : Item → Item → Prop}
    {items : List Item} (hTrans : ∀ a b c, le a b → le b c → le a c) (hTotal : ∀ a b, le a b || le b a)
    (hItems : items.Pairwise before) :
    (items.mergeSort le).Pairwise fun first second => le first second ∧ (le second first → before first second) := by
  have hSorted := List.pairwise_mergeSort (List.zipIdxLE_trans hTrans) (List.zipIdxLE_total hTotal) items.zipIdx
  have hPlaces : ((items.zipIdx.mergeSort (List.zipIdxLE le)).map Prod.snd).Nodup := by
    rw [((List.mergeSort_perm _ _).map Prod.snd).nodup_iff, List.zipIdx_map_snd]
    exact List.nodup_range'
  rw [← List.mergeSort_zipIdx, List.pairwise_map]
  refine (hSorted.and (List.pairwise_map.mp hPlaces)).imp_of_mem ?_
  rintro ⟨first, i⟩ ⟨second, j⟩ hFirst hSecond ⟨hLe, hDifferent⟩
  obtain ⟨hi, rfl⟩ := List.getElem?_eq_some_iff.mp
    (List.mk_mem_zipIdx_iff_getElem?.mp (List.mem_mergeSort.mp hFirst))
  obtain ⟨hj, rfl⟩ := List.getElem?_eq_some_iff.mp
    (List.mk_mem_zipIdx_iff_getElem?.mp (List.mem_mergeSort.mp hSecond))
  simp only [List.zipIdxLE] at hLe
  split at hLe
  next hRanked =>
    refine ⟨hRanked, fun hTie => ?_⟩
    rw [if_pos hTie, decide_eq_true_eq] at hLe
    exact List.pairwise_iff_getElem.mp hItems i j hi hj (lt_of_le_of_ne hLe hDifferent)
  next => cases hLe

/-- Only how the items of a list compare counts for sorting them. -/
theorem mergeSort_congr {Item : Type} {le other : Item → Item → Bool} {items : List Item}
    (hSame : ∀ first ∈ items, ∀ second ∈ items, le first second = other first second) :
    items.mergeSort le = items.mergeSort other := by
  have hMapped := List.map_mergeSort (f := id) hSame
  rwa [List.map_id, List.map_id] at hMapped

namespace Bucket

/-- Corners are listed in ascending order. -/
theorem pairwise_corners (extent : ℕ) {size : ℕ} (hSize : 0 < size) : (corners extent size).Pairwise (· < ·) :=
  List.pairwise_lt_range.map _ fun _ _ hLess => Nat.mul_lt_mul_of_pos_right hLess hSize

/-- The grid is listed row by row. -/
theorem pairwise_grid (width height : ℕ) {size : ℕ} (hSize : 0 < size) :
    (grid width height size).Pairwise fun here there => here.rectangle.RowMajor there.rectangle := by
  unfold grid
  split
  next => exact List.Pairwise.nil
  next =>
      rw [List.pairwise_flatMap]
      refine ⟨fun y _ => (pairwise_corners width hSize).map _ fun _ _ hLess => .inr ⟨rfl, hLess⟩, ?_⟩
      refine (pairwise_corners height hSize).imp fun {y below} hLess here hHere there hThere => ?_
      obtain ⟨_, -, rfl⟩ := List.mem_map.mp hHere
      obtain ⟨_, -, rfl⟩ := List.mem_map.mp hThere
      exact .inl hLess

section Sorting

variable {α : Type} [Scalar α] {width height size : ℕ}

/-- Sorting by keys is sorting by what they are computed from. -/
theorem sortByDistance_eq (buckets : List Bucket) :
    sortByDistance α width height buckets = buckets.mergeSort fun near far =>
      Scalar.totalLe (squaredDistance width height near : α) (squaredDistance width height far) := by
  let keyed := buckets.map fun bucket => ((squaredDistance width height bucket : α), bucket)
  let le (near far : Bucket) : Bool :=
    Scalar.totalLe (squaredDistance width height near : α) (squaredDistance width height far)
  have hKeys : ∀ near ∈ keyed, ∀ far ∈ keyed, Scalar.totalLe near.1 far.1 = le near.2 far.2 := by
    simp [keyed, le]
  have hBuckets : keyed.map Prod.snd = buckets := by simp [keyed, Function.comp_def]
  rw [sortByDistance, List.map_mergeSort hKeys, hBuckets]

theorem pairwise_number {Related : Bucket → Bucket → Prop} {buckets : List Bucket}
    (hIndex : ∀ here there i j, Related here there → Related { here with index := i } { there with index := j })
    (h : buckets.Pairwise Related) : (number buckets).Pairwise Related := by
  rw [number, List.mapIdx_eq_zipIdx_map, List.pairwise_map]
  have hFirsts : (buckets.zipIdx.map Prod.fst).Pairwise Related := by rwa [List.zipIdx_map_fst]
  exact (List.pairwise_map.mp hFirsts).imp fun hRelated => hIndex _ _ _ _ hRelated

/-- Where numbers are ranked, the nearest buckets come first and those that are as near row by row. -/
theorem pairwise_plan {buckets : List Bucket}
    (hTrans : ∀ a b c : α, Scalar.totalLe a b → Scalar.totalLe b c → Scalar.totalLe a c)
    (hTotal : ∀ a b : α, Scalar.totalLe a b || Scalar.totalLe b a)
    (hPlan : plan α width height size = .ok buckets) :
    buckets.Pairwise fun near far =>
      Scalar.totalLe (squaredDistance width height near : α) (squaredDistance width height far) ∧
        (Scalar.totalLe (squaredDistance width height far : α) (squaredDistance width height near) →
          near.rectangle.RowMajor far.rectangle) := by
  have hSize := size_pos_of_plan hPlan
  rw [plan, if_neg (Nat.ne_of_gt hSize)] at hPlan
  obtain rfl := Except.ok.inj hPlan
  refine pairwise_number (fun _ _ _ _ hRelated => hRelated) ?_
  rw [sortByDistance_eq]
  exact pairwise_stable_mergeSort (fun _ _ _ => hTrans _ _ _) (fun _ _ => hTotal _ _)
    (pairwise_grid width height hSize)

end Sorting

/-- How far the middle of a part of an extent is from the middle of the extent, in the arithmetic of `α`. -/
def offset {α : Type} [Scalar α] (corner length extent : ℕ) : α :=
  Scalar.ofNat corner + Scalar.ofNat length / 2.0 - Scalar.ofNat extent / 2.0

/-- Twice that offset. -/
def doubledOffset (corner length extent : ℕ) : ℤ := 2 * corner + length - extent

/-- Four times the squared distance from the center of a bucket to that of an image. -/
def quarterDistance (width height : ℕ) (bucket : Bucket) : ℕ :=
  let across := (doubledOffset bucket.x bucket.width width).natAbs
  let down := (doubledOffset bucket.y bucket.height height).natAbs
  across * across + down * down

/-- Over exact numbers the key of a bucket is its squared distance to the center. -/
theorem squaredDistance_exact (width height : ℕ) (bucket : Bucket) :
    (squaredDistance width height bucket : ℝ) = bucket.rectangle.centerDistance width height := by
  rw [Rectangle.centerDistance, sq, sq]
  rfl

theorem centerDistance_eq (width height : ℕ) (bucket : Bucket) :
    bucket.rectangle.centerDistance width height = quarterDistance width height bucket / 4 := by
  have hSquare (doubled : ℤ) : ((doubled.natAbs * doubled.natAbs : ℕ) : ℝ) = doubled * doubled := by
    rw [← Int.cast_mul, ← Int.natAbs_mul_self, Int.cast_natCast]
  simp only [quarterDistance, Rectangle.centerDistance, rectangle, Nat.cast_add, hSquare, doubledOffset,
    Scalar.two_exact]
  push_cast
  ring

section Binary64

variable {width height : ℕ} {bucket : Bucket}

theorem natAbs_doubledOffset_le {corner length extent : ℕ} (hInside : corner + length ≤ extent) :
    (doubledOffset corner length extent).natAbs ≤ extent := by
  unfold doubledOffset
  omega

/-- Offsets from the center are whole or half numbers, which binary64 has up to this size. -/
theorem offset_dyadic {corner length extent : ℕ} (hInside : corner + length ≤ extent) (hExtent : extent ≤ 2 ^ 24) :
    (offset corner length extent : Float) = Binary.dyadic (doubledOffset corner length extent) (-1) := by
  have hCorner : Float.ofNat corner = Binary.dyadic (corner * 2) (-1) := by
    rw [Binary.ofNat_eq_dyadic (by omega)]
    exact (Binary.dyadic_double { few := by omega } { few := by omega }).symm
  have hHalf {count : ℕ} (hCount : count ≤ 2 ^ 24) : Float.ofNat count / 2.0 = Binary.dyadic count (-1) := by
    rw [Binary.ofNat_eq_dyadic (by omega)]
    exact Binary.dyadic_half { few := by omega } (by decide)
  calc
    Float.ofNat corner + Float.ofNat length / 2.0 - Float.ofNat extent / 2.0
        = Binary.dyadic (corner * 2) (-1) + Binary.dyadic length (-1) - Binary.dyadic extent (-1) := by
          rw [hCorner, hHalf (by omega), hHalf hExtent]
    _ = Binary.dyadic (corner * 2 + length) (-1) - Binary.dyadic extent (-1) := by
          rw [Binary.dyadic_add { few := by omega } { few := by omega } { few := by omega }]
    _ = Binary.dyadic (corner * 2 + length - extent) (-1) :=
          Binary.dyadic_sub { few := by omega } { few := by omega } { few := by omega }
    _ = Binary.dyadic (doubledOffset corner length extent) (-1) := by rw [doubledOffset, mul_comm]

/-- The square of an offset. -/
theorem offset_square_dyadic {corner length extent : ℕ} (hInside : corner + length ≤ extent)
    (hExtent : extent ≤ 2 ^ 24) :
    (offset corner length extent * offset corner length extent : Float) =
      Binary.dyadic ((doubledOffset corner length extent).natAbs * (doubledOffset corner length extent).natAbs : ℕ)
        (-2) := by
  have hAbs := natAbs_doubledOffset_le hInside
  have hSquare := Nat.mul_le_mul (hAbs.trans hExtent) (hAbs.trans hExtent)
  rw [offset_dyadic hInside hExtent, Int.natAbs_mul_self]
  exact Binary.dyadic_square { few := by omega } rfl { few := by rw [Int.natAbs_mul]; omega }

theorem fits_quarterDistance (hInside : bucket.Inside width height) (hWidth : width ≤ 2 ^ 24)
    (hHeight : height ≤ 2 ^ 24) : Binary.Fits (quarterDistance width height bucket) (-2) := by
  have hAcross := (natAbs_doubledOffset_le hInside.right_le).trans hWidth
  have hDown := (natAbs_doubledOffset_le hInside.bottom_le).trans hHeight
  have hAcrossSquare := Nat.mul_le_mul hAcross hAcross
  have hDownSquare := Nat.mul_le_mul hDown hDown
  refine { few := ?_ }
  rw [Int.natAbs_natCast, quarterDistance]
  omega

/-- The key is a number of quarters, which binary64 has up to this size. -/
theorem squaredDistance_dyadic (hInside : bucket.Inside width height) (hWidth : width ≤ 2 ^ 24)
    (hHeight : height ≤ 2 ^ 24) :
    (squaredDistance width height bucket : Float) = Binary.dyadic (quarterDistance width height bucket) (-2) := by
  have hFits := fits_quarterDistance hInside hWidth hHeight
  have hFew := hFits.few
  rw [Int.natAbs_natCast, quarterDistance] at hFew
  change (offset bucket.x bucket.width width * offset bucket.x bucket.width width +
    offset bucket.y bucket.height height * offset bucket.y bucket.height height : Float) = _
  rw [offset_square_dyadic hInside.right_le hWidth, offset_square_dyadic hInside.bottom_le hHeight,
    Binary.dyadic_add { few := by omega } { few := by omega } hFits]
  rfl

/-- Binary64 ranks the buckets of an image as exact arithmetic does. -/
theorem totalLe_float {near far : Bucket} (hNear : near.Inside width height)
    (hFar : far.Inside width height) (hWidth : width ≤ 2 ^ 24) (hHeight : height ≤ 2 ^ 24) :
    Scalar.totalLe (squaredDistance width height near : Float) (squaredDistance width height far) =
      Scalar.totalLe (squaredDistance width height near : ℝ) (squaredDistance width height far) := by
  have hExact : Scalar.totalLe (squaredDistance width height near : ℝ) (squaredDistance width height far) =
      decide (quarterDistance width height near ≤ quarterDistance width height far) := by
    change decide ((squaredDistance width height near : ℝ) ≤ squaredDistance width height far) = _
    rw [decide_eq_decide, squaredDistance_exact, squaredDistance_exact, centerDistance_eq, centerDistance_eq,
      div_le_div_iff_of_pos_right four_pos, Nat.cast_le]
  rw [squaredDistance_dyadic hNear hWidth hHeight, squaredDistance_dyadic hFar hWidth hHeight, hExact]
  exact Binary.totalLe_dyadic (fits_quarterDistance hNear hWidth hHeight) (fits_quarterDistance hFar hWidth hHeight)

end Binary64

/-- The buckets of a list are those that an image is cut into, each numbered by its place. -/
structure CutsUp (width height size : ℕ) (buckets : List Bucket) : Prop where
  mem_iff : ∀ piece, piece ∈ buckets.map rectangle ↔
    (piece.column < width ∧ size ∣ piece.column ∧ piece.width = min size (width - piece.column)) ∧
      piece.row < height ∧ size ∣ piece.row ∧ piece.height = min size (height - piece.row)
  index_eq : ∀ i (hi : i < buckets.length), buckets[i].index = i

variable {width height size : ℕ} {buckets others : List Bucket}

/-- Whatever the arithmetic, the plan cuts up the image. -/
theorem cutsUp_plan {α : Type} [Scalar α] (hSize : 0 < size) (hPlan : plan α width height size = .ok buckets) :
    CutsUp width height size buckets := by
  refine ⟨fun piece => ?_, fun i hi => index_plan hPlan hi⟩
  rw [(rectangles_plan_perm hPlan).mem_iff, List.mem_map]
  constructor
  · rintro ⟨bucket, hBucket, rfl⟩
    obtain ⟨hColumn, hRow, hShape⟩ := (mem_grid hSize).mp hBucket
    rw [Bucket.mk.injEq] at hShape
    exact ⟨⟨hColumn.1, hColumn.2, hShape.2.2.1⟩, hRow.1, hRow.2, hShape.2.2.2.1⟩
  · rintro ⟨⟨hColumn, hAcross, hWidth⟩, hRow, hDown, hHeight⟩
    refine ⟨⟨piece.column, piece.row, piece.width, piece.height, 0⟩, (mem_grid hSize).mpr ?_, rfl⟩
    exact ⟨⟨hColumn, hAcross⟩, ⟨hRow, hDown⟩, by rw [hWidth, hHeight]⟩

theorem eq_of_rectangle_eq {bucket other : Bucket} (hRectangle : bucket.rectangle = other.rectangle)
    (hIndex : bucket.index = other.index) : bucket = other := by
  obtain ⟨x, y, width, height, index⟩ := bucket
  simp only [rectangle, Rectangle.mk.injEq] at hRectangle
  obtain ⟨rfl, rfl, rfl, rfl⟩ := hRectangle
  exact congrArg (Bucket.mk _ _ _ _) hIndex

/-- The order of their rectangles determines the buckets of an image. -/
theorem CutsUp.unique (hBuckets : CutsUp width height size buckets) (hOthers : CutsUp width height size others)
    (hOrder : (buckets.map rectangle).Pairwise (Rectangle.Precedes width height))
    (hOtherOrder : (others.map rectangle).Pairwise (Rectangle.Precedes width height)) : others = buckets := by
  have hRectangles : others.map rectangle = buckets.map rectangle :=
    hOtherOrder.eq_of_mem_iff hOrder fun piece => (hOthers.mem_iff piece).trans (hBuckets.mem_iff piece).symm
  have hLength : others.length = buckets.length := by simpa using congrArg List.length hRectangles
  refine List.ext_getElem hLength fun i hi hi' => ?_
  have hRectangle := List.getElem_of_eq hRectangles (i := i) (by rwa [List.length_map])
  rw [List.getElem_map, List.getElem_map] at hRectangle
  exact eq_of_rectangle_eq hRectangle ((hOthers.index_eq i hi).trans (hBuckets.index_eq i hi').symm)

/-- Exact distances order the buckets of an image strictly. -/
theorem precedes_plan (hPlan : plan ℝ width height size = .ok buckets) :
    (buckets.map rectangle).Pairwise (Rectangle.Precedes width height) := by
  have hTrans (a b c : ℝ) (hFirst : Scalar.totalLe a b) (hSecond : Scalar.totalLe b c) : Scalar.totalLe a c :=
    decide_eq_true ((of_decide_eq_true hFirst).trans (of_decide_eq_true hSecond))
  have hTotal (a b : ℝ) : Scalar.totalLe a b || Scalar.totalLe b a := by
    rw [Bool.or_eq_true]
    exact (le_total a b).imp decide_eq_true decide_eq_true
  rw [List.pairwise_map]
  refine (pairwise_plan hTrans hTotal hPlan).imp fun {near far} hOrder => ?_
  have hLe : near.rectangle.centerDistance width height ≤ far.rectangle.centerDistance width height := by
    rw [← squaredDistance_exact, ← squaredDistance_exact]
    exact of_decide_eq_true hOrder.1
  rcases hLe.lt_or_eq with hNearer | hSame
  · exact .inl hNearer
  · refine .inr ⟨hSame, hOrder.2 (decide_eq_true ?_)⟩
    rw [squaredDistance_exact, squaredDistance_exact]
    exact hSame.ge

/-- On images that are not too large binary64 computes the order that exact arithmetic gives. -/
theorem plan_float (hWidth : width ≤ 2 ^ 24) (hHeight : height ≤ 2 ^ 24) :
    plan Float width height size = plan ℝ width height size := by
  unfold plan
  split
  next => rfl
  next hSize =>
    rw [sortByDistance_eq, sortByDistance_eq, mergeSort_congr]
    intro near hNear far hFar
    exact totalLe_float (inside_of_mem_grid (Nat.pos_of_ne_zero hSize) hNear)
      (inside_of_mem_grid (Nat.pos_of_ne_zero hSize) hFar) hWidth hHeight

theorem exists_first_plan (hSize : 0 < size) (hWidth : 0 < width) (hHeight : 0 < height)
    (hPlan : plan ℝ width height size = .ok buckets) :
    ∃ first rest, buckets = first :: rest ∧ ∀ bucket ∈ buckets,
      first.rectangle.centerDistance width height ≤ bucket.rectangle.centerDistance width height := by
  obtain ⟨bucket, hBucket, -⟩ : ∃ bucket ∈ buckets, (0, 0) ∈ bucket.coordinates :=
    exists_mem_plan hPlan hSize hWidth hHeight
  obtain ⟨first, rest, rfl⟩ := List.exists_cons_of_ne_nil (List.ne_nil_of_mem hBucket)
  refine ⟨first, rest, rfl, fun bucket hBucket => ?_⟩
  have hOrder := List.pairwise_map.mp (precedes_plan hPlan)
  rcases List.mem_cons.mp hBucket with rfl | hRest
  · exact le_rfl
  · exact (List.rel_of_pairwise_cons hOrder hRest).le

/-- The buckets of an image come by their computed distances from its center and, where these are equal, row by
row. With exact distances this order determines the list and begins with a bucket that is nearest to the center,
and on images of up to 2 ^ 24 columns and rows binary64 gives the same list. -/
theorem plan_nearest_first (width height : ℕ) {size : ℕ} (hSize : 0 < size) :
    (∃ buckets, plan Float width height size = .ok buckets ∧ CutsUp width height size buckets ∧
      buckets.Pairwise fun near far =>
        Scalar.totalLe (squaredDistance width height near : Float) (squaredDistance width height far) ∧
          (Scalar.totalLe (squaredDistance width height far : Float) (squaredDistance width height near) →
            near.rectangle.RowMajor far.rectangle)) ∧
    ∃ buckets, plan ℝ width height size = .ok buckets ∧ CutsUp width height size buckets ∧
      (buckets.map rectangle).Pairwise (Rectangle.Precedes width height) ∧
      (∀ others, CutsUp width height size others →
        (others.map rectangle).Pairwise (Rectangle.Precedes width height) → others = buckets) ∧
      (0 < width → 0 < height → ∃ first rest, buckets = first :: rest ∧ ∀ bucket ∈ buckets,
        first.rectangle.centerDistance width height ≤ bucket.rectangle.centerDistance width height) ∧
      (width ≤ 2 ^ 24 → height ≤ 2 ^ 24 → plan Float width height size = .ok buckets) := by
  have hPlans (α : Type) [Scalar α] : ∃ buckets, plan α width height size = .ok buckets := by
    simp [plan, Nat.ne_of_gt hSize]
  constructor
  · obtain ⟨buckets, hPlan⟩ := hPlans Float
    have hTrans (a b c : Float) (hFirst : Scalar.totalLe a b) (hSecond : Scalar.totalLe b c) : Scalar.totalLe a c :=
      decide_eq_true ((of_decide_eq_true hFirst).trans (of_decide_eq_true hSecond))
    have hTotal (a b : Float) : Scalar.totalLe a b || Scalar.totalLe b a := by
      rw [Bool.or_eq_true]
      exact (le_total _ _).imp decide_eq_true decide_eq_true
    exact ⟨buckets, hPlan, cutsUp_plan hSize hPlan, pairwise_plan hTrans hTotal hPlan⟩
  · obtain ⟨buckets, hPlan⟩ := hPlans ℝ
    refine ⟨buckets, hPlan, cutsUp_plan hSize hPlan, precedes_plan hPlan, fun others hOthers hOrder => ?_,
      fun hWidth hHeight => exists_first_plan hSize hWidth hHeight hPlan,
      fun hWidth hHeight => (plan_float hWidth hHeight).trans hPlan⟩
    exact (cutsUp_plan hSize hPlan).unique hOthers (precedes_plan hPlan) hOrder

/-- Three by three buckets around the center of an image, the outer ones cut off at two of its edges. -/
theorem plan_nearest_first_ragged :
    0 < 64 ∧ ∃ buckets, plan Float 150 180 64 = .ok buckets ∧ CutsUp 150 180 64 buckets ∧
      (buckets.map rectangle).Pairwise (Rectangle.Precedes 150 180) := by
  have hSize : 0 < 64 := by decide
  obtain ⟨-, buckets, -, hCut, hOrder, -, -, hFloat⟩ := plan_nearest_first 150 180 hSize
  exact ⟨hSize, buckets, hFloat (by decide) (by decide), hCut, hOrder⟩

end Bucket

end RayTracer
