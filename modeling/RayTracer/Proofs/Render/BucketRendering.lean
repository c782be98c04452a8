import Mathlib
import RayTracer.Proofs.Render.BucketTiling

/-! Rendering in buckets gives every pixel the color that is computed for it alone. The image depends neither
on the size of the buckets nor on the orders in which they are rendered and written, and no bucket, position
or stream of it is out of range. -/

namespace RayTracer

variable {α : Type} [Scalar α]

/-- The coloring that gives every ray a color and passes a generator on. -/
def RayColoring.ofFunction (color : Ray α → Pcg → Color α × Pcg) : RayColoring (Except Fault) α :=
  fun ray generator => .ok (color ray generator)

def Bucket.colored (rule : Nat × Nat → Color α) (bucket : Bucket) : Bucket × Array (Color α) :=
  (bucket, (bucket.coordinates.map rule).toArray)

namespace Viewport

/-- A sum of colors and a generator after one more sample: a place across and a place down are drawn, and
the ray through them is colored with the generator that is left. The screen is measured across from the left
and upwards from the bottom, so rows count down from its top. -/
def addSample (view : Viewport α) (color : Ray α → Pcg → Color α × Pcg) (pixel : Nat × Nat)
    (sum : Color α × Pcg) (cell : Nat × Nat) : Color α × Pcg :=
  let (across, afterAcross) : α × Pcg := sum.2.drawUnit
  let (down, afterDown) : α × Pcg := afterAcross.drawUnit
  let right := (Scalar.ofNat cell.1 + across) / Scalar.ofNat view.samplesPerSide
  let below := (Scalar.ofNat cell.2 + down) / Scalar.ofNat view.samplesPerSide
  let (sample, rest) := color
    (view.camera.ray ((Scalar.ofNat pixel.1 + right) / Scalar.ofNat view.width)
      (1.0 - (Scalar.ofNat pixel.2 + below) / Scalar.ofNat view.height)) afterDown
  (sum.1 + sample, rest)

/-- The color of a pixel computed from nothing but a fresh generator on the stream of the pixel. Cells are
numbered row by row. -/
def lonePixel (view : Viewport α) (color : Ray α → Pcg → Color α × Pcg) (seed : UInt64)
    (pixel : Nat × Nat) : Color α :=
  let n := view.samplesPerSide
  let fresh := Pcg.seeded seed (UInt64.ofNat (pixel.2 * view.width + pixel.1))
  if n = 0 then
    (color (view.camera.ray ((Scalar.ofNat pixel.1 + 0.5) / Scalar.ofNat view.width)
      (1.0 - (Scalar.ofNat pixel.2 + 0.5) / Scalar.ofNat view.height)) fresh).1
  else
    let cells := (List.range (n * n)).map fun place => (place % n, place / n)
    (cells.foldl (view.addSample color pixel) (Color.black, fresh)).1
      * (1.0 / Scalar.ofNat (n * n) : α)

variable (view : Viewport α) (color : Ray α → Pcg → Color α × Pcg) (seed : UInt64)

/-- The cells of a pixel are sampled one after the other, each with what the last one left of the generator. -/
theorem sumCells_ofFunction (pixel : Nat × Nat) (cells : List (Nat × Nat)) (sum : Color α)
    (generator : Pcg) :
    view.sumCells (RayColoring.ofFunction color) pixel cells sum generator =
      .ok (cells.foldl (view.addSample color pixel) (sum, generator)) := by
  induction cells generalizing sum generator with
  | nil => rfl
  | cons cell cells ih => exact ih _ _

omit [Scalar α] in
/-- The stream of a pixel inside the image is counted without overflow. -/
theorem streamOf_eq {pixel : Nat × Nat} (hFit : view.width * view.height < UInt64.size)
    (hCol : pixel.1 < view.width) (hRow : pixel.2 < view.height) :
    Bucket.streamOf view.width pixel = .ok (pixel.2 * view.width + pixel.1) := by
  have hOffset := Image.offset_lt hCol hRow
  have hProduct : pixel.2 * view.width < UInt64.size := by omega
  have hSum : pixel.2 * view.width + pixel.1 < UInt64.size := by omega
  simp [Bucket.streamOf, mulSizes, addSizes, hProduct, hSum, bind, Except.bind]

/-- A pixel by itself gets the color of its own samples. -/
theorem ownColor_ofFunction {pixel : Nat × Nat}
    (hCells : view.samplesPerSide * view.samplesPerSide < UInt32.size)
    (hFit : view.width * view.height < UInt64.size) (hCol : pixel.1 < view.width) (hRow : pixel.2 < view.height) :
    view.ownColor (RayColoring.ofFunction color) seed pixel = .ok (view.lonePixel color seed pixel) := by
  unfold ownColor lonePixel
  rw [view.streamOf_eq hFit hCol hRow]
  by_cases hCenter : view.samplesPerSide = 0
  · simp only [pixelColor, hCenter, ↓reduceIte]
    rfl
  · simp only [pixelColor, mulCounts, hCells, hCenter, ↓reduceIte, Image.coordinates_eq_map_range, StateT.run, bind,
      StateT.bind, Except.bind, sumCells_ofFunction]
    rfl

/-- Cells that are too many to be counted leave a pixel without a color, once all of them have been visited. -/
theorem ownColor_ofFunction_eq_error {pixel : Nat × Nat}
    (hCells : UInt32.size ≤ view.samplesPerSide * view.samplesPerSide)
    (hFit : view.width * view.height < UInt64.size) (hCol : pixel.1 < view.width) (hRow : pixel.2 < view.height) :
    view.ownColor (RayColoring.ofFunction color) seed pixel = .error .productOverflow := by
  have hMany : view.samplesPerSide ≠ 0 := by
    rintro hNone
    rw [hNone] at hCells
    exact absurd hCells (by decide)
  unfold ownColor
  rw [view.streamOf_eq hFit hCol hRow]
  simp only [pixelColor, mulCounts, hCells.not_gt, hMany, ↓reduceIte, StateT.run, bind, StateT.bind, Except.bind,
    sumCells_ofFunction]
  rfl

section Coloring

variable (coloring : RayColoring (Except Fault) α)

/-- A bucket inside the image is rendered pixel by pixel, and nothing else about it is a fault. -/
theorem renderBucket_of_inside {bucket : Bucket}
    (hHeld : view.width * view.height * Image.pixelBytes < UInt64.size / 2)
    (hInside : bucket.Inside view.width view.height) :
    view.renderBucket coloring seed bucket =
      List.toArray <$> bucket.coordinates.mapM (view.ownColor coloring seed) := by
  have hRight := hInside.right_le
  have hBottom := hInside.bottom_le
  have hWidthPos := hInside.width_pos
  have hHeightPos := hInside.height_pos
  have hWidth : view.width ≤ view.width * view.height := Nat.le_mul_of_pos_right _ (by omega)
  have hHeight : view.height ≤ view.width * view.height := Nat.le_mul_of_pos_left _ (by omega)
  have hFit := Image.count_lt_of_held hHeld
  have hCount := hInside.pixelCount_eq hFit
  have hBuffer : Image.checkBuffer (bucket.width * bucket.height) = .ok () := by
    have hBytes : bucket.width * bucket.height * Image.pixelBytes < UInt64.size / 2 :=
      (Nat.mul_le_mul_right _ hInside.area_le).trans_lt hHeld
    simp [Image.checkBuffer, hBytes]
  have hDown : addSizes bucket.y bucket.height = .ok (bucket.y + bucket.height) := by
    simp [addSizes, show bucket.y + bucket.height < UInt64.size by omega]
  have hAcross : addSizes bucket.x bucket.width = .ok (bucket.x + bucket.width) := by
    simp [addSizes, show bucket.x + bucket.width < UInt64.size by omega]
  simp only [renderBucket, hCount, hBuffer, hDown, hAcross, Rectangle.visit_eq, bind, Except.bind,
    Nat.ne_of_gt hHeightPos, ne_eq, not_false_eq_true, ↓reduceIte]
  rfl

variable {coloring} {own : Nat × Nat → Color α}

/-- Where all pixels have colors of their own, all buckets inside the image are rendered, and what one gives
does not depend on the others. -/
theorem renderEach_eq_map_colored {buckets : List Bucket}
    (hOwn : ∀ pixel : Nat × Nat, pixel.1 < view.width → pixel.2 < view.height →
      view.ownColor coloring seed pixel = .ok (own pixel))
    (hHeld : view.width * view.height * Image.pixelBytes < UInt64.size / 2)
    (hInside : ∀ bucket ∈ buckets, bucket.Inside view.width view.height) :
    view.renderEach coloring seed buckets = .ok (buckets.map (Bucket.colored own)) := by
  apply mapM_eq_ok_map
  intro bucket hMem
  have hPixels : bucket.coordinates.mapM (view.ownColor coloring seed) =
      .ok (bucket.coordinates.map own) := by
    apply mapM_eq_ok_map
    intro pixel hPixel
    have hPlace := (hInside bucket hMem).mem_coordinates hPixel
    exact hOwn pixel hPlace.1 hPlace.2
  rw [view.renderBucket_of_inside seed coloring hHeld (hInside bucket hMem), hPixels]
  rfl

end Coloring

end Viewport

section Writing

omit [Scalar α]

theorem zipIdx_map_range {β : Type} (f : Nat → β) (count : Nat) :
    ((List.range count).map f).zipIdx = (List.range count).map fun place => (f place, place) := by
  apply List.ext_getElem
  · simp
  · intro place _ _
    simp

/-- Writing by places inside the bucket is writing along its positions. -/
theorem writeBucket_eq_foldlM (image : Image α) (bucket : Bucket) (rule : Nat × Nat → Color α) :
    Viewport.writeBucket image bucket (bucket.coordinates.map rule).toArray =
      bucket.coordinates.foldlM
        (fun image pixel => image.set pixel.1 pixel.2 (rule pixel)) image := by
  simp only [Viewport.writeBucket, Bucket.coordinates, Bucket.rectangle,
    Rectangle.positions_eq_map_range, List.map_map, zipIdx_map_range, List.foldlM_map, Function.comp_def]

/-- Written positions have the color of the one rule and all others that of the other. -/
theorem foldlM_set_tabulate {width height : Nat} (own : Nat × Nat → Color α)
    (hFit : width * height < UInt64.size) (pixels : List (Nat × Nat)) (rule : Nat × Nat → Color α)
    (hInside : ∀ pixel ∈ pixels, pixel.1 < width ∧ pixel.2 < height) :
    pixels.foldlM (fun image pixel => image.set pixel.1 pixel.2 (own pixel))
        (Image.tabulate width height rule) =
      .ok (Image.tabulate width height fun pixel => if pixel ∈ pixels then own pixel else rule pixel) := by
  induction pixels generalizing rule with
  | nil => simp [pure, Except.pure]
  | cons first rest ih =>
      have hFirst := hInside first List.mem_cons_self
      have hRest := ih (Function.update rule first (own first))
        fun pixel hPixel => hInside pixel (List.mem_cons_of_mem first hPixel)
      rw [List.foldlM_cons, Image.set_tabulate rule (own first) hFit hFirst.1 hFirst.2]
      refine hRest.trans ?_
      congr 2
      funext pixel
      by_cases hSame : pixel = first
      · simp [hSame]
      · simp [hSame]

/-- Writing the colors of buckets fills in what they reach, in whatever order they come. -/
theorem foldlM_writeBucket_tabulate {width height : Nat} (own : Nat × Nat → Color α)
    (hFit : width * height < UInt64.size) (buckets : List Bucket) (rule : Nat × Nat → Color α)
    (hInside : ∀ bucket ∈ buckets, bucket.Inside width height) :
    (buckets.map (Bucket.colored own)).foldlM
        (fun image (bucket, colors) => Viewport.writeBucket image bucket colors)
        (Image.tabulate width height rule) =
      .ok (Image.tabulate width height fun pixel =>
        if pixel ∈ buckets.flatMap Bucket.coordinates then own pixel else rule pixel) := by
  simp only [Bucket.colored, List.foldlM_map, writeBucket_eq_foldlM]
  induction buckets generalizing rule with
  | nil => simp [pure, Except.pure]
  | cons first rest ih =>
      have hFirst := hInside first List.mem_cons_self
      have hWritten := foldlM_set_tabulate own hFit first.coordinates rule
        fun pixel hPixel => hFirst.mem_coordinates hPixel
      rw [List.foldlM_cons, hWritten]
      refine (ih _ fun bucket hBucket => hInside bucket (List.mem_cons_of_mem first hBucket)).trans ?_
      congr 2
      funext pixel
      simp only [List.flatMap_cons, List.mem_append]
      by_cases hRest : pixel ∈ rest.flatMap Bucket.coordinates
      · simp [hRest]
      · simp [hRest]

/-- What is rendered of buckets is determined by the buckets, so an order of the one is an order of the
other. -/
theorem eq_map_colored_of_perm {own : Nat × Nat → Color α} {buckets : List Bucket}
    {written : List (Bucket × Array (Color α))}
    (hWritten : written.Perm (buckets.map (Bucket.colored own))) :
    written = (written.map Prod.fst).map (Bucket.colored own) := by
  rw [List.map_map]
  conv_lhs => rw [← List.map_id written]
  apply List.map_congr_left
  intro entry hEntry
  obtain ⟨bucket, -, rfl⟩ := List.mem_map.mp (hWritten.subset hEntry)
  rfl

end Writing

namespace Viewport

variable (view : Viewport α)

/-- Buckets that reach all pixels make up the image of the colors computed alone, written in any order. -/
theorem assemble_eq_tabulate {buckets : List Bucket} {written : List (Bucket × Array (Color α))}
    {blank : Image α} (own : Nat × Nat → Color α)
    (hBlank : Image.blank view.width view.height = .ok blank)
    (hInside : ∀ bucket ∈ buckets, bucket.Inside view.width view.height)
    (hReached : ∀ pixel : Nat × Nat, pixel.1 < view.width → pixel.2 < view.height →
      ∃ bucket ∈ buckets, pixel ∈ bucket.coordinates)
    (hWritten : written.Perm (buckets.map (Bucket.colored own))) :
    view.assemble written = .ok (Image.tabulate view.width view.height own) := by
  obtain ⟨hBlack, hHeld⟩ := Image.blank_eq_tabulate hBlank
  have hFit := Image.count_lt_of_held hHeld
  have hOrder : (written.map Prod.fst).Perm buckets := by
    have hFirsts := hWritten.map Prod.fst
    rwa [List.map_map, show Prod.fst ∘ Bucket.colored own = id from rfl, List.map_id] at hFirsts
  rw [eq_map_colored_of_perm hWritten, assemble, hBlank, hBlack]
  refine (foldlM_writeBucket_tabulate own hFit _ _
    fun bucket hBucket => hInside bucket (hOrder.subset hBucket)).trans ?_
  congr 1
  apply Image.tabulate_congr
  intro pixel hCol hRow
  obtain ⟨bucket, hBucket, hPixel⟩ := hReached pixel hCol hRow
  rw [if_pos (List.mem_flatMap.mpr ⟨bucket, hOrder.symm.subset hBucket, hPixel⟩)]

theorem exists_plan {size : Nat} (hSize : 0 < size) :
    ∃ buckets, Bucket.plan α view.width view.height size = .ok buckets := by
  simp [Bucket.plan, Nat.ne_of_gt hSize]

section Orders

variable {view} {coloring : RayColoring (Except Fault) α} {seed : UInt64} {own : Nat × Nat → Color α}
  {blank : Image α} {size : Nat}

/-- The buckets of a plan in any order, and what they give written in any order. -/
theorem exists_renderEach_of_own (hBlank : Image.blank view.width view.height = .ok blank)
    (hOwn : ∀ pixel : Nat × Nat, pixel.1 < view.width → pixel.2 < view.height →
      view.ownColor coloring seed pixel = .ok (own pixel))
    (hSize : 0 < size) {buckets order : List Bucket}
    (hPlan : Bucket.plan α view.width view.height size = .ok buckets) (hOrder : order.Perm buckets) :
    ∃ rendered, view.renderEach coloring seed order = .ok rendered ∧
      ∀ written : List (Bucket × Array (Color α)), written.Perm rendered →
        view.assemble written = .ok (Image.tabulate view.width view.height own) := by
  have hHeld := (Image.blank_eq_tabulate hBlank).2
  have hInside (bucket : Bucket) (hMem : bucket ∈ order) : bucket.Inside view.width view.height :=
    Bucket.inside_of_mem_plan hPlan hSize (hOrder.subset hMem)
  refine ⟨_, view.renderEach_eq_map_colored seed hOwn hHeld hInside, fun written hWritten => ?_⟩
  refine view.assemble_eq_tabulate own hBlank hInside (fun pixel hCol hRow => ?_) hWritten
  obtain ⟨bucket, hBucket, hPixel⟩ := Bucket.exists_mem_plan hPlan hSize hCol hRow
  exact ⟨bucket, hOrder.symm.subset hBucket, hPixel⟩

/-- If every pixel by itself gets a color, the image is made of these colors. -/
theorem renderBuckets_eq_tabulate (hBlank : Image.blank view.width view.height = .ok blank)
    (hOwn : ∀ pixel : Nat × Nat, pixel.1 < view.width → pixel.2 < view.height →
      view.ownColor coloring seed pixel = .ok (own pixel))
    (hSize : 0 < size) :
    view.renderBuckets coloring seed size = .ok (Image.tabulate view.width view.height own) := by
  obtain ⟨buckets, hPlan⟩ := view.exists_plan hSize
  obtain ⟨rendered, hRendered, hAssembled⟩ :=
    exists_renderEach_of_own hBlank hOwn hSize hPlan (List.Perm.refl buckets)
  rw [renderBuckets, hPlan]
  change view.renderInOrder coloring seed buckets = _
  rw [renderInOrder, hRendered]
  exact hAssembled rendered (List.Perm.refl rendered)

end Orders

/-- The image of a view has at every pixel the color that is computed for this pixel alone, as long as the cells of
a pixel can be counted. It is the same for all sizes of buckets, for all orders in which they are rendered and for
all orders in which what they give is written; none of this meets a fault. -/
theorem renderBuckets_eq_lonePixels (color : Ray α → Pcg → Color α × Pcg) (seed : UInt64)
    (hCells : view.samplesPerSide * view.samplesPerSide < UInt32.size) {blank : Image α}
    (hBlank : Image.blank view.width view.height = .ok blank) :
    ∃ image : Image α,
      (image.width = view.width ∧ image.height = view.height ∧ image.isFilled = true) ∧
      (∀ col row, col < view.width → row < view.height →
        image.get col row = .ok (view.lonePixel color seed (col, row))) ∧
      ∀ size, 0 < size →
        view.renderBuckets (RayColoring.ofFunction color) seed size = .ok image ∧
        ∃ buckets, Bucket.plan α view.width view.height size = .ok buckets ∧
          ∀ order : List Bucket, order.Perm buckets →
            ∃ rendered, view.renderEach (RayColoring.ofFunction color) seed order = .ok rendered ∧
              ∀ written : List (Bucket × Array (Color α)), written.Perm rendered →
                view.assemble written = .ok image := by
  have hFit := Image.count_lt_of_held (Image.blank_eq_tabulate hBlank).2
  have hOwn (pixel : Nat × Nat) (hCol : pixel.1 < view.width) (hRow : pixel.2 < view.height) :=
    view.ownColor_ofFunction color seed hCells hFit hCol hRow
  refine ⟨Image.tabulate view.width view.height (view.lonePixel color seed),
    ⟨rfl, rfl, Image.isFilled_tabulate _ _ _⟩,
    fun col row hCol hRow => Image.get_tabulate _ hFit hCol hRow, ?_⟩
  intro size hSize
  obtain ⟨buckets, hPlan⟩ := view.exists_plan hSize
  exact ⟨renderBuckets_eq_tabulate hBlank hOwn hSize, buckets, hPlan,
    fun order hOrder => exists_renderEach_of_own hBlank hOwn hSize hPlan hOrder⟩

/-- A view whose sides are no multiples of the sizes of most buckets, with four cells in every pixel. -/
def ragged : Viewport Float :=
  ⟨⟨.perspective 1.0, 1.5, Transformation.identity⟩, 5, 3, 2⟩

def noisy (ray : Ray Float) (generator : Pcg) : Color Float × Pcg :=
  let (noise, rest) : Float × Pcg := generator.drawUnit
  (⟨noise, ray.direction.y, ray.direction.z⟩, rest)

/-- The buckets of two pixels a side are cut off at both edges, that of sixty-four pixels is cut down. -/
theorem renderBuckets_ragged :
    ragged.samplesPerSide * ragged.samplesPerSide < UInt32.size ∧
      (Image.blank ragged.width ragged.height : Except Fault (Image Float)) =
        .ok (Image.tabulate 5 3 fun _ => Color.black) ∧
      ∃ image : Image Float, image.get 4 2 = .ok (ragged.lonePixel noisy 42 (4, 2)) ∧
        ragged.renderBuckets (RayColoring.ofFunction noisy) 42 2 = .ok image ∧
        ragged.renderBuckets (RayColoring.ofFunction noisy) 42 64 = .ok image := by
  have hBlank : (Image.blank ragged.width ragged.height : Except Fault (Image Float)) =
      .ok (Image.tabulate 5 3 fun _ => Color.black) := rfl
  have hCells : ragged.samplesPerSide * ragged.samplesPerSide < UInt32.size := by decide
  obtain ⟨image, -, hPixels, hSizes⟩ := renderBuckets_eq_lonePixels ragged noisy 42 hCells hBlank
  exact ⟨hCells, hBlank, image, hPixels 4 2 (by decide) (by decide), (hSizes 2 (by decide)).1,
    (hSizes 64 (by decide)).1⟩

end Viewport

end RayTracer
