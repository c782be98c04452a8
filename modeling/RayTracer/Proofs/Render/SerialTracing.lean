import Mathlib
import RayTracer.Proofs.Render.BucketRendering
import RayTracer.Proofs.Render.DrawlessRuns

/-! Tracing pixel by pixel on one generator and rendering in buckets, where nothing is drawn. Both give every
pixel the color of the ray through its center, so they give the same image. If colors are faults, both stop
at one of them, though not at the same. -/

namespace RayTracer

/-- A loop of steps that draw nothing draws nothing. -/
theorem foldlM_lift {β γ : Type} (step : β → γ → Except Fault β) (items : List γ) (init : β) :
    items.foldlM (fun handed item => (StateT.lift (step handed item) : StateT Pcg (Except Fault) β)) init =
      StateT.lift (items.foldlM step init) := by
  induction items generalizing init with
  | nil => rfl
  | cons item items ih =>
      rw [List.foldlM_cons, List.foldlM_cons]
      cases step init item with
      | error fault => rfl
      | ok handed => exact ih handed

variable {α : Type} [Scalar α]

/-- The coloring that draws nothing and finds for a ray what a rule says of it. -/
def RayColoring.ofRule (rule : Ray α → Except Fault (Color α)) : RayColoring (Except Fault) α :=
  fun ray => StateT.lift (rule ray)

namespace Viewport

variable {view : Viewport α} {rule : Ray α → Except Fault (Color α)}

/-- The ray through the center of a pixel. -/
def centerRay (view : Viewport α) (pixel : ℕ × ℕ) : Ray α :=
  view.camera.pixelRay view.width view.height pixel 0.5 0.5

/-- A pixel written with what a rule says of its central ray. -/
def paint (view : Viewport α) (rule : Ray α → Except Fault (Color α)) (image : Image α) (pixel : ℕ × ℕ) :
    Except Fault (Image α) := do
  image.set pixel.1 pixel.2 (← rule (view.centerRay pixel))

section Center

variable (hCenter : view.samplesPerSide = 0)

include hCenter

theorem pixelColor_ofRule (pixel : ℕ × ℕ) :
    view.pixelColor (RayColoring.ofRule rule) pixel = StateT.lift (rule (view.centerRay pixel)) := by
  simp only [pixelColor, hCenter, ↓reduceIte]
  rfl

/-- A pixel by itself has the color of the ray through its center. -/
theorem ownColor_ofRule (seed : UInt64) {pixel : ℕ × ℕ} (hFit : view.width * view.height < UInt64.size)
    (hCol : pixel.1 < view.width) (hRow : pixel.2 < view.height) :
    view.ownColor (RayColoring.ofRule rule) seed pixel = rule (view.centerRay pixel) := by
  unfold ownColor
  rw [view.streamOf_eq hFit hCol hRow, pixelColor_ofRule hCenter]
  cases rule (view.centerRay pixel) <;> rfl

variable {blank : Image α} (hBlank : Image.blank view.width view.height = .ok blank)

include hBlank

/-- Tracing draws nothing either: it writes the colors of the central rays one after the other. -/
theorem traceImage_ofRule :
    view.traceImage (RayColoring.ofRule rule) =
      StateT.lift ((Image.coordinates view.width view.height).foldlM (view.paint rule) blank) := by
  have hStep (image : Image α) (pixel : ℕ × ℕ) :
      view.tracePixel (RayColoring.ofRule rule) image pixel = StateT.lift (view.paint rule image pixel) := by
    unfold tracePixel paint
    rw [pixelColor_ofRule hCenter]
    cases rule (view.centerRay pixel) <;> rfl
  have hTraced : blank.retrace view.camera view.samplesPerSide (RayColoring.ofRule rule) =
      (Image.coordinates view.width view.height).foldlM
        (view.tracePixel (RayColoring.ofRule rule)) blank := by
    obtain ⟨rfl, -⟩ := Image.blank_eq_tabulate hBlank
    exact Image.retrace_eq _ _ _ _
  unfold traceImage
  rw [hBlank]
  change blank.retrace view.camera view.samplesPerSide (RayColoring.ofRule rule) = _
  rw [hTraced, funext fun image => funext (hStep image)]
  exact foldlM_lift _ _ blank

theorem traceImage_ofRule_eq_ok {own : ℕ × ℕ → Color α}
    (hOwn : ∀ pixel : ℕ × ℕ, pixel.1 < view.width → pixel.2 < view.height →
      rule (view.centerRay pixel) = .ok (own pixel)) (generator : Pcg) :
    (view.traceImage (RayColoring.ofRule rule)).run generator =
      .ok (Image.tabulate view.width view.height own, generator) := by
  obtain ⟨hBlack, hHeld⟩ := Image.blank_eq_tabulate hBlank
  have hStep (pixel : ℕ × ℕ) (hPixel : pixel ∈ Image.coordinates view.width view.height) (image : Image α) :
      view.paint rule image pixel = image.set pixel.1 pixel.2 (own pixel) := by
    have hInside := Image.mem_coordinates.mp hPixel
    rw [paint, hOwn pixel hInside.1 hInside.2]
    rfl
  have hAll : Image.tabulate view.width view.height (fun pixel =>
      if pixel ∈ Image.coordinates view.width view.height then own pixel else Color.black) =
        Image.tabulate view.width view.height own :=
    Image.tabulate_congr fun pixel hCol hRow => if_pos (Image.mem_coordinates.mpr ⟨hCol, hRow⟩)
  rw [traceImage_ofRule hCenter hBlank, foldlM_congr_of_mem hStep, hBlack,
    foldlM_set_tabulate own (Image.count_lt_of_held hHeld) _ _ fun pixel => Image.mem_coordinates.mp, hAll]
  rfl

theorem exists_traceImage_ofRule_eq_error {pixel : ℕ × ℕ} (hCol : pixel.1 < view.width)
    (hRow : pixel.2 < view.height) {fault : Fault} (hFault : rule (view.centerRay pixel) = .error fault)
    (generator : Pcg) :
    ∃ fault, (view.traceImage (RayColoring.ofRule rule)).run generator = .error fault := by
  have hStep (image : Image α) : ∃ fault, view.paint rule image pixel = .error fault := by
    rw [paint, hFault]
    exact ⟨fault, rfl⟩
  obtain ⟨first, hTraced⟩ := exists_foldlM_eq_error (Image.mem_coordinates.mpr ⟨hCol, hRow⟩) hStep blank
  rw [traceImage_ofRule hCenter hBlank, hTraced]
  exact ⟨first, rfl⟩

end Center

/-- A color that is a fault stops a rendering in buckets of the plan. -/
theorem exists_renderBuckets_eq_error {coloring : RayColoring (Except Fault) α} {seed : UInt64} {size : ℕ}
    {blank : Image α} (hBlank : Image.blank view.width view.height = .ok blank) (hSize : 0 < size)
    {pixel : ℕ × ℕ} (hCol : pixel.1 < view.width) (hRow : pixel.2 < view.height) {fault : Fault}
    (hOwn : view.ownColor coloring seed pixel = .error fault) :
    ∃ fault, view.renderBuckets coloring seed size = .error fault := by
  obtain ⟨buckets, hPlan⟩ := view.exists_plan hSize
  obtain ⟨bucket, hBucket, hPixel⟩ := Bucket.exists_mem_plan hPlan hSize hCol hRow
  obtain ⟨first, hVisit⟩ := exists_mapM_eq_error hPixel hOwn
  have hRendered : view.renderBucket coloring seed bucket = .error first := by
    rw [view.renderBucket_of_inside seed coloring (Image.blank_eq_tabulate hBlank).2
      (Bucket.inside_of_mem_plan hPlan hSize hBucket), hVisit]
    rfl
  have hEntry : (do return (bucket, ← view.renderBucket coloring seed bucket) :
      Except Fault (Bucket × Array (Color α))) = .error first := by
    rw [hRendered]
    rfl
  obtain ⟨fault, hEach⟩ : ∃ fault, view.renderEach coloring seed buckets = .error fault := by
    rw [renderEach]
    exact exists_mapM_eq_error hBucket hEntry
  have hInOrder : view.renderInOrder coloring seed buckets = .error fault := by
    rw [renderInOrder, hEach]
    rfl
  exact ⟨fault, by rw [renderBuckets, hPlan]; exact hInOrder⟩

/-- Without an image to write to nothing is rendered. -/
theorem exists_renderBuckets_eq_error_of_blank {fault : Fault}
    (hBlank : (Image.blank view.width view.height : Except Fault (Image α)) = .error fault)
    (coloring : RayColoring (Except Fault) α) (seed : UInt64) {size : ℕ} (hSize : 0 < size) :
    ∃ fault, view.renderBuckets coloring seed size = .error fault := by
  obtain ⟨buckets, hPlan⟩ := view.exists_plan hSize
  rw [renderBuckets, hPlan]
  change ∃ fault, view.renderInOrder coloring seed buckets = .error fault
  rw [renderInOrder]
  cases view.renderEach coloring seed buckets with
  | error first => exact ⟨first, rfl⟩
  | ok rendered => exact ⟨fault, by change view.assemble rendered = _; rw [assemble, hBlank]; rfl⟩

/-- Tracing and rendering in buckets give the same image, or both of them stop at a fault. -/
theorem toOption_traceImage_ofRule (hCenter : view.samplesPerSide = 0) (generator : Pcg) (seed : UInt64)
    {size : ℕ} (hSize : 0 < size) :
    ((view.traceImage (RayColoring.ofRule rule)).run generator).toOption =
      (view.renderBuckets (RayColoring.ofRule rule) seed size).toOption.map (·, generator) := by
  cases hBlank : (Image.blank view.width view.height : Except Fault (Image α)) with
  | error fault =>
      obtain ⟨first, hBuckets⟩ := exists_renderBuckets_eq_error_of_blank hBlank (.ofRule rule) seed hSize
      rw [traceImage, hBlank, hBuckets]
      rfl
  | ok blank =>
      have hFit := Image.count_lt_of_held (Image.blank_eq_tabulate hBlank).2
      by_cases hColors : ∀ pixel : ℕ × ℕ, pixel.1 < view.width → pixel.2 < view.height →
          ∃ color, rule (view.centerRay pixel) = .ok color
      · have : Nonempty (Color α) := ⟨Color.black⟩
        choose! own hOwn using hColors
        rw [traceImage_ofRule_eq_ok hCenter hBlank hOwn, renderBuckets_eq_tabulate hBlank _ hSize]
        · rfl
        · intro pixel hCol hRow
          rw [ownColor_ofRule hCenter seed hFit hCol hRow, hOwn pixel hCol hRow]
      · push Not at hColors
        obtain ⟨pixel, hCol, hRow, hNone⟩ := hColors
        obtain ⟨fault, hFault⟩ : ∃ fault, rule (view.centerRay pixel) = .error fault := by
          cases hRule : rule (view.centerRay pixel) with
          | error fault => exact ⟨fault, rfl⟩
          | ok color => exact absurd hRule (hNone color)
        have hOwn : view.ownColor (RayColoring.ofRule rule) seed pixel = .error fault := by
          rw [ownColor_ofRule hCenter seed hFit hCol hRow, hFault]
        obtain ⟨first, hSerial⟩ := exists_traceImage_ofRule_eq_error hCenter hBlank hCol hRow hFault generator
        obtain ⟨other, hBuckets⟩ := exists_renderBuckets_eq_error hBlank hSize hCol hRow hOwn
        rw [hSerial, hBuckets]
        rfl

variable {coloring : RayColoring (Except Fault) α} (hDrawless : ∀ ray, Sampling.Drawless (coloring ray))

include hDrawless

omit [Scalar α] in
theorem exists_ofRule : ∃ rule, coloring = RayColoring.ofRule rule := by
  choose rule hRule using hDrawless
  exact ⟨rule, funext hRule⟩

/-- Tracing in order and rendering in buckets come to the same image, or neither comes to one. -/
theorem toOption_traceImage (hCenter : view.samplesPerSide = 0) (generator : Pcg) (seed : UInt64) {size : ℕ}
    (hSize : 0 < size) :
    ((view.traceImage coloring).run generator).toOption =
      (view.renderBuckets coloring seed size).toOption.map (·, generator) := by
  obtain ⟨rule, rfl⟩ := exists_ofRule hDrawless
  exact toOption_traceImage_ofRule hCenter generator seed hSize

/-- Where all rays have colors there is an image. -/
theorem exists_image_of_gives (hGives : ∀ ray, Sampling.Gives (coloring ray) fun _ => True)
    (hCenter : view.samplesPerSide = 0) {blank : Image α}
    (hBlank : Image.blank view.width view.height = .ok blank) :
    ∃ image : Image α, (image.width = view.width ∧ image.height = view.height ∧ image.isFilled = true) ∧
      (∀ generator, (view.traceImage coloring).run generator = .ok (image, generator)) ∧
      ∀ seed size, 0 < size → view.renderBuckets coloring seed size = .ok image := by
  obtain ⟨rule, rfl⟩ := exists_ofRule hDrawless
  have hColor (ray : Ray α) : ∃ color, rule ray = .ok color := by
    obtain ⟨color, rest, hRun, -⟩ := hGives ray ⟨0, 0⟩
    cases hRule : rule ray with
    | ok found => exact ⟨found, rfl⟩
    | error fault =>
        simp only [RayColoring.ofRule, hRule] at hRun
        cases hRun
  choose color hOk using hColor
  have hFit := Image.count_lt_of_held (Image.blank_eq_tabulate hBlank).2
  refine ⟨Image.tabulate view.width view.height fun pixel => color (view.centerRay pixel),
    ⟨rfl, rfl, Image.isFilled_tabulate _ _ _⟩, ?_, ?_⟩
  · exact traceImage_ofRule_eq_ok hCenter hBlank fun pixel _ _ => hOk _
  · intro seed size hSize
    refine renderBuckets_eq_tabulate hBlank (fun pixel hCol hRow => ?_) hSize
    rw [ownColor_ofRule hCenter seed hFit hCol hRow, hOk]

end Viewport

end RayTracer
