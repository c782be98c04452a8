import Mathlib
import RayTracer.Proofs.Render.CallSequence
import RayTracer.Proofs.Render.PixelStreams

/-! The calls behind the pixels of an image that has been rendered. A coloring may end at a fault. Where it does
not, every pixel is the blend of as many calls as there are rays for a pixel, each made with the generator that
the one before has left, whether the image was traced pixel by pixel or put together from buckets. -/

namespace RayTracer

variable {α : Type} [Scalar α]

namespace Viewport

/-- Calls of a coloring that follow each other, from a number on. Each has the ray that is due at its number and
the generator that was left before it. -/
inductive Calls (view : Viewport α) (coloring : RayColoring (Except Fault) α) :
    ℕ → Pcg → List (Call α) → Pcg → Prop where
  | done (number : ℕ) (generator : Pcg) : Calls view coloring number generator [] generator
  | next {number : ℕ} {generator last : Pcg} {call : Call α} {calls : List (Call α)}
      (aimed : (call.ray, call.given) = view.aim number generator)
      (answered : (coloring call.ray).run call.given = .ok (call.color, call.left))
      (rest : Calls view coloring (number + 1) call.left calls last) :
      Calls view coloring number generator (call :: calls) last

variable {view : Viewport α} {coloring : RayColoring (Except Fault) α} {generator last : Pcg}

/-- The ray that is due for a pixel without cells goes through its center. -/
theorem aim_center (hCenter : view.samplesPerSide = 0) (place : ℕ) (generator : Pcg) :
    view.aim (place * view.raysPerPixel) generator =
      (view.camera.pixelRay view.width view.height (view.pixelAt place) 0.5 0.5, generator) := by
  have hRays : view.raysPerPixel = 1 := if_pos hCenter
  rw [aim, hRays, Nat.mul_one, Nat.div_one, if_pos hCenter, Camera.pixelRay]

/-- The ray that is due for a cell of a pixel. -/
theorem aim_cell (hCells : view.samplesPerSide ≠ 0) {place number : ℕ}
    (hNumber : number < view.samplesPerSide * view.samplesPerSide) (generator : Pcg) :
    view.aim (place * (view.samplesPerSide * view.samplesPerSide) + number) generator =
      let across : α × Pcg := generator.drawUnit
      let down : α × Pcg := across.2.drawUnit
      (view.camera.pixelRay view.width view.height (view.pixelAt place)
        (view.withinPixel (view.cellAt number).1 across.1) (view.withinPixel (view.cellAt number).2 down.1),
        down.2) := by
  have hSquare : 0 < view.samplesPerSide * view.samplesPerSide := Nat.zero_lt_of_lt hNumber
  have hRays : view.raysPerPixel = view.samplesPerSide * view.samplesPerSide := if_neg hCells
  rw [aim, hRays, Nat.mul_comm place, Nat.mul_add_div hSquare, Nat.div_eq_of_lt hNumber, Nat.add_zero,
    Nat.mul_add_mod, Nat.mod_eq_of_lt hNumber, if_neg hCells]
  rfl

theorem calls_of_cellColor (hCells : view.samplesPerSide ≠ 0) {place number : ℕ}
    (hNumber : number < view.samplesPerSide * view.samplesPerSide) {color : Color α}
    (h : (view.cellColor coloring (view.pixelAt place) (view.cellAt number)).run generator = .ok (color, last)) :
    ∃ call : Call α, call.color = color ∧ call.left = last ∧
      (call.ray, call.given) = view.aim (place * (view.samplesPerSide * view.samplesPerSide) + number) generator ∧
      (coloring call.ray).run call.given = .ok (call.color, call.left) := by
  rw [aim_cell hCells hNumber]
  exact ⟨⟨_, _, color, last⟩, rfl, rfl, rfl, h⟩

/-- The cells of a pixel from one on have a call each. -/
theorem calls_of_sumCells (hCells : view.samplesPerSide ≠ 0) (place count : ℕ) {number : ℕ}
    (hRest : number + count ≤ view.samplesPerSide * view.samplesPerSide) {sum color : Color α}
    (h : (view.sumCells coloring (view.pixelAt place) ((List.range' number count).map view.cellAt) sum).run generator =
      .ok (color, last)) :
    ∃ calls, view.Calls coloring (place * (view.samplesPerSide * view.samplesPerSide) + number) generator calls last ∧
      calls.length = count ∧ color = calls.foldl (fun sum call => sum + call.color) sum := by
  induction count generalizing number generator sum with
  | zero =>
      obtain ⟨rfl, rfl⟩ := Prod.mk.inj (Except.ok.inj h)
      exact ⟨[], .done _ _, rfl, rfl⟩
  | succ count ih =>
      obtain ⟨found, rest, hCell, hCellsLeft⟩ := Sampling.exists_of_run_bind h
      obtain ⟨call, rfl, rfl, hAimed, hAnswered⟩ := calls_of_cellColor hCells (by omega) hCell
      obtain ⟨calls, hCalls, hLength, hColor⟩ := ih (by omega) hCellsLeft
      exact ⟨call :: calls, .next hAimed hAnswered hCalls, by rw [List.length_cons, hLength], hColor⟩

/-- A pixel that has a color is the blend of as many calls as it takes rays. -/
theorem calls_of_pixelColor {place : ℕ} {color : Color α}
    (h : (view.pixelColor coloring (view.pixelAt place)).run generator = .ok (color, last)) :
    ∃ calls, view.Calls coloring (place * view.raysPerPixel) generator calls last ∧
      calls.length = view.raysPerPixel ∧ color = view.blend calls := by
  by_cases hCenter : view.samplesPerSide = 0
  · have hRays : view.raysPerPixel = 1 := if_pos hCenter
    simp only [pixelColor, hCenter, ↓reduceIte] at h
    refine ⟨[⟨_, _, color, last⟩], .next (aim_center hCenter place generator).symm h (.done _ _), hRays.symm, ?_⟩
    rw [blend, if_pos hCenter]
    rfl
  · have hRays : view.raysPerPixel = view.samplesPerSide * view.samplesPerSide := if_neg hCenter
    have hGrid : Image.coordinates view.samplesPerSide view.samplesPerSide =
        (List.range' 0 view.raysPerPixel).map view.cellAt := by
      rw [hRays, ← List.range_eq_range', Image.coordinates_eq_map_range]
      rfl
    simp only [pixelColor, hCenter, ↓reduceIte, hGrid] at h
    obtain ⟨sum, rest, hSum, hCounted⟩ := Sampling.exists_of_run_bind h
    obtain ⟨count, left, hCount, hScaled⟩ := Sampling.exists_of_run_bind hCounted
    obtain ⟨hProduct, rfl⟩ := Sampling.of_run_lift hCount
    obtain ⟨-, rfl⟩ := mulCounts_eq_ok_iff.mp hProduct
    obtain ⟨rfl, rfl⟩ := Prod.mk.inj (Except.ok.inj hScaled)
    obtain ⟨calls, hCalls, hLength, rfl⟩ :=
      calls_of_sumCells hCenter place view.raysPerPixel (by rw [hRays, Nat.zero_add]) hSum
    rw [Nat.add_zero, ← hRays] at hCalls
    refine ⟨calls, hCalls, hLength, ?_⟩
    rw [blend, if_neg hCenter]

/-- The pixels of an image are colors that were computed for them. -/
def ColoredBy (view : Viewport α) (coloring : RayColoring (Except Fault) α) (image : Image α) : Prop :=
  ∀ col row, col < view.width → row < view.height → ∃ generator last color,
    (view.pixelColor coloring (col, row)).run generator = .ok (color, last) ∧ image.get col row = .ok color

/-- In an image that was rendered in buckets every pixel is the average of its calls. -/
theorem coloredBy_of_renderBuckets {seed : UInt64} {size : ℕ} {image : Image α}
    (h : view.renderBuckets coloring seed size = .ok image) : view.ColoredBy coloring image := by
  obtain ⟨buckets, hPlan, hOrder⟩ := bind_eq_ok_iff.mp h
  obtain ⟨rendered, -, hAssembled⟩ := bind_eq_ok_iff.mp hOrder
  obtain ⟨blank, hBlank, -⟩ := bind_eq_ok_iff.mp hAssembled
  have hFit := Image.count_lt_of_held (Image.blank_eq_tabulate hBlank).2
  intro col row hCol hRow
  have hGet := ownColor_of_renderBuckets h hCol hRow
  cases hOwn : view.ownColor coloring seed (col, row) with
  | error fault =>
      obtain ⟨first, hFault⟩ := exists_renderBuckets_eq_error hBlank (Bucket.size_pos_of_plan hPlan) hCol hRow hOwn
      cases h.symm.trans hFault
  | ok color =>
      rw [← hGet, hOwn]
      rw [ownColor_eq hFit hCol hRow, map_eq_pure_bind] at hOwn
      obtain ⟨⟨found, last⟩, hRun, hSame⟩ := bind_eq_ok_iff.mp hOwn
      exact ⟨_, last, found, hRun, congrArg Except.ok (pure_eq_ok_iff.mp hSame).symm⟩

/-- Pixels that are traced one after the other have colors that were computed for them, the others keep theirs. -/
theorem colored_of_foldlM_tracePixel {rule : ℕ × ℕ → Color α} (hFit : view.width * view.height < UInt64.size)
    {pixels : List (ℕ × ℕ)} (hInside : ∀ pixel ∈ pixels, pixel.1 < view.width ∧ pixel.2 < view.height) {image : Image α}
    (h : (pixels.foldlM (view.tracePixel coloring) (Image.tabulate view.width view.height rule)).run generator =
      .ok (image, last)) :
    ∃ traced, image = Image.tabulate view.width view.height traced ∧ ∀ pixel,
      (∃ given left, (view.pixelColor coloring pixel).run given = .ok (traced pixel, left)) ∨
        pixel ∉ pixels ∧ traced pixel = rule pixel := by
  induction pixels generalizing rule generator with
  | nil =>
      obtain ⟨rfl, rfl⟩ := Prod.mk.inj (Except.ok.inj h)
      exact ⟨rule, rfl, fun pixel => .inr ⟨List.not_mem_nil, rfl⟩⟩
  | cons first pixels ih =>
      obtain ⟨hFirst, hLater⟩ := List.forall_mem_cons.mp hInside
      rw [List.foldlM_cons] at h
      obtain ⟨painted, rest, hPainted, hRest⟩ := Sampling.exists_of_run_bind h
      obtain ⟨color, left, hColor, hWritten⟩ := Sampling.exists_of_run_bind hPainted
      obtain ⟨hSet, rfl⟩ := Sampling.of_run_lift hWritten
      rw [Image.set_tabulate rule color hFit hFirst.1 hFirst.2] at hSet
      obtain rfl := Except.ok.inj hSet
      obtain ⟨traced, rfl, hTraced⟩ := ih hLater hRest
      refine ⟨traced, rfl, fun pixel => ?_⟩
      rcases hTraced pixel with hComputed | ⟨hAbsent, hKept⟩
      · exact .inl hComputed
      · by_cases hSame : pixel = first
        · subst hSame
          rw [Function.update_self] at hKept
          exact .inl ⟨generator, rest, hKept ▸ hColor⟩
        · rw [Function.update_of_ne hSame] at hKept
          exact .inr ⟨List.not_mem_cons_of_ne_of_not_mem hSame hAbsent, hKept⟩

theorem coloredBy_of_traceImage {image : Image α}
    (h : (view.traceImage coloring).run generator = .ok (image, last)) : view.ColoredBy coloring image := by
  obtain ⟨blank, start, hLifted, hTraced⟩ := Sampling.exists_of_run_bind h
  obtain ⟨hBlank, rfl⟩ := Sampling.of_run_lift hLifted
  obtain ⟨rfl, hHeld⟩ := Image.blank_eq_tabulate hBlank
  have hFit := Image.count_lt_of_held hHeld
  rw [Image.retrace_eq] at hTraced
  obtain ⟨traced, rfl, hPixels⟩ :=
    colored_of_foldlM_tracePixel hFit (fun pixel => Image.mem_coordinates.mp) hTraced
  intro col row hCol hRow
  rcases hPixels (col, row) with ⟨given, left, hColor⟩ | ⟨hAbsent, -⟩
  · exact ⟨given, left, _, hColor, Image.get_tabulate traced hFit hCol hRow⟩
  · exact absurd (Image.mem_coordinates.mpr ⟨hCol, hRow⟩) hAbsent

/-- Every pixel of a rendered image is the blend of the calls that were made for it. -/
theorem ColoredBy.exists_calls {image : Image α} (h : view.ColoredBy coloring image) {col row : ℕ}
    (hCol : col < view.width) (hRow : row < view.height) :
    ∃ generator last calls, view.Calls coloring ((row * view.width + col) * view.raysPerPixel) generator calls last ∧
      calls.length = view.raysPerPixel ∧ image.get col row = .ok (view.blend calls) := by
  obtain ⟨generator, last, color, hColor, hGet⟩ := h col row hCol hRow
  have hPixel : (col, row) = view.pixelAt (row * view.width + col) := by
    obtain ⟨hColumn, hLine⟩ := Image.column_row_of_offset row hCol
    rw [pixelAt, hColumn, hLine]
  rw [hPixel] at hColor
  obtain ⟨calls, hCalls, hLength, rfl⟩ := calls_of_pixelColor hColor
  exact ⟨generator, last, calls, hCalls, hLength, hGet⟩

end Viewport

end RayTracer
