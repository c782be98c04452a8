import Mathlib
import RayTracer.Proofs.Image.Tabulation
import RayTracer.Render.PixelSampling

/-! The calls that tracing an image makes. A coloring may remember what it has been asked, so the number of
its calls, their order and what each of them is given all matter. The calls are told one after the other by a
step, and tracing is a number of such steps: one for every cell, a square of these for every pixel, and all
pixels for the image. -/

namespace RayTracer

variable {α σ β γ : Type}

/-- Counts are multiplied as long as their product is a count. -/
theorem mulCounts_eq_ok_iff {a b product : ℕ} :
    mulCounts a b = .ok product ↔ a * b < UInt32.size ∧ a * b = product := by
  unfold mulCounts
  split
  next hFits => simp [hFits]
  next hFits => simp [hFits]

/-- A call of a coloring: the ray and the generator it was given, the color it found and the generator it
left. -/
structure Call (α : Type) where
  ray : Ray α
  given : Pcg
  color : Color α
  left : Pcg

/-- How a coloring with a memory answers: what it remembers, a ray and a generator decide the color, the
generator that is left and what is remembered from then on. -/
abbrev Answering (σ α : Type) := σ → Ray α → Pcg → Color α × Pcg × σ

namespace Answering

def coloring (answer : Answering σ α) : RayColoring (StateT σ (Except Fault)) α :=
  fun ray generator memory =>
    let (color, left, after) := answer memory ray generator
    .ok ((color, left), after)

/-- The same answers, with all calls written down. -/
def recording (answer : Answering σ α) : Answering (σ × List (Call α)) α :=
  fun (memory, calls) ray given =>
    let (color, left, after) := answer memory ray given
    (color, left, after, calls ++ [⟨ray, given, color, left⟩])

end Answering

/-- Where tracing stands between two calls. -/
structure Stage (σ α : Type) where
  calls : List (Call α)
  generator : Pcg
  memory : σ

namespace Stage

/-- From one stage to another a computation has a result. -/
def Leads (start : Stage σ α) (action : StateT Pcg (StateT σ (Except Fault)) β) (stop : Stage σ α)
    (result : β) : Prop :=
  action start.generator start.memory = .ok ((result, stop.generator), stop.memory)

theorem leads_pure (stage : Stage σ α) (result : β) : stage.Leads (pure result) stage result := rfl

theorem leads_lift (stage : Stage σ α) {outcome : Except Fault β} {result : β}
    (hOutcome : outcome = .ok result) : stage.Leads (liftM outcome) stage result := by
  rw [hOutcome]
  rfl

/-- A chain leads from stage to stage. -/
theorem Leads.bind {start middle stop : Stage σ α} {action : StateT Pcg (StateT σ (Except Fault)) β}
    {next : β → StateT Pcg (StateT σ (Except Fault)) γ} {result : β} {final : γ}
    (hFirst : start.Leads action middle result) (hNext : middle.Leads (next result) stop final) :
    start.Leads (action >>= next) stop final := by
  simp only [Leads, Bind.bind, StateT.bind, Except.bind] at *
  rw [hFirst]
  exact hNext

end Stage

namespace Viewport

variable [Scalar α]

def raysPerPixel (view : Viewport α) : ℕ :=
  if view.samplesPerSide = 0 then 1 else view.samplesPerSide * view.samplesPerSide

/-- The pixel of a number. Pixels are numbered row by row. -/
def pixelAt (view : Viewport α) (place : ℕ) : ℕ × ℕ := (place % view.width, place / view.width)

/-- The cell of a number. The cells of a pixel are numbered row by row. -/
def cellAt (view : Viewport α) (place : ℕ) : ℕ × ℕ :=
  (place % view.samplesPerSide, place / view.samplesPerSide)

/-- The ray and the generator for the call of a number. Without cells the ray goes through the center of the
pixel and nothing is drawn; otherwise the place across and then the place down inside the cell are drawn. The
screen is measured across from the left and upwards from the bottom, so rows count down from its top. -/
def aim (view : Viewport α) (number : ℕ) (generator : Pcg) : Ray α × Pcg :=
  let pixel := view.pixelAt (number / view.raysPerPixel)
  if view.samplesPerSide = 0 then
    (view.camera.ray ((Scalar.ofNat pixel.1 + 0.5) / Scalar.ofNat view.width)
      (1.0 - (Scalar.ofNat pixel.2 + 0.5) / Scalar.ofNat view.height), generator)
  else
    let cell := view.cellAt (number % view.raysPerPixel)
    let (across, afterAcross) : α × Pcg := generator.drawUnit
    let (down, afterDown) : α × Pcg := afterAcross.drawUnit
    let right := (Scalar.ofNat cell.1 + across) / Scalar.ofNat view.samplesPerSide
    let below := (Scalar.ofNat cell.2 + down) / Scalar.ofNat view.samplesPerSide
    (view.camera.ray ((Scalar.ofNat pixel.1 + right) / Scalar.ofNat view.width)
      (1.0 - (Scalar.ofNat pixel.2 + below) / Scalar.ofNat view.height), afterDown)

/-- The next call: its ray goes by its number, and it is made with the generator and answered from the memory
that the call before it left. -/
def nextCall (view : Viewport α) (answer : Answering σ α) (stage : Stage σ α) : Stage σ α :=
  let (ray, given) := view.aim stage.calls.length stage.generator
  let (color, left, after) := answer stage.memory ray given
  ⟨stage.calls ++ [⟨ray, given, color, left⟩], left, after⟩

/-- The stage after a number of calls. -/
def stageAfter (view : Viewport α) (answer : Answering σ α) (generator : Pcg) (memory : σ) (count : ℕ) :
    Stage σ α :=
  (view.nextCall answer)^[count] ⟨[], generator, memory⟩

/-- The color of a pixel from the calls for it: the color of the only one, or the average of the cells, summed
up from black in their order. -/
def blend (view : Viewport α) (calls : List (Call α)) : Color α :=
  if view.samplesPerSide = 0 then (calls.map Call.color).headD Color.black
  else (calls.foldl (fun sum call => sum + call.color) Color.black)
    * (1.0 / Scalar.ofNat (view.samplesPerSide * view.samplesPerSide) : α)

/-- The calls for the pixel of a number. -/
def callsFor (view : Viewport α) (calls : List (Call α)) (place : ℕ) : List (Call α) :=
  (calls.drop (place * view.raysPerPixel)).take view.raysPerPixel

/-- The colors of the pixels up to a place, and those that an image held from there on. -/
def painted (view : Viewport α) (calls : List (Call α)) (held : ℕ × ℕ → Color α) (place : ℕ)
    (pixel : ℕ × ℕ) : Color α :=
  if pixel.2 * view.width + pixel.1 < place then
    view.blend (view.callsFor calls (pixel.2 * view.width + pixel.1))
  else held pixel

variable (view : Viewport α) (answer : Answering σ α)

/-- Every call is noted. -/
theorem length_nextCall (stage : Stage σ α) :
    (view.nextCall answer stage).calls.length = stage.calls.length + 1 := by
  simp [nextCall]

theorem exists_call (stage : Stage σ α) :
    let next := view.nextCall answer stage
    ∃ call, next.calls = stage.calls ++ [call] ∧
      (call.ray, call.given) = view.aim stage.calls.length stage.generator ∧
      (call.color, call.left, next.memory) = answer stage.memory call.ray call.given ∧
      next.generator = call.left :=
  ⟨_, rfl, rfl, rfl, rfl⟩

/-- The color of a cell is that of the call whose number is due. -/
theorem leads_cellColor (hCells : view.samplesPerSide ≠ 0) {stage : Stage σ α} {place number : ℕ}
    (hNumber : number < view.samplesPerSide * view.samplesPerSide)
    (hDue : stage.calls.length = place * (view.samplesPerSide * view.samplesPerSide) + number) :
    ∃ call, (view.nextCall answer stage).calls = stage.calls ++ [call] ∧
      stage.Leads (view.cellColor answer.coloring (view.pixelAt place) (view.cellAt number))
        (view.nextCall answer stage) call.color := by
  have hSquare : 0 < view.samplesPerSide * view.samplesPerSide := Nat.zero_lt_of_lt hNumber
  have hRays : view.raysPerPixel = view.samplesPerSide * view.samplesPerSide := if_neg hCells
  have hPixel : stage.calls.length / view.raysPerPixel = place := by
    rw [hDue, hRays, Nat.mul_comm, Nat.mul_add_div hSquare, Nat.div_eq_of_lt hNumber, Nat.add_zero]
  have hCell : stage.calls.length % view.raysPerPixel = number := by
    rw [hDue, hRays, Nat.mul_add_mod_self_right, Nat.mod_eq_of_lt hNumber]
  simp only [nextCall, aim, hPixel, hCell, hCells, ↓reduceIte]
  exact ⟨_, rfl, rfl⟩

/-- Without cells the color of a pixel is that of its only call. -/
theorem leads_pixelColor_center (hCenter : view.samplesPerSide = 0) (stage : Stage σ α) :
    ∃ call, (view.nextCall answer stage).calls = stage.calls ++ [call] ∧
      stage.Leads (view.pixelColor answer.coloring (view.pixelAt stage.calls.length))
        (view.nextCall answer stage) call.color := by
  have hPixel : stage.calls.length / view.raysPerPixel = stage.calls.length := by
    rw [raysPerPixel, if_pos hCenter, Nat.div_one]
  simp only [nextCall, aim, hPixel, pixelColor, hCenter, ↓reduceIte]
  exact ⟨_, rfl, rfl⟩

/-- The cells of a pixel from one on make one call each. -/
theorem leads_sumCells (hCells : view.samplesPerSide ≠ 0) (place count number : ℕ) (stage : Stage σ α)
    (hRest : number + count ≤ view.samplesPerSide * view.samplesPerSide)
    (hDue : stage.calls.length = place * (view.samplesPerSide * view.samplesPerSide) + number)
    (sum : Color α) :
    ∃ made, made.length = count ∧ ((view.nextCall answer)^[count] stage).calls = stage.calls ++ made ∧
      stage.Leads
        (view.sumCells answer.coloring (view.pixelAt place) ((List.range' number count).map view.cellAt) sum)
        ((view.nextCall answer)^[count] stage) (made.foldl (fun sum call => sum + call.color) sum) := by
  induction count generalizing number stage sum with
  | zero => exact ⟨[], rfl, (List.append_nil _).symm, stage.leads_pure sum⟩
  | succ count ih =>
      obtain ⟨call, hCall, hColor⟩ := view.leads_cellColor answer hCells (by omega) hDue
      have hNext : (view.nextCall answer stage).calls.length =
          place * (view.samplesPerSide * view.samplesPerSide) + (number + 1) := by
        rw [length_nextCall, hDue, Nat.add_assoc]
      obtain ⟨made, hLength, hMade, hSum⟩ := ih (number + 1) (view.nextCall answer stage) (by omega) hNext
        (sum + call.color)
      rw [Function.iterate_succ_apply]
      refine ⟨call :: made, by rw [List.length_cons, hLength], ?_, hColor.bind hSum⟩
      rw [hMade, hCall, List.append_assoc, List.singleton_append]

/-- A pixel makes all its calls before it has a color. -/
theorem leads_pixelColor (hCount : view.samplesPerSide * view.samplesPerSide < UInt32.size) {place : ℕ}
    {stage : Stage σ α} (hDue : stage.calls.length = place * view.raysPerPixel) :
    ∃ made, made.length = view.raysPerPixel ∧
      ((view.nextCall answer)^[view.raysPerPixel] stage).calls = stage.calls ++ made ∧
      stage.Leads (view.pixelColor answer.coloring (view.pixelAt place))
        ((view.nextCall answer)^[view.raysPerPixel] stage) (view.blend made) := by
  by_cases hCells : view.samplesPerSide = 0
  · have hRays : view.raysPerPixel = 1 := if_pos hCells
    obtain ⟨call, hCall, hColor⟩ := view.leads_pixelColor_center answer hCells stage
    rw [hRays, Nat.mul_one] at hDue
    rw [hRays, ← hDue]
    refine ⟨[call], rfl, hCall, ?_⟩
    rw [blend, if_pos hCells]
    exact hColor
  · have hRays : view.raysPerPixel = view.samplesPerSide * view.samplesPerSide := if_neg hCells
    have hGrid : Image.coordinates view.samplesPerSide view.samplesPerSide =
        (List.range' 0 view.raysPerPixel).map view.cellAt := by
      rw [hRays, ← List.range_eq_range', Image.coordinates_eq_map_range]
      rfl
    obtain ⟨made, hLength, hMade, hSum⟩ := view.leads_sumCells answer hCells place view.raysPerPixel 0 stage
      (by rw [hRays, Nat.zero_add]) (by rw [hDue, hRays, Nat.add_zero]) Color.black
    refine ⟨made, hLength, hMade, ?_⟩
    have hCounted : mulCounts view.samplesPerSide view.samplesPerSide =
        .ok (view.samplesPerSide * view.samplesPerSide) := mulCounts_eq_ok_iff.mpr ⟨hCount, rfl⟩
    simp only [pixelColor, hCells, ↓reduceIte, hGrid, blend]
    exact hSum.bind ((Stage.leads_lift _ hCounted).bind (Stage.leads_pure _ _))

section Stages

variable (generator : Pcg) (memory : σ)

/-- More calls go on from where the first ones have led. -/
theorem stageAfter_add (count more : ℕ) :
    view.stageAfter answer generator memory (count + more) =
      (view.nextCall answer)^[more] (view.stageAfter answer generator memory count) := by
  rw [stageAfter, Nat.add_comm, Function.iterate_add_apply, stageAfter]

theorem stageAfter_succ (count : ℕ) :
    view.stageAfter answer generator memory (count + 1) =
      view.nextCall answer (view.stageAfter answer generator memory count) :=
  view.stageAfter_add answer generator memory count 1

theorem length_stageAfter (count : ℕ) :
    (view.stageAfter answer generator memory count).calls.length = count := by
  induction count with
  | zero => rfl
  | succ count ih => rw [stageAfter_succ, length_nextCall, ih]

/-- Calls that have been made stay as they are. -/
theorem calls_prefix {count total : ℕ} (hCount : count ≤ total) :
    (view.stageAfter answer generator memory count).calls <+:
      (view.stageAfter answer generator memory total).calls := by
  obtain ⟨more, rfl⟩ := Nat.exists_eq_add_of_le hCount
  clear hCount
  induction more with
  | zero => exact List.prefix_rfl
  | succ more ih =>
      rw [← Nat.add_assoc, stageAfter_succ]
      exact ih.trans (List.prefix_append _ _)

/-- A recording coloring goes through the same stages, and what it has written down are the calls. -/
theorem stageAfter_recording (count : ℕ) :
    view.stageAfter answer.recording generator (memory, []) count =
      let stage := view.stageAfter answer generator memory count
      ⟨stage.calls, stage.generator, stage.memory, stage.calls⟩ := by
  induction count with
  | zero => rfl
  | succ count ih =>
      rw [stageAfter_succ, stageAfter_succ, ih]
      rfl

omit [Scalar α] in
/-- The calls for a pixel are settled as soon as they have been made. -/
theorem callsFor_of_prefix {calls later : List (Call α)} (hPrefix : calls <+: later) {place : ℕ}
    (hMade : (place + 1) * view.raysPerPixel ≤ calls.length) :
    view.callsFor later place = view.callsFor calls place := by
  obtain ⟨rest, rfl⟩ := hPrefix
  rw [Nat.succ_mul] at hMade
  rw [callsFor, callsFor, List.drop_append_of_le_length (by omega),
    List.take_append_of_le_length (by rw [List.length_drop]; omega)]

/-- Pixels whose calls have been made keep their colors. -/
theorem painted_of_prefix {calls later : List (Call α)} (hPrefix : calls <+: later)
    (held : ℕ × ℕ → Color α) {place : ℕ} (hMade : place * view.raysPerPixel ≤ calls.length) :
    view.painted later held place = view.painted calls held place := by
  funext pixel
  unfold painted
  split
  next hBefore =>
      rw [view.callsFor_of_prefix hPrefix ((Nat.mul_le_mul_right _ hBefore).trans hMade)]
  next => rfl

/-- One more pixel is painted with the calls that are made for it. -/
theorem tabulate_painted_succ {calls made : List (Call α)} (held : ℕ × ℕ → Color α) {place : ℕ}
    (hCalls : calls.length = place * view.raysPerPixel) (hMade : made.length = view.raysPerPixel) :
    Image.tabulate view.width view.height
        (Function.update (view.painted calls held place) (view.pixelAt place) (view.blend made)) =
      Image.tabulate view.width view.height (view.painted (calls ++ made) held (place + 1)) := by
  have hDue : view.callsFor (calls ++ made) place = made := by
    rw [callsFor, ← hCalls, List.drop_left, ← hMade, List.take_length]
  rw [← view.painted_of_prefix (List.prefix_append calls made) held hCalls.ge]
  apply Image.tabulate_congr
  intro pixel hCol hRow
  obtain ⟨hColumn, hLine⟩ := Image.column_row_of_offset pixel.2 hCol
  by_cases hHere : pixel.2 * view.width + pixel.1 = place
  · have hPixel : pixel = view.pixelAt place := hHere ▸ Prod.ext hColumn.symm hLine.symm
    rw [painted, if_pos (by omega), hHere, hDue, hPixel, Function.update_self]
  · have hOther : pixel ≠ view.pixelAt place := by
      rintro rfl
      exact hHere (Nat.div_add_mod' place view.width)
    have hSame : pixel.2 * view.width + pixel.1 < place ↔
        pixel.2 * view.width + pixel.1 < place + 1 := by omega
    rw [Function.update_of_ne hOther]
    simp only [painted, hSame]

omit [Scalar α] in
theorem take_coordinates {place : ℕ} (hPlace : place ≤ view.width * view.height) :
    (Image.coordinates view.width view.height).take place = (List.range place).map view.pixelAt := by
  rw [Image.coordinates_eq_map_range, List.map_take.symm, List.take_range, Nat.min_eq_left hPlace]
  rfl

/-- Tracing the first pixels of an image that held some colors. Every pixel takes the calls that are due and
is written after them. -/
theorem leads_foldlM_tracePixel {held : ℕ × ℕ → Color α}
    (hCount : view.samplesPerSide * view.samplesPerSide < UInt32.size) (hFit : view.width * view.height < UInt64.size)
    {before : Image α} (hHeld : before = Image.tabulate view.width view.height held) {place : ℕ}
    (hPlace : place ≤ view.width * view.height) :
    let stop := view.stageAfter answer generator memory (place * view.raysPerPixel)
    Stage.Leads (⟨[], generator, memory⟩ : Stage σ α)
      (((Image.coordinates view.width view.height).take place).foldlM
        (view.tracePixel answer.coloring) before)
      stop (Image.tabulate view.width view.height (view.painted stop.calls held place)) := by
  intro stop
  subst hHeld
  rw [view.take_coordinates hPlace]
  induction place with
  | zero =>
      have hHeld : view.painted stop.calls held 0 = held := funext fun pixel => if_neg (Nat.not_lt_zero _)
      have hStart : stop = ⟨[], generator, memory⟩ := by
        change view.stageAfter answer generator memory (0 * view.raysPerPixel) = _
        rw [Nat.zero_mul]
        rfl
      rw [hHeld, hStart]
      exact Stage.leads_pure _ _
  | succ place ih =>
      have hWidth : 0 < view.width := Nat.pos_of_mul_pos_right (Nat.zero_lt_of_lt hPlace)
      let due := view.stageAfter answer generator memory (place * view.raysPerPixel)
      have hLength : due.calls.length = place * view.raysPerPixel :=
        view.length_stageAfter answer generator memory _
      have hStop : stop = (view.nextCall answer)^[view.raysPerPixel] due := by
        change view.stageAfter answer generator memory ((place + 1) * view.raysPerPixel) = _
        rw [Nat.succ_mul, stageAfter_add]
      obtain ⟨made, hMade, hCalls, hColor⟩ := view.leads_pixelColor answer hCount hLength
      have hSet := Image.set_tabulate (view.painted due.calls held place) (view.blend made) hFit
        (Nat.mod_lt place hWidth) (Nat.div_lt_of_lt_mul hPlace)
      rw [List.range_succ, List.map_append, List.foldlM_append, hStop, hCalls,
        ← view.tabulate_painted_succ held hLength hMade]
      refine (ih (by omega)).bind ?_
      refine Stage.Leads.bind (hColor.bind ?_) (Stage.leads_pure _ _)
      exact Stage.leads_lift _ hSet

/-- A pixel of an image that is traced up to a place, by the calls of a tracing that has got further. -/
theorem get_painted (held : ℕ × ℕ → Color α) (hFit : view.width * view.height < UInt64.size)
    {place count : ℕ} (hPlace : place * view.raysPerPixel ≤ count) {col row : ℕ} (hCol : col < view.width)
    (hRow : row < view.height) :
    let calls := (view.stageAfter answer generator memory (place * view.raysPerPixel)).calls
    (Image.tabulate view.width view.height (view.painted calls held place)).get col row =
      .ok (if row * view.width + col < place then
          view.blend (view.callsFor (view.stageAfter answer generator memory count).calls
            (row * view.width + col))
        else held (col, row)) := by
  intro calls
  have hPrefix := view.calls_prefix answer generator memory hPlace
  have hMade : place * view.raysPerPixel ≤ calls.length :=
    (view.length_stageAfter answer generator memory _).ge
  rw [Image.get_tabulate _ hFit hCol hRow, ← view.painted_of_prefix hPrefix held hMade]
  rfl

/-- The call of a number, in any tracing that gets that far: its ray and its generator go by the stage at
which it is due, and it leads to the next one. -/
theorem getElem?_calls_stageAfter {number count : ℕ} (hNumber : number < count) :
    let due := view.stageAfter answer generator memory number
    let next := view.stageAfter answer generator memory (number + 1)
    ∃ call, (view.stageAfter answer generator memory count).calls[number]? = some call ∧
      (call.ray, call.given) = view.aim number due.generator ∧
      (call.color, call.left, next.memory) = answer due.memory call.ray call.given ∧
      next.generator = call.left := by
  intro due next
  have hLength : due.calls.length = number := view.length_stageAfter answer generator memory number
  have hNext : next = view.nextCall answer due := view.stageAfter_succ answer generator memory number
  obtain ⟨call, hCall, hGiven, hAnswer, hLeft⟩ := view.exists_call answer due
  obtain ⟨rest, hRest⟩ := view.calls_prefix answer generator memory (Nat.succ_le_of_lt hNumber)
  change next.calls ++ rest = _ at hRest
  rw [← hNext] at hCall hAnswer hLeft
  refine ⟨call, ?_, hLength ▸ hGiven, hAnswer, hLeft⟩
  rw [← hRest, hCall, List.append_assoc, List.getElem?_append_right hLength.le, hLength, Nat.sub_self]
  rfl

end Stages

end Viewport

namespace Image

variable [Scalar α]

/-- What tracing an image does with a coloring that remembers. The coloring is called as often as there are
pixels, or cells of pixels, and a call is numbered by the row of its pixel, then the column, then the row of
its cell, then the column; its ray comes from its number and from the generator that the call before it left.
A pixel ends as the blend of its own calls. Up to any place of the image, the pixels before it have their
final colors and those from there on are as they were, so each is written once. -/
theorem retrace_calls (answer : Answering σ α) (camera : Camera α) {samplesPerSide : ℕ}
    (hCells : samplesPerSide ≤ 65535) (generator : Pcg) (memory : σ) {before : Image α}
    (hFilled : before.isFilled = true) (hFit : before.width * before.height < UInt64.size) :
    let view : Viewport α := ⟨camera, before.width, before.height, samplesPerSide⟩
    let stage := view.stageAfter answer generator memory
    let count := before.width * before.height *
      if samplesPerSide = 0 then 1 else samplesPerSide * samplesPerSide
    ∃ image : Image α,
      image.width = before.width ∧ image.height = before.height ∧ image.isFilled = true ∧
      before.retrace camera samplesPerSide answer.coloring generator memory =
        .ok ((image, (stage count).generator), (stage count).memory) ∧
      before.retrace camera samplesPerSide answer.recording.coloring generator (memory, []) =
        .ok ((image, (stage count).generator), (stage count).memory, (stage count).calls) ∧
      (stage count).calls.length = count ∧
      (∀ number < count, ∃ call, (stage count).calls[number]? = some call ∧
        (call.ray, call.given) = view.aim number (stage number).generator ∧
        (call.color, call.left, (stage (number + 1)).memory) =
          answer (stage number).memory call.ray call.given ∧
        (stage (number + 1)).generator = call.left) ∧
      (∀ col < before.width, ∀ row < before.height, image.get col row =
        .ok (view.blend (view.callsFor (stage count).calls (row * before.width + col)))) ∧
      ∀ place ≤ before.width * before.height, ∃ unfinished : Image α,
        ((coordinates before.width before.height).take place).foldlM (view.tracePixel answer.coloring)
            before generator memory =
          .ok ((unfinished, (stage (place * view.raysPerPixel)).generator),
            (stage (place * view.raysPerPixel)).memory) ∧
        ∀ col < before.width, ∀ row < before.height, unfinished.get col row =
          if row * before.width + col < place then image.get col row else before.get col row := by
  intro view stage count
  have hSquare : samplesPerSide * samplesPerSide < UInt32.size := (Nat.mul_le_mul hCells hCells).trans_lt (by decide)
  obtain ⟨held, hHeld⟩ := exists_eq_tabulate hFilled
  have hAll : (coordinates before.width before.height).take (before.width * before.height) =
      coordinates before.width before.height := List.take_of_length_le (by simp [coordinates])
  have hCount : before.width * before.height * view.raysPerPixel = count := rfl
  have hPixel {place col row : ℕ} (hPlace : place ≤ before.width * before.height)
      (hCol : col < before.width) (hRow : row < before.height) :=
    view.get_painted answer generator memory held hFit (Nat.mul_le_mul_right view.raysPerPixel hPlace)
      hCol hRow
  refine ⟨tabulate before.width before.height
      (view.painted (stage count).calls held (before.width * before.height)),
    rfl, rfl, isFilled_tabulate _ _ _, ?_, ?_, view.length_stageAfter answer generator memory count,
    fun number hNumber => view.getElem?_calls_stageAfter answer generator memory hNumber, ?_, ?_⟩
  · have hRun := view.leads_foldlM_tracePixel answer generator memory hSquare hFit hHeld le_rfl
    rw [hAll] at hRun
    rw [retrace_eq]
    exact hRun
  · have hRun := view.leads_foldlM_tracePixel answer.recording generator (memory, []) hSquare hFit hHeld le_rfl
    rw [hAll, Viewport.stageAfter_recording] at hRun
    rw [retrace_eq]
    exact hRun
  · intro col hCol row hRow
    have hInside : row * view.width + col < before.width * before.height := offset_lt hCol hRow
    rw [← hCount, hPixel le_rfl hCol hRow, if_pos hInside]
  · intro place hPlace
    refine ⟨_, view.leads_foldlM_tracePixel answer generator memory hSquare hFit hHeld hPlace, ?_⟩
    intro col hCol row hRow
    have hInside : row * view.width + col < before.width * before.height := offset_lt hCol hRow
    have hBefore : before.get col row = .ok (held (col, row)) := by
      rw [hHeld]
      exact get_tabulate held hFit hCol hRow
    rw [← hCount, hPixel le_rfl hCol hRow, if_pos hInside, hBefore, ← apply_ite Except.ok]
    exact hPixel hPlace hCol hRow

def curtain : Image Float := tabulate 3 2 fun _ => Color.black

/-- It counts its calls and draws a number for every other one. -/
def fickle (seen : ℕ) (ray : Ray Float) (generator : Pcg) : Color Float × Pcg × ℕ :=
  (⟨ray.direction.y, ray.direction.z, 0.0⟩, if seen % 2 = 0 then generator else generator.next, seen + 1)

/-- Six pixels of four cells each. -/
theorem retrace_calls_fickle :
    (2 : ℕ) ≤ 65535 ∧ curtain.isFilled = true ∧ curtain.width * curtain.height < UInt64.size ∧
      ∃ (image : Image Float) (left : Pcg) (calls : List (Call Float)),
        curtain.retrace ⟨.orthogonal, 1.5, Transformation.identity⟩ 2 (Answering.recording fickle).coloring
          (Pcg.seeded 42 54) (0, []) = .ok ((image, left), 24, calls) ∧
        image.width = 3 ∧ image.height = 2 ∧ calls.length = 24 := by
  have hFilled : curtain.isFilled = true := rfl
  have hFit : curtain.width * curtain.height < UInt64.size := by decide
  have hCells : (2 : ℕ) ≤ 65535 := by decide
  obtain ⟨image, hWidth, hHeight, -, -, hRecorded, hLength, -⟩ :=
    retrace_calls fickle ⟨.orthogonal, 1.5, Transformation.identity⟩ hCells (Pcg.seeded 42 54) 0 hFilled hFit
  exact ⟨hCells, hFilled, hFit, image, _, _, hRecorded, hWidth, hHeight, hLength⟩

end Image

end RayTracer
