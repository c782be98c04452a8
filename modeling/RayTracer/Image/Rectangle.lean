/-!
Rectangles of positions of pixels, and loops over all of them row by row. A loop goes from position to
position, so where a step stops early, as a fault does, the positions after that are not touched. The main
statements are that loops are folds and visits maps along the list of the positions.
-/

namespace RayTracer

structure Rectangle where
  column : Nat
  row : Nat
  width : Nat
  height : Nat
  deriving DecidableEq, Repr

namespace Rectangle

/-- The positions, row by row and each row from the left. -/
def positions (rectangle : Rectangle) : List (Nat × Nat) :=
  if rectangle.width = 0 then []
  else (List.range' rectangle.row rectangle.height).flatMap fun row =>
    (List.range' rectangle.column rectangle.width).map fun column => (column, row)

variable {β : Type} {m : Type → Type} [Monad m]

/-- What is handed on along a number of columns from one on. -/
@[specialize] def foldColumns (step : β → Nat → m β) : Nat → Nat → β → m β
  | _, 0, handed => return handed
  | column, count + 1, handed => do
    foldColumns step (column + 1) count (← step handed column)

/-- What is handed on along a number of rows from one on. -/
@[specialize] def foldRows (step : β → Nat × Nat → m β) (column width : Nat) :
    Nat → Nat → β → m β
  | _, 0, handed => return handed
  | row, count + 1, handed => do
    let handed ← foldColumns (fun handed column => step handed (column, row)) column width handed
    foldRows step column width (row + 1) count handed

/-- What steps make of something that they hand on from position to position. -/
@[specialize] def foldM (step : β → Nat × Nat → m β) (init : β) (rectangle : Rectangle) : m β :=
  if rectangle.width = 0 then return init
  else foldRows step rectangle.column rectangle.width rectangle.row rectangle.height init

/-- The results of an action at all positions. -/
@[specialize] def visit (action : Nat × Nat → m β) (rectangle : Rectangle) : m (Array β) :=
  rectangle.foldM (fun found position => do return found.push (← action position)) #[]

/-- The loop along a row is a fold over its columns. -/
theorem foldColumns_eq [LawfulMonad m] (step : β → Nat → m β) (column count : Nat) (handed : β) :
    foldColumns step column count handed = (List.range' column count).foldlM step handed := by
  induction count generalizing column handed with
  | zero => simp [foldColumns]
  | succ count ih => simp [foldColumns, List.range'_succ, ih]

/-- The loop over the rows is a fold over all their positions. -/
theorem foldRows_eq [LawfulMonad m] (step : β → Nat × Nat → m β) (column width row count : Nat)
    (handed : β) :
    foldRows step column width row count handed =
      ((List.range' row count).flatMap fun row =>
        (List.range' column width).map fun column => (column, row)).foldlM step handed := by
  induction count generalizing row handed with
  | zero => simp [foldRows]
  | succ count ih =>
    simp [foldRows, List.range'_succ, ih, foldColumns_eq, List.foldlM_append, List.foldlM_map]

/-- The loop over a rectangle is a fold over its positions. -/
theorem foldM_eq [LawfulMonad m] (step : β → Nat × Nat → m β) (init : β) (rectangle : Rectangle) :
    rectangle.foldM step init = rectangle.positions.foldlM step init := by
  unfold foldM positions
  split
  · simp
  · simp [foldRows_eq]

/-- A visit is the action along the positions. -/
theorem visit_eq [LawfulMonad m] (action : Nat × Nat → m β) (rectangle : Rectangle) :
    rectangle.visit action = List.toArray <$> rectangle.positions.mapM action := by
  simp [visit, foldM_eq]

end Rectangle

end RayTracer
