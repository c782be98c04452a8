import Mathlib

/-! Computations that stop at the first error. A chain of steps succeeds just when all of its steps do, and
else it stops at an error of one of them; a loop is such a chain, with a result in the place of every item. -/

namespace RayTracer

variable {β γ ε : Type}

/-- A chain succeeds when its first step and the rest do. -/
theorem bind_eq_ok_iff {outcome : Except ε β} {next : β → Except ε γ} {result : γ} :
    outcome >>= next = .ok result ↔ ∃ handed, outcome = .ok handed ∧ next handed = .ok result := by
  cases outcome with
  | error error => simp [bind, Except.bind]
  | ok handed => simp [bind, Except.bind]

/-- A chain stops at its first step or in the rest. -/
theorem bind_eq_error_iff {outcome : Except ε β} {next : β → Except ε γ} {error : ε} :
    outcome >>= next = .error error ↔
      outcome = .error error ∨ ∃ handed, outcome = .ok handed ∧ next handed = .error error := by
  cases outcome with
  | error stopped => simp [bind, Except.bind]
  | ok handed => simp [bind, Except.bind]

/-- An error that no step can stop at is not one of the chain. -/
theorem bind_ne_error {outcome : Except ε β} {next : β → Except ε γ} {error : ε}
    (hFirst : outcome ≠ .error error) (hNext : ∀ handed, next handed ≠ .error error) :
    outcome >>= next ≠ .error error := by
  rw [ne_eq, bind_eq_error_iff]
  rintro (hStopped | ⟨handed, -, hStopped⟩)
  · exact hFirst hStopped
  · exact hNext handed hStopped

theorem pure_eq_ok_iff {result handed : β} : (pure handed : Except ε β) = .ok result ↔ handed = result := by
  simp [pure, Except.pure]

theorem map_eq_ok_iff {outcome : Except ε β} {next : β → γ} {result : γ} :
    outcome.map next = .ok result ↔ ∃ handed, outcome = .ok handed ∧ next handed = result := by
  cases outcome with
  | error error => simp [Except.map]
  | ok handed => simp [Except.map]

/-- What is made of errors does not matter to a success. -/
theorem mapError_eq_ok_iff {outcome : Except ε β} {wrap : ε → γ} {result : β} :
    outcome.mapError wrap = .ok result ↔ outcome = .ok result := by
  cases outcome with
  | error error => simp [Except.mapError]
  | ok handed => simp [Except.mapError]

/-- An error is made of the one at which the computation stopped. -/
theorem mapError_eq_error_iff {outcome : Except ε β} {wrap : ε → γ} {error : γ} :
    outcome.mapError wrap = .error error ↔ ∃ reason, outcome = .error reason ∧ wrap reason = error := by
  cases outcome with
  | error reason => simp [Except.mapError]
  | ok handed => simp [Except.mapError]

/-- With the reason forgotten, what is left is the result of a success. -/
theorem toOption_eq_some_iff {outcome : Except ε β} {result : β} :
    outcome.toOption = some result ↔ outcome = .ok result := by
  cases outcome with
  | error error => simp [Except.toOption]
  | ok handed => simp [Except.toOption]

/-- What is made of an error is forgotten with it. -/
theorem toOption_mapError (outcome : Except ε β) (wrap : ε → γ) :
    (outcome.mapError wrap).toOption = outcome.toOption := by
  cases outcome <;> rfl

/-- A loop succeeds when all of its steps do, and its results stand in the places of the items. -/
theorem mapM_eq_ok_iff {step : β → Except ε γ} {items : List β} {results : List γ} :
    items.mapM step = .ok results ↔ List.Forall₂ (fun item result => step item = .ok result) items results := by
  induction items generalizing results with
  | nil => rw [List.mapM_nil, pure_eq_ok_iff, List.forall₂_nil_left_iff, eq_comm]
  | cons item items ih =>
      simp only [List.mapM_cons, List.forall₂_cons_left_iff, bind_eq_ok_iff, pure_eq_ok_iff, ih]
      constructor
      · rintro ⟨first, hFirst, rest, hRest, rfl⟩
        exact ⟨first, rest, hFirst, hRest, rfl⟩
      · rintro ⟨first, rest, hFirst, hRest, rfl⟩
        exact ⟨first, hFirst, rest, hRest, rfl⟩

/-- The steps of a loop that succeeds all do, and its results are theirs. -/
theorem forall_mem_of_mapM_eq_ok {step : β → Except ε γ} {items : List β} {results : List γ}
    (h : items.mapM step = .ok results) :
    (∀ item ∈ items, ∃ result, step item = .ok result) ∧
      ∀ result ∈ results, ∃ item ∈ items, step item = .ok result := by
  have hAll := mapM_eq_ok_iff.mp h
  clear h
  induction hAll with
  | nil => exact ⟨List.forall_mem_nil _, List.forall_mem_nil _⟩
  | @cons item result items results hStep hRest ih =>
      refine ⟨List.forall_mem_cons.mpr ⟨⟨result, hStep⟩, ih.1⟩, List.forall_mem_cons.mpr ⟨?_, ?_⟩⟩
      · exact ⟨item, List.mem_cons_self, hStep⟩
      · intro later hLater
        obtain ⟨other, hOther, hResult⟩ := ih.2 later hLater
        exact ⟨other, List.mem_cons_of_mem item hOther, hResult⟩

/-- The result of an item stands where the item does. -/
theorem getElem?_of_mapM_eq_ok {step : β → Except ε γ} {items : List β} {results : List γ}
    (h : items.mapM step = .ok results) {place : ℕ} {item : β} (hItem : items[place]? = some item) :
    ∃ result, step item = .ok result ∧ results[place]? = some result := by
  have hAll := mapM_eq_ok_iff.mp h
  obtain ⟨hPlace, rfl⟩ := List.getElem?_eq_some_iff.mp hItem
  have hResult : place < results.length := hAll.length_eq ▸ hPlace
  exact ⟨results[place], hAll.get hPlace hResult, List.getElem?_eq_getElem hResult⟩

/-- A loop of steps that succeed is a map. -/
theorem mapM_eq_ok_map {step : β → Except ε γ} {result : β → γ} {items : List β}
    (h : ∀ item ∈ items, step item = .ok (result item)) : items.mapM step = .ok (items.map result) :=
  mapM_eq_ok_iff.mpr (List.forall₂_map_right_iff.mpr (List.forall₂_same.mpr h))

/-- A loop succeeds if every step does. -/
theorem exists_mapM_eq_ok {step : β → Except ε γ} {items : List β}
    (h : ∀ item ∈ items, ∃ result, step item = .ok result) : ∃ results, items.mapM step = .ok results := by
  induction items with
  | nil => exact ⟨[], rfl⟩
  | cons item items ih =>
      obtain ⟨hItem, hItems⟩ := List.forall_mem_cons.mp h
      obtain ⟨first, hFirst⟩ := hItem
      obtain ⟨rest, hRest⟩ := ih hItems
      exact ⟨first :: rest, by rw [List.mapM_cons, hFirst, hRest]; rfl⟩

theorem exists_mapM_eq_error {action : β → Except ε γ} {items : List β} {item : β} (hMem : item ∈ items)
    {error : ε} (hAction : action item = .error error) : ∃ error, items.mapM action = .error error := by
  cases hLoop : items.mapM action with
  | error stopped => exact ⟨stopped, rfl⟩
  | ok results =>
      obtain ⟨result, hResult⟩ := (forall_mem_of_mapM_eq_ok hLoop).1 item hMem
      cases hAction.symm.trans hResult

theorem foldlM_congr_of_mem {step other : β → γ → Except ε β} {items : List γ}
    (h : ∀ item ∈ items, ∀ handed, step handed item = other handed item) (init : β) :
    items.foldlM step init = items.foldlM other init := by
  induction items generalizing init with
  | nil => rfl
  | cons item items ih =>
      rw [List.foldlM_cons, List.foldlM_cons, h item List.mem_cons_self]
      refine bind_congr fun handed => ih (fun other hOther => ?_) handed
      exact h other (List.mem_cons_of_mem item hOther)

/-- What every step of a loop keeps holds at its end. -/
theorem of_foldlM_eq_ok {step : β → γ → Except ε β} {P : β → Prop}
    (hStep : ∀ handed item next, P handed → step handed item = .ok next → P next) {items : List γ}
    {init result : β} (hInit : P init) (h : items.foldlM step init = .ok result) : P result := by
  induction items generalizing init with
  | nil => exact pure_eq_ok_iff.mp h ▸ hInit
  | cons item items ih =>
      rw [List.foldlM_cons] at h
      obtain ⟨next, hNext, hRest⟩ := bind_eq_ok_iff.mp h
      exact ih (hStep init item next hInit hNext) hRest

/-- A loop with a step that never succeeds does not succeed. -/
theorem exists_foldlM_eq_error {step : β → γ → Except ε β} {items : List γ} {item : γ} (hMem : item ∈ items)
    (hStep : ∀ handed, ∃ error, step handed item = .error error) (init : β) :
    ∃ error, items.foldlM step init = .error error := by
  induction items generalizing init with
  | nil => cases hMem
  | cons first items ih =>
      rw [List.foldlM_cons]
      cases hFirst : step init first with
      | error error => exact ⟨error, rfl⟩
      | ok handed =>
          rcases List.mem_cons.mp hMem with rfl | hLater
          · obtain ⟨error, hError⟩ := hStep init
            rw [hFirst] at hError
            cases hError
          · exact ih hLater handed

end RayTracer
