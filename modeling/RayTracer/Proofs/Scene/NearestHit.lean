import Mathlib
import RayTracer.Scene.World

/-! The hit that a ray sees belongs to one of the shapes of the world and records the ray itself. Its
parameter lies in the interval of the ray, since shapes look for it there. -/

namespace RayTracer

variable {α : Type} [Scalar α]

/-- Solids only offer parameters inside the interval, whatever the numbers of the ray are. -/
theorem Solid.surrounds_of_parameter? {solid : Solid} {ray : Ray α} {t : α}
    (h : solid.parameter? ray = some t) : ray.interval.surrounds t = true := by
  cases solid with
  | sphere =>
      simp only [parameter?, sphereParameter?] at h
      split at h
      next => cases h
      next =>
          split at h
          next hNear => exact Option.some.inj h ▸ hNear
          next =>
              split at h
              next hFar => exact Option.some.inj h ▸ hFar
              next => cases h
  | plane =>
      simp only [parameter?, planeParameter?] at h
      split at h
      next => cases h
      next =>
          split at h
          next hInside => exact Option.some.inj h ▸ hInside
          next => cases h

/-- A ray keeps its interval where a shape looks at it. -/
theorem Shape.surrounds_of_intersect? {shape : Shape α} {ray : Ray α} {hit : Hit α}
    (h : shape.intersect? ray = some hit) : ray.interval.surrounds hit.t = true := by
  obtain ⟨t, hParameter, rfl⟩ := Option.map_eq_some_iff.mp h
  have hSurrounds := Solid.surrounds_of_parameter? hParameter
  exact hSurrounds

section Minimum

variable {β γ : Type} {key : β → α}

/-- Of two items the one with the smaller key, the earlier one when neither key is smaller. -/
def leastBy (key : β → α) (best : Option β) (candidate : β) : Option β :=
  match best with
  | none => some candidate
  | some known => if key candidate < key known then some candidate else best

/-- The least of items is one of them. -/
theorem mem_of_foldl_leastBy {items : List β} {best : Option β} {item : β}
    (h : items.foldl (leastBy key) best = some item) : best = some item ∨ item ∈ items := by
  induction items generalizing best with
  | nil => exact Or.inl h
  | cons first items ih =>
      rcases ih h with hBest | hMem
      · unfold leastBy at hBest
        split at hBest
        next =>
            obtain rfl := Option.some.inj hBest
            exact Or.inr List.mem_cons_self
        next known =>
            split at hBest
            next =>
                obtain rfl := Option.some.inj hBest
                exact Or.inr List.mem_cons_self
            next => exact Or.inl hBest
      · exact Or.inr (List.mem_cons_of_mem first hMem)

/-- Only the keys decide which item is the least. -/
theorem foldl_leastBy_map {f : β → γ} {other : γ → α} (hKey : ∀ item, other (f item) = key item)
    (items : List β) :
    (items.map f).foldl (leastBy other) none = (items.foldl (leastBy key) none).map f := by
  have hStep (best : Option β) (candidate : β) :
      leastBy other (best.map f) (f candidate) = (leastBy key best candidate).map f := by
    cases best with
    | none => rfl
    | some known =>
        simp only [Option.map_some, leastBy, hKey]
        exact (apply_ite (Option.map f) (key candidate < key known) (some candidate) (some known)).symm
  have hFold : items.foldl (fun best item => leastBy other best (f item)) (Option.map f none) =
      (items.foldl (leastBy key) none).map f := List.foldl_hom (Option.map f) hStep
  rw [List.foldl_map]
  exact hFold

end Minimum

theorem World.nearestHit?_eq_foldl (shapes : List (Shape α)) (ray : Ray α) :
    nearestHit? shapes ray = (shapes.filterMap (·.intersect? ray)).foldl (leastBy Hit.t) none := by
  have hNearer : nearer = leastBy (Hit.t (α := α)) := by
    funext best candidate
    cases best <;> rfl
  rw [nearestHit?, hNearer]

/-- What a ray sees is a hit of a shape, up to the length of the normal. -/
theorem World.exists_shape_of_intersect? {world : World α} {ray : Ray α} {hit : Hit α}
    (h : world.intersect? ray = some hit) :
    ∃ shape ∈ world.shapes, ∃ met, shape.intersect? ray = some met ∧
      hit = { met with normal := met.normal.normalized } := by
  obtain ⟨met, hNearest, hHit⟩ := Option.map_eq_some_iff.mp h
  rw [nearestHit?_eq_foldl] at hNearest
  rcases mem_of_foldl_leastBy hNearest with hNone | hMem
  · cases hNone
  · obtain ⟨shape, hShape, hMet⟩ := List.mem_filterMap.mp hMem
    exact ⟨shape, hShape, met, hMet, hHit.symm⟩

/-- A hit records the ray that met the shape. -/
theorem World.ray_of_intersect? {world : World α} {ray : Ray α} {hit : Hit α}
    (h : world.intersect? ray = some hit) : hit.ray = ray := by
  obtain ⟨shape, -, met, hMet, rfl⟩ := exists_shape_of_intersect? h
  obtain ⟨t, -, rfl⟩ := Option.map_eq_some_iff.mp hMet
  rfl

/-- A hit shows the material of a shape. -/
theorem World.exists_material_of_intersect? {world : World α} {ray : Ray α} {hit : Hit α}
    (h : world.intersect? ray = some hit) : ∃ shape ∈ world.shapes, hit.material = shape.material := by
  obtain ⟨shape, hShape, met, hMet, rfl⟩ := exists_shape_of_intersect? h
  obtain ⟨t, -, rfl⟩ := Option.map_eq_some_iff.mp hMet
  exact ⟨shape, hShape, rfl⟩

/-- What a ray sees is within its interval. -/
theorem World.surrounds_of_intersect? {world : World α} {ray : Ray α} {hit : Hit α}
    (h : world.intersect? ray = some hit) : ray.interval.surrounds hit.t = true := by
  obtain ⟨shape, -, met, hMet, rfl⟩ := exists_shape_of_intersect? h
  have hSurrounds := Shape.surrounds_of_intersect? hMet
  exact hSurrounds

/-- In a world of one shape its hits are what is seen. -/
theorem World.intersect?_singleton {shape : Shape α} {lights : List (PointLight α)} {ray : Ray α}
    {hit : Hit α} (h : shape.intersect? ray = some hit) :
    (⟨[shape], lights⟩ : World α).intersect? ray =
      some { hit with normal := hit.normal.normalized } := by
  simp [World.intersect?, nearestHit?, h, nearer]

end RayTracer
