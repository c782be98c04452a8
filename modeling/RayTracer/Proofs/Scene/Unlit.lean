import Mathlib
import RayTracer.Proofs.Scene.NearestHit

/-! Shapes that have stopped glowing. What a shape emits plays no part in where rays meet it, so a ray sees
the same in an unlit world, up to the emission itself. Worlds that differ only in what their shapes emit are
those that become one when they are unlit. -/

namespace RayTracer

variable {α : Type}

/-- The surface of a hit with another emission. -/
def Hit.emitting (hit : Hit α) (emission : Pigment α) : Hit α :=
  { hit with material := { hit.material with emission := emission } }

namespace Hit

@[simp] theorem emitting_point (hit : Hit α) (emission : Pigment α) :
    (hit.emitting emission).point = hit.point := rfl

@[simp] theorem emitting_normal (hit : Hit α) (emission : Pigment α) :
    (hit.emitting emission).normal = hit.normal := rfl

@[simp] theorem emitting_uv (hit : Hit α) (emission : Pigment α) :
    (hit.emitting emission).uv = hit.uv := rfl

@[simp] theorem emitting_ray (hit : Hit α) (emission : Pigment α) :
    (hit.emitting emission).ray = hit.ray := rfl

@[simp] theorem emitting_material (hit : Hit α) (emission : Pigment α) :
    (hit.emitting emission).material = ⟨hit.material.reflection, emission⟩ := rfl

end Hit

variable [Scalar α]

def Hit.unlit (hit : Hit α) : Hit α := hit.emitting (.uniform Color.black)

def Shape.unlit (shape : Shape α) : Shape α :=
  { shape with material := { shape.material with emission := .uniform Color.black } }

/-- The surfaces of a world: neither its shapes nor anything else gives light. -/
def World.unlit (world : World α) : World α := ⟨world.shapes.map Shape.unlit, []⟩

/-- A hit is its surface and what it emits. -/
theorem Hit.eq_emitting {hit surface : Hit α} (h : hit.unlit = surface) :
    hit = surface.emitting hit.material.emission := by
  subst h
  rfl

/-- Emission does not matter to where a shape is hit. -/
theorem Shape.intersect?_unlit (shape : Shape α) (ray : Ray α) :
    shape.unlit.intersect? ray = (shape.intersect? ray).map Hit.unlit := by
  change (shape.parameter? ray).map (shape.unlit.hitAt ray) = _
  rw [intersect?, Option.map_map]
  rfl

namespace World

theorem nearestHit?_unlit (shapes : List (Shape α)) (ray : Ray α) :
    nearestHit? (shapes.map Shape.unlit) ray = (nearestHit? shapes ray).map Hit.unlit := by
  have hHits : (shapes.map Shape.unlit).filterMap (·.intersect? ray) =
      (shapes.filterMap (·.intersect? ray)).map Hit.unlit := by
    rw [List.filterMap_map, List.map_filterMap]
    exact congrArg (List.filterMap · shapes) (funext fun shape => shape.intersect?_unlit ray)
  rw [nearestHit?_eq_foldl, nearestHit?_eq_foldl, hHits]
  exact foldl_leastBy_map (fun _ => rfl) _

/-- Emission does not matter to what a ray sees. -/
theorem intersect?_unlit (world : World α) (ray : Ray α) :
    world.unlit.intersect? ray = (world.intersect? ray).map Hit.unlit := by
  rw [intersect?, intersect?, unlit, nearestHit?_unlit, Option.map_map, Option.map_map]
  rfl

/-- Worlds that differ only in what they emit are hit alike. -/
theorem unlit_eq_of_intersect? {one other : World α} (hSurfaces : one.unlit = other.unlit) {ray : Ray α}
    {hit seen : Hit α} (hHit : one.intersect? ray = some hit) (hSeen : other.intersect? ray = some seen) :
    hit.unlit = seen.unlit := by
  have hBoth := one.intersect?_unlit ray
  rw [hSurfaces, other.intersect?_unlit, hHit, hSeen] at hBoth
  exact (Option.some.inj hBoth).symm

variable {ι : Type} {worlds : ι → World α} {surfaces : World α} {ray : Ray α}

/-- A ray that misses the surfaces that worlds have in common misses everything in each of them. -/
theorem intersect?_eq_none_of_unlit (hSurfaces : ∀ i, (worlds i).unlit = surfaces)
    (hMissed : surfaces.intersect? ray = none) (i : ι) : (worlds i).intersect? ray = none := by
  rw [← hSurfaces i, intersect?_unlit, Option.map_eq_none_iff] at hMissed
  exact hMissed

/-- What a ray sees in worlds of the same surfaces is the same up to the emission. -/
theorem exists_emissions_of_unlit (hSurfaces : ∀ i, (worlds i).unlit = surfaces) {surface : Hit α}
    (hSeen : surfaces.intersect? ray = some surface) :
    ∃ emissions : ι → Pigment α, ∀ i, (worlds i).intersect? ray = some (surface.emitting (emissions i)) := by
  have hHit (i : ι) : ∃ hit, (worlds i).intersect? ray = some hit ∧ hit.unlit = surface := by
    rw [← hSurfaces i, intersect?_unlit, Option.map_eq_some_iff] at hSeen
    exact hSeen
  choose hits hHits hUnlit using hHit
  refine ⟨fun i => (hits i).material.emission, fun i => ?_⟩
  rw [hHits i, ← Hit.eq_emitting (hUnlit i)]

end World

end RayTracer
