import Mathlib
import RayTracer.Proofs.Image.Tabulation
import RayTracer.Proofs.Render.SamplingRules
import RayTracer.Proofs.Scene.NearestHit
import RayTracer.Render.PathTracer

/-! Runs of the path tracer that come to an end. Scattering and chance always give something. So a path is
there whenever surfaces have colors where rays hit them and depths can still be counted. -/

namespace RayTracer

variable {α : Type} [Scalar α]

/-- Wherever a ray hits, the pigment has a color. Only a texture whose pixels do not fill its size may
have none. -/
def World.Reflects (world : World α) : Prop :=
  ∀ ray hit, world.intersect? ray = some hit →
    ∃ color, hit.material.reflection.pigment.colorAt hit.uv = .ok color

/-- Wherever a ray hits, the emission has a color. -/
def World.Emits (world : World α) : Prop :=
  ∀ ray hit, world.intersect? ray = some hit → ∃ emitted, hit.material.emission.colorAt hit.uv = .ok emitted

/-- The pixels of a texture fill its size and can be counted. -/
def Pigment.IsFilled : Pigment α → Prop
  | .uniform _ => True
  | .checkered _ _ _ => True
  | .texture image => image.isFilled = true ∧ image.width * image.height < UInt64.size

/-- A coordinate of any kind falls on a pixel, if there is one. -/
theorem Pigment.exists_pixelIndex {extent : ℕ} (hExtent : 0 < extent) (x : α) :
    ∃ index, pixelIndex extent x = .ok index ∧ index < extent := by
  refine ⟨_, if_neg hExtent.ne', ?_⟩
  omega

/-- A pigment without gaps has a color everywhere. -/
theorem Pigment.exists_colorAt {pigment : Pigment α} (h : pigment.IsFilled) (uv : SurfacePoint α) :
    ∃ color, pigment.colorAt uv = .ok color := by
  cases pigment with
  | uniform color => exact ⟨_, rfl⟩
  | checkered first second steps => exact ⟨_, rfl⟩
  | texture image =>
      obtain ⟨hFilled, hFit⟩ := h
      change ∃ color, texel image uv = .ok color
      unfold texel
      split
      next => exact ⟨_, rfl⟩
      next hPixels =>
          have hSize : image.pixels.size = image.width * image.height := beq_iff_eq.mp hFilled
          have hSome : 0 < image.width * image.height :=
            hSize ▸ Array.size_pos_iff.mpr fun hNone => hPixels (Array.isEmpty_iff.mpr hNone)
          obtain ⟨col, hCol, hColLt⟩ := exists_pixelIndex (Nat.pos_of_mul_pos_right hSome) uv.u
          obtain ⟨row, hRow, hRowLt⟩ := exists_pixelIndex (Nat.pos_of_mul_pos_left hSome) uv.v
          obtain ⟨rule, hRule⟩ := Image.exists_eq_tabulate hFilled
          have hPixel := Image.get_tabulate rule hFit hColLt hRowLt
          rw [← hRule] at hPixel
          exact ⟨_, by rw [hCol, hRow]; exact hPixel⟩

theorem World.reflects_of_filled {world : World α}
    (h : ∀ shape ∈ world.shapes, shape.material.reflection.pigment.IsFilled) : world.Reflects := by
  intro ray hit hHit
  obtain ⟨shape, hShape, hMaterial⟩ := exists_material_of_intersect? hHit
  rw [hMaterial]
  exact Pigment.exists_colorAt (h shape hShape) _

theorem World.emits_of_filled {world : World α}
    (h : ∀ shape ∈ world.shapes, shape.material.emission.IsFilled) : world.Emits := by
  intro ray hit hHit
  obtain ⟨shape, hShape, hMaterial⟩ := exists_material_of_intersect? hHit
  rw [hMaterial]
  exact Pigment.exists_colorAt (h shape hShape) _

namespace PathTracer

/-- Scattering always gives a ray, of the depth that it is told. -/
theorem gives_scatter (reflection : Reflection α) (incoming : Vec α) (point : Point α)
    (normal : Normal α) (depth : ℕ) {P : Ray α → Prop}
    (h : ∀ (generator rest : Pcg) (ray : Ray α), (reflection.scatter incoming point normal depth :
      Sampling (Ray α)).run generator = .ok (ray, rest) → P ray) :
    Sampling.Gives (reflection.scatter incoming point normal depth)
      fun ray => P ray ∧ ray.depth = depth := by
  intro generator
  cases reflection with
  | diffuse pigment reflectance => exact ⟨_, _, rfl, h generator _ _ rfl, rfl⟩
  | specular pigment tolerance => exact ⟨_, _, rfl, h generator generator _ rfl, rfl⟩

/-- A branch at a hit follows a scattered ray one deeper than the ray that hit. -/
theorem gives_branch {follow : Ray α → Sampling (Path α)} {hit : Hit α} {rays : Set (Ray α)}
    {P : Path α → Prop} (hDepth : hit.ray.depth < depthLimit)
    (hScatter : ∀ (generator rest : Pcg) (ray : Ray α),
      (hit.material.reflection.scatter hit.ray.direction hit.point hit.normal (hit.ray.depth + 1) :
        Sampling (Ray α)).run generator = .ok (ray, rest) → ray ∈ rays)
    (hFollow : ∀ ray ∈ rays, ray.depth = hit.ray.depth + 1 → (follow ray).Gives P) :
    Sampling.Gives (branch follow hit) P := by
  have hNext : nextDepth hit.ray.depth = .ok (hit.ray.depth + 1) := if_pos hDepth
  unfold branch
  refine (Sampling.gives_of_eq_ok hNext).bind ?_
  rintro depth rfl
  refine (gives_scatter _ _ _ _ _ hScatter).bind ?_
  intro ray hRay
  exact hFollow ray hRay.1 hRay.2

/-- From the roulette depth on a single draw decides whether a path goes on. -/
theorem run_continuation_of_chance {tracer : PathTracer α} {depth : ℕ} (hChance : tracer.rouletteDepth ≤ depth)
    (color : Color α) (generator : Pcg) :
    (tracer.continuation depth color).run generator =
      .ok (if endingProbability color.maxComponent < Pcg.unitOf generator.draw.1 then
        some (color * survivorWeight (endingProbability color.maxComponent)) else none, generator.next) := by
  have hDrawn : (Pcg.sampleUnit : Sampling α).run generator =
      .ok (Pcg.unitOf generator.draw.1, generator.next) := rfl
  rw [continuation, if_neg hChance.not_gt]
  apply (Sampling.run_bind_of_ok hDrawn).trans
  split <;> rfl

/-- To go on or not is always decided. -/
theorem gives_continuation (tracer : PathTracer α) (depth : ℕ) (color : Color α) :
    Sampling.Gives (tracer.continuation depth color) fun _ => True := by
  have hDrawn : Sampling.Gives (Pcg.sampleUnit : Sampling α) fun _ => True :=
    fun generator => ⟨_, _, rfl, trivial⟩
  unfold continuation
  split
  · exact Sampling.gives_pure trivial
  · refine hDrawn.bind fun drawn _ => ?_
    split <;> exact Sampling.gives_pure trivial

/-- A bounce gives a path if the branches do. -/
theorem gives_goOn_of_branch {tracer : PathTracer α} {follow : Ray α → Sampling (Path α)} {hit : Hit α}
    {color emitted : Color α} (hColor : hit.material.reflection.pigment.colorAt hit.uv = .ok color)
    (hEmitted : hit.material.emission.colorAt hit.uv = .ok emitted)
    (hBranch : Sampling.Gives (branch follow hit) fun _ => True) :
    Sampling.Gives (tracer.goOn follow hit) fun _ => True := by
  unfold goOn
  refine (Sampling.gives_of_eq_ok hColor).bind ?_
  rintro _ rfl
  refine (Sampling.gives_of_eq_ok hEmitted).bind ?_
  rintro _ rfl
  refine (gives_continuation tracer _ _).bind ?_
  intro choice _
  cases choice with
  | none => exact Sampling.gives_pure trivial
  | some weight => exact (hBranch.mapM_replicate _).bind fun _ _ => Sampling.gives_pure trivial

/-- The depth of a ray and the number of rays that still follow it never exceed what can be counted, since
the one grows as the other falls. -/
theorem gives_follow_of_colors (tracer : PathTracer α) {world : World α} (hReflects : world.Reflects)
    (hEmits : world.Emits) {remaining : ℕ} {ray : Ray α} (hDepth : ray.depth + remaining ≤ depthLimit) :
    Sampling.Gives (tracer.follow world remaining ray) fun _ => True := by
  induction remaining generalizing ray with
  | zero => exact Sampling.gives_pure trivial
  | succ remaining ih =>
      cases hSeen : world.intersect? ray with
      | none =>
          simp only [follow, hSeen]
          exact Sampling.gives_pure trivial
      | some hit =>
          obtain ⟨color, hColor⟩ := hReflects ray hit hSeen
          obtain ⟨emitted, hEmitted⟩ := hEmits ray hit hSeen
          have hRay := World.ray_of_intersect? hSeen
          simp only [follow, hSeen]
          refine gives_goOn_of_branch hColor hEmitted ?_
          rw [← hRay] at hDepth
          refine gives_branch (by omega) (fun _ _ scattered _ => Set.mem_univ scattered) ?_
          intro scattered _ hNext
          exact ih (by omega)

/-- Where surfaces have colors and the depth limit can be counted beyond, every ray has a path. -/
theorem gives_path_of_colors (tracer : PathTracer α) {world : World α} (hReflects : world.Reflects)
    (hEmits : world.Emits) (hLimit : tracer.maxDepth < depthLimit) (ray : Ray α) :
    Sampling.Gives (tracer.path world ray) fun _ => True := by
  by_cases hDepth : ray.depth ≤ tracer.maxDepth
  · exact gives_follow_of_colors tracer hReflects hEmits (by omega)
  · have hNone : tracer.maxDepth + 1 - ray.depth = 0 := by omega
    rw [path, hNone]
    exact Sampling.gives_pure trivial

/-- With filled textures there is light along every ray. -/
theorem exists_radiance {tracer : PathTracer α} (hLimit : tracer.maxDepth < depthLimit) {world : World α}
    (hFilled : ∀ shape ∈ world.shapes,
      shape.material.reflection.pigment.IsFilled ∧ shape.material.emission.IsFilled)
    (ray : Ray α) (generator : Pcg) :
    ∃ light rest, (tracer.radiance world ray).run generator = .ok (light, rest) := by
  have hReflects := World.reflects_of_filled fun shape hShape => (hFilled shape hShape).1
  have hEmits := World.emits_of_filled fun shape hShape => (hFilled shape hShape).2
  obtain ⟨path, rest, hPath, -⟩ := gives_path_of_colors tracer hReflects hEmits hLimit ray generator
  exact ⟨_, rest, Sampling.run_bind_of_ok hPath⟩

end PathTracer

end RayTracer
