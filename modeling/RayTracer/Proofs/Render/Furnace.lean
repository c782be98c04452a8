import Mathlib
import RayTracer.Proofs.Exact.Transformations
import RayTracer.Proofs.Render.PathCompletion

/-! The furnace law, over exact numbers. In a closed scene of one pigment and one emission every bounce adds
the emission times one more power of the pigment, so the light along a ray is a geometric sum that depends on
nothing but the number of bounces that are left to it. -/

namespace RayTracer

open scoped BigOperators

namespace PathTracer

/-- The light of a furnace after a number of hits: the emission of each one, dimmed by the pigments of those
before it. -/
noncomputable def furnaceLight (pigment emission : Color ℝ) (hits : ℕ) : Color ℝ :=
  ⟨emission.r * ∑ i ∈ Finset.range hits, pigment.r ^ i,
    emission.g * ∑ i ∈ Finset.range hits, pigment.g ^ i,
    emission.b * ∑ i ∈ Finset.range hits, pigment.b ^ i⟩

theorem furnaceLight_zero (pigment emission : Color ℝ) :
    furnaceLight pigment emission 0 = Color.black := by
  simp [furnaceLight, Color.black_exact]

/-- One hit more adds the emission and takes the rest through the pigment. -/
theorem furnaceLight_succ (pigment emission : Color ℝ) (hits : ℕ) :
    furnaceLight pigment emission (hits + 1) =
      emission + pigment * furnaceLight pigment emission hits := by
  rw [Color.mul_exact, Color.add_exact]
  simp only [furnaceLight, geom_sum_succ]
  ext <;> ring

/-- Branches of the same light add it as often as there are branches. -/
theorem addLight_of_forall {background : Color ℝ} {fanOut : ℕ} {light : Color ℝ} (weight : Color ℝ)
    {branches : List (Path ℝ)} (h : ∀ branch ∈ branches, branch.light background fanOut = light)
    (sum : Color ℝ) :
    Path.addLight background fanOut weight branches sum =
      ⟨sum.r + branches.length * (weight.r * light.r), sum.g + branches.length * (weight.g * light.g),
        sum.b + branches.length * (weight.b * light.b)⟩ := by
  induction branches generalizing sum with
  | nil => simp [Path.addLight]
  | cons branch branches ih =>
      have hFirst := h branch List.mem_cons_self
      have hRest := ih fun other hOther => h other (List.mem_cons_of_mem branch hOther)
      rw [Path.addLight, hRest, hFirst, Color.mul_exact, Color.add_exact, List.length_cons]
      ext <;> push_cast <;> ring

/-- The average over a fan of branches of the same light is that light, weighted. -/
theorem light_scattered_of_forall {background : Color ℝ} {fanOut : ℕ} {light : Color ℝ} (hit : Hit ℝ)
    (emitted weight : Color ℝ) {branches : List (Path ℝ)} (hFanOut : 0 < fanOut)
    (hLength : branches.length = fanOut)
    (h : ∀ branch ∈ branches, branch.light background fanOut = light) :
    (Path.scattered hit emitted weight branches).light background fanOut = emitted + weight * light := by
  have hCount : (fanOut : ℝ) ≠ 0 := Nat.cast_ne_zero.mpr (Nat.ne_of_gt hFanOut)
  have hAverage (x : ℝ) : (0 + fanOut * x) * (1.0 / Scalar.ofNat fanOut) = x := by
    change (0 + fanOut * x) * (1.0 / (fanOut : ℝ)) = x
    field_simp
    norm_num
  rw [Path.light, addLight_of_forall weight h, hLength, Color.black_exact, Color.mul_scalar_exact,
    Color.mul_exact, Color.add_exact, Color.add_exact]
  simp only [hAverage]

theorem light_scattered_nil {background : Color ℝ} {fanOut : ℕ} (hit : Hit ℝ) (emitted weight : Color ℝ) :
    (Path.scattered hit emitted weight []).light background fanOut = emitted := by
  rw [Path.light, Path.addLight, Color.black_exact, Color.mul_scalar_exact, Color.add_exact]
  simp only [zero_mul, add_zero]

/-- Rays of a closed scene. Each of them hits a surface of the one pigment and the one emission, and whatever
numbers are drawn, the ray that is scattered there is one of them again. -/
structure Furnace (world : World ℝ) (pigment emission : Color ℝ) (rays : Set (Ray ℝ)) : Prop where
  hits : ∀ ray ∈ rays, ∃ hit, world.intersect? ray = some hit ∧
    (∀ uv, hit.material.reflection.pigment.colorAt uv = .ok pigment) ∧
    (∀ uv, hit.material.emission.colorAt uv = .ok emission) ∧
    ∀ (generator rest : Pcg) (scattered : Ray ℝ), ray.depth < depthLimit →
      (hit.material.reflection.scatter ray.direction hit.point hit.normal (ray.depth + 1) :
        Sampling (Ray ℝ)).run generator = .ok (scattered, rest) → scattered ∈ rays

variable {tracer : PathTracer ℝ} {world : World ℝ} {pigment emission : Color ℝ} {rays : Set (Ray ℝ)}

/-- One bounce in a furnace: what follows a hit is dimmed by the pigment and joins the emission. A black
pigment scatters nothing, and dims all that could follow to nothing. -/
theorem gives_goOn {follow : Ray ℝ → Sampling (Path ℝ)} {hit : Hit ℝ} {light : Color ℝ}
    (hFanOut : 0 < tracer.fanOut) (hRoulette : hit.ray.depth < tracer.rouletteDepth)
    (hChannels : 0 ≤ pigment.r ∧ 0 ≤ pigment.g ∧ 0 ≤ pigment.b)
    (hPigment : ∀ uv, hit.material.reflection.pigment.colorAt uv = .ok pigment)
    (hEmission : ∀ uv, hit.material.emission.colorAt uv = .ok emission)
    (hBranch : Sampling.Gives (branch follow hit)
      fun path => path.light tracer.background tracer.fanOut = light) :
    Sampling.Gives (tracer.goOn follow hit)
      fun path => path.light tracer.background tracer.fanOut = emission + pigment * light := by
  have hGoesOn : tracer.continuation hit.ray.depth pigment = pure (some pigment) := if_pos hRoulette
  unfold goOn
  refine (Sampling.gives_of_eq_ok (hPigment hit.uv)).bind ?_
  rintro color rfl
  refine (Sampling.gives_of_eq_ok (hEmission hit.uv)).bind ?_
  rintro emitted rfl
  rw [hGoesOn]
  refine (Sampling.gives_pure (P := (· = some color)) rfl).bind ?_
  rintro _ rfl
  by_cases hBright : (0.0 : ℝ) < color.maxComponent
  · simp only [hBright, ↓reduceIte]
    refine (hBranch.mapM_replicate tracer.fanOut).bind ?_
    intro paths hPaths
    exact Sampling.gives_pure (light_scattered_of_forall hit emitted color hFanOut hPaths.1 hPaths.2)
  · have hBlack : color = ⟨0, 0, 0⟩ := by
      refine Color.eq_black_of_not_pos hChannels.1 hChannels.2.1 hChannels.2.2 ?_
      norm_num at hBright
      exact not_lt.mpr hBright
    simp only [hBright, ↓reduceIte]
    refine (hBranch.mapM_replicate 0).bind ?_
    intro paths hPaths
    obtain rfl := List.length_eq_zero_iff.mp hPaths.1
    refine Sampling.gives_pure ?_
    rw [light_scattered_nil, hBlack, Color.mul_exact, Color.add_exact]
    simp only [zero_mul, add_zero]

/-- A run in a furnace. The number of rays that still follow each other and the depth of the ray add up to
the same at every bounce, and the light has as many terms as rays are left. -/
theorem gives_follow (hFurnace : Furnace world pigment emission rays)
    (hChannels : 0 ≤ pigment.r ∧ 0 ≤ pigment.g ∧ 0 ≤ pigment.b) (hFanOut : 0 < tracer.fanOut)
    (hRoulette : tracer.maxDepth < tracer.rouletteDepth) (hLimit : tracer.rouletteDepth ≤ depthLimit)
    {remaining : ℕ} {ray : Ray ℝ} (hRay : ray ∈ rays)
    (hRemaining : remaining = 0 ∨ ray.depth + remaining = tracer.maxDepth + 1) :
    Sampling.Gives (tracer.follow world remaining ray)
      fun path => path.light tracer.background tracer.fanOut =
        furnaceLight pigment emission remaining := by
  induction remaining generalizing ray with
  | zero =>
      refine Sampling.gives_pure ?_
      rw [Path.light, furnaceLight_zero]
  | succ remaining ih =>
      obtain ⟨hit, hSeen, hPigment, hEmission, hScatter⟩ := hFurnace.hits ray hRay
      have hDepth : hit.ray.depth + (remaining + 1) = tracer.maxDepth + 1 := by
        rw [World.ray_of_intersect? hSeen]
        exact hRemaining.resolve_left (Nat.succ_ne_zero remaining)
      rw [← World.ray_of_intersect? hSeen] at hScatter
      have hBelow : hit.ray.depth < depthLimit := by omega
      have hBranch : Sampling.Gives (branch (tracer.follow world remaining) hit)
          fun path => path.light tracer.background tracer.fanOut =
            furnaceLight pigment emission remaining := by
        refine gives_branch hBelow (fun generator rest scattered => hScatter generator rest scattered hBelow)
          fun scattered hScattered hNext => ih hScattered (Or.inr ?_)
        omega
      rw [furnaceLight_succ]
      simp only [follow, hSeen]
      exact gives_goOn hFanOut (by omega) hChannels hPigment hEmission hBranch

/-- The furnace law. Along every ray of a closed scene of one pigment and one emission, the light is the
emission times the sum of the powers of the pigment, one for every bounce that the depth limit leaves, and
black beyond that limit. The number of scattered rays and the numbers that are drawn do not matter. -/
theorem radiance_furnace (tracer : PathTracer ℝ) {world : World ℝ} {pigment emission : Color ℝ}
    {rays : Set (Ray ℝ)} (hFurnace : Furnace world pigment emission rays)
    (hChannels : 0 ≤ pigment.r ∧ 0 ≤ pigment.g ∧ 0 ≤ pigment.b) (hFanOut : 0 < tracer.fanOut)
    (hRoulette : tracer.maxDepth < tracer.rouletteDepth) (hLimit : tracer.rouletteDepth ≤ depthLimit)
    {ray : Ray ℝ} (hRay : ray ∈ rays) (generator : Pcg) :
    ∃ rest, (tracer.radiance world ray).run generator =
      .ok (if ray.depth ≤ tracer.maxDepth then
          ⟨emission.r * ∑ i ∈ Finset.range (tracer.maxDepth - ray.depth + 1), pigment.r ^ i,
            emission.g * ∑ i ∈ Finset.range (tracer.maxDepth - ray.depth + 1), pigment.g ^ i,
            emission.b * ∑ i ∈ Finset.range (tracer.maxDepth - ray.depth + 1), pigment.b ^ i⟩
        else Color.black, rest) := by
  have hRemaining : tracer.maxDepth + 1 - ray.depth = 0 ∨
      ray.depth + (tracer.maxDepth + 1 - ray.depth) = tracer.maxDepth + 1 := by omega
  obtain ⟨path, rest, hRun, hLight⟩ :=
    gives_follow hFurnace hChannels hFanOut hRoulette hLimit hRay hRemaining generator
  refine ⟨rest, ?_⟩
  rw [radiance, PathTracer.path, StateT.run_bind, hRun]
  change Except.ok (path.light tracer.background tracer.fanOut, rest) = _
  rw [hLight]
  by_cases hDepth : ray.depth ≤ tracer.maxDepth
  · rw [if_pos hDepth, Nat.sub_add_comm hDepth]
    rfl
  · have hNone : tracer.maxDepth + 1 - ray.depth = 0 := by omega
    rw [if_neg hDepth, hNone, furnaceLight_zero]

/-- A unit sphere that glows and is polished, so that rays inside it stay there. -/
noncomputable def glowingMirror : Shape ℝ :=
  ⟨.sphere, .identity, ⟨.specular (.uniform ⟨1 / 2, 0, 1 / 4⟩) 1, .uniform ⟨1, 2, 0⟩⟩⟩

/-- A ray across the unit sphere along the first axis, from the one side or the other. -/
noncomputable def across (side : ℝ) (depth : ℕ) : Ray ℝ :=
  ⟨⟨side, 0, 0⟩, ⟨-side, 0, 0⟩, ⟨1e-5, .unbounded⟩, depth⟩

def acrossSphere : Set (Ray ℝ) := {ray | ∃ side depth, side * side = 1 ∧ ray = across side depth}

theorem normalized_axis {side : ℝ} (hSide : side * side = 1) :
    (⟨side, 0, 0⟩ : Normal ℝ).normalized = ⟨side, 0, 0⟩ := by
  have hLength : (⟨side, 0, 0⟩ : Normal ℝ).norm = 1 := by
    simp only [Normal.norm, Normal.squaredNorm, Scalar.sqrt]
    rw [hSide]
    norm_num
  simp only [Normal.normalized, hLength, div_one]

theorem sphereParameter?_across {side : ℝ} (hSide : side * side = 1) (depth : ℕ) :
    Solid.sphereParameter? (across side depth) = some 2 := by
  have hLength : (across side depth).direction.squaredNorm = 1 := by
    simp only [across, Vec.squaredNorm, Vec.dot]
    linarith
  have hTowards : 2.0 * (across side depth).origin.toVec.dot (across side depth).direction = -2 := by
    simp only [across, Point.toVec, Vec.dot]
    linarith
  have hOn : (across side depth).origin.toVec.squaredNorm - 1.0 = 0 := by
    simp only [across, Point.toVec, Vec.squaredNorm, Vec.dot]
    linarith
  have hDiscriminant : (-2 : ℝ) * -2 - 4.0 * 1 * 0 = 4 := by norm_num
  have hNear : (across side depth).interval.surrounds ((-(-2) - 2) / (2.0 * 1)) = false := by
    simp only [Interval.surrounds, across]
    norm_num
  have hFar : (across side depth).interval.surrounds 2 = true := by
    simp only [Interval.surrounds, across, UpperBound.exceeds, Scalar.belowInfinity]
    norm_num
  have hTwo : ((-(-2) + 2) / (2.0 * 1) : ℝ) = 2 := by norm_num
  have hMeets : ¬(4 : ℝ) ≤ 0.0 := by norm_num
  unfold Solid.sphereParameter?
  simp only [hLength, hTowards, hOn, Scalar.sqrt, hDiscriminant, Scalar.sqrt_four, hMeets, hNear, hFar, hTwo,
    ↓reduceIte, Bool.false_eq_true]

/-- A ray across meets the mirror on the other side, where the normal points back along it. -/
theorem intersect?_across {side : ℝ} (hSide : side * side = 1) (depth : ℕ) :
    ∃ hit, (⟨[glowingMirror], []⟩ : World ℝ).intersect? (across side depth) = some hit ∧
      hit.material = glowingMirror.material ∧ hit.point = ⟨-side, 0, 0⟩ ∧ hit.normal = ⟨side, 0, 0⟩ := by
  have hLocal : glowingMirror.localRay (across side depth) = across side depth := Ray.transform_identity _
  have hMet : glowingMirror.intersect? (across side depth) =
      some (glowingMirror.hitAt (across side depth) 2) := by
    rw [Shape.intersect?, Shape.parameter?, hLocal, glowingMirror, Solid.parameter?,
      sphereParameter?_across hSide]
    rfl
  have hPoint : (across side depth).pointAt 2 = ⟨-side, 0, 0⟩ := by
    change (⟨side + -side * 2, 0 + 0 * 2, 0 + 0 * 2⟩ : Point ℝ) = ⟨-side, 0, 0⟩
    ring_nf
  have hNormal : Solid.sphereNormal ⟨-side, 0, 0⟩ ⟨-side, 0, 0⟩ = ⟨side, 0, 0⟩ := by
    have hAway : ¬(Point.toVec ⟨-side, 0, 0⟩).dot ⟨-side, 0, 0⟩ < 0.0 := by
      simp only [Point.toVec, Vec.dot]
      norm_num
      nlinarith
    rw [Solid.sphereNormal, if_neg hAway]
    change (⟨-(-side), -0, -0⟩ : Normal ℝ) = ⟨side, 0, 0⟩
    simp only [neg_neg, neg_zero]
  have hPlace : glowingMirror.transformation = .identity := rfl
  have hSolid : glowingMirror.solid = .sphere := rfl
  have hDirection : (across side depth).direction = ⟨-side, 0, 0⟩ := rfl
  refine ⟨_, World.intersect?_singleton hMet, rfl, ?_, ?_⟩
  · simp only [Shape.hitAt, hLocal, hPoint, hPlace, Transformation.applyPoint_identity]
  · simp only [Shape.hitAt, hLocal, hPoint, hPlace, hSolid, hDirection, Solid.normalAt, hNormal,
      Transformation.applyNormal_identity, normalized_axis hSide]

/-- The mirror sends a ray across back across, one bounce deeper. -/
theorem scatter_across {side : ℝ} (hSide : side * side = 1) (depth : ℕ) (generator : Pcg) :
    (glowingMirror.material.reflection.scatter (across side depth).direction ⟨-side, 0, 0⟩ ⟨side, 0, 0⟩
      (depth + 1) : Sampling (Ray ℝ)).run generator = .ok (across (-side) (depth + 1), generator) := by
  have hUnit : (⟨-side, 0, 0⟩ : Vec ℝ).normalized = ⟨-side, 0, 0⟩ := by
    have hNorm : (⟨-side, 0, 0⟩ : Vec ℝ).norm = 1 := by
      simp only [Vec.norm, Vec.squaredNorm, Vec.dot, Scalar.sqrt]
      rw [neg_mul_neg, hSide]
      norm_num
    change (⟨-side / _, 0 / _, 0 / _⟩ : Vec ℝ) = _
    rw [hNorm, div_one, div_one]
  have hMirrored : Reflection.mirrored ⟨side, 0, 0⟩ ⟨-side, 0, 0⟩ = (⟨side, 0, 0⟩ : Vec ℝ) := by
    have hBack : -side - side * (2.0 * (side * -side + 0 * 0 + 0 * 0)) = side := by
      have hCube : side * -side = -1 := by rw [mul_neg, hSide]
      rw [hCube]
      norm_num
      ring
    have hStays (k : ℝ) : (0 : ℝ) - 0 * k = 0 := by rw [zero_mul, sub_zero]
    rw [Reflection.mirrored, hUnit, normalized_axis hSide]
    change (⟨-side - side * (2.0 * (side * -side + 0 * 0 + 0 * 0)), 0 - 0 * _, 0 - 0 * _⟩ : Vec ℝ) = _
    rw [hBack, hStays]
  change Except.ok ((⟨⟨-side, 0, 0⟩, Reflection.mirrored ⟨side, 0, 0⟩ ⟨-side, 0, 0⟩, ⟨1e-5, .unbounded⟩,
    depth + 1⟩ : Ray ℝ), generator) = _
  rw [hMirrored, across, neg_neg]

/-- Inside a mirror that glows all rays hit it and nothing else. -/
theorem furnace_glowingMirror :
    Furnace ⟨[glowingMirror], []⟩ ⟨1 / 2, 0, 1 / 4⟩ ⟨1, 2, 0⟩ acrossSphere := by
  constructor
  rintro ray ⟨side, depth, hSide, rfl⟩
  obtain ⟨hit, hSeen, hMaterial, hPoint, hNormal⟩ := intersect?_across hSide depth
  refine ⟨hit, hSeen, ?_, ?_, ?_⟩
  · rw [hMaterial]
    exact fun _ => rfl
  · rw [hMaterial]
    exact fun _ => rfl
  · intro generator rest scattered hDepth hScatter
    rw [hMaterial, hPoint, hNormal] at hScatter
    have hRun := (scatter_across hSide depth generator).symm.trans hScatter
    obtain ⟨rfl, rfl⟩ := Prod.mk.inj (Except.ok.inj hRun)
    exact ⟨-side, depth + 1, by rw [neg_mul_neg, hSide], rfl⟩

/-- Three hits with a pigment of a half give seven quarters of the emission; a channel without pigment shows
the first hit only, and one without emission nothing. -/
theorem radiance_furnace_glowingMirror :
    Furnace ⟨[glowingMirror], []⟩ ⟨1 / 2, 0, 1 / 4⟩ ⟨1, 2, 0⟩ acrossSphere ∧
      ((0 : ℝ) ≤ 1 / 2 ∧ (0 : ℝ) ≤ 0 ∧ (0 : ℝ) ≤ 1 / 4) ∧ (0 < 2 ∧ 2 < 3 ∧ 3 ≤ depthLimit) ∧
      across 1 0 ∈ acrossSphere ∧
      ∀ generator : Pcg, ∃ rest, ((⟨Color.white, 2, 2, 3⟩ : PathTracer ℝ).radiance
        ⟨[glowingMirror], []⟩ (across 1 0)).run generator = .ok (⟨7 / 4, 2, 0⟩, rest) := by
  have hMem : across 1 0 ∈ acrossSphere := ⟨1, 0, one_mul 1, rfl⟩
  have hDepth : (across 1 0).depth ≤ 2 := Nat.zero_le 2
  have hChannels : (0 : ℝ) ≤ 1 / 2 ∧ (0 : ℝ) ≤ 0 ∧ (0 : ℝ) ≤ 1 / 4 := by norm_num
  have hDepths : 0 < 2 ∧ 2 < 3 ∧ 3 ≤ depthLimit := by decide
  refine ⟨furnace_glowingMirror, hChannels, hDepths, hMem, ?_⟩
  intro generator
  obtain ⟨rest, hRun⟩ := radiance_furnace ⟨Color.white, 2, 2, 3⟩ furnace_glowingMirror hChannels hDepths.1
    hDepths.2.1 hDepths.2.2 hMem generator
  refine ⟨rest, hRun.trans ?_⟩
  rw [if_pos hDepth]
  norm_num [Finset.sum_range_succ, across]

end PathTracer

end RayTracer
