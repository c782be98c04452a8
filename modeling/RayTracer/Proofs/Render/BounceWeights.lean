import Mathlib
import RayTracer.Proofs.Exact.Transformations
import RayTracer.Proofs.Render.Recursion
import RayTracer.Proofs.Render.SamplingRules

/-! The weight of a bounce. What arrives along the rays that are scattered at a hit is averaged, each of them
weighted alike by the pigment. A diffuse surface declares another weight, the pigment times its reflectance: that
is what its reflection gives for any two directions, divided by the density of directions that are as frequent as
their cosine. The two weights are one only where the reflectance is one or the pigment is black. -/

namespace RayTracer

/-- A color is what it is with a reflectance only when there is nothing to reflect or all of it is reflected. -/
theorem Color.eq_mul_scalar_iff (color : Color ℝ) (reflectance : ℝ) :
    color = color * reflectance ↔ reflectance = 1 ∨ color = Color.black := by
  have hChannel (x : ℝ) : x = x * reflectance ↔ reflectance = 1 ∨ x = 0 := by
    rw [eq_comm, mul_right_eq_self₀]
  rw [Color.mul_scalar_exact, Color.black_exact]
  simp only [Color.ext_iff, hChannel]
  tauto

/-- What a diffuse surface reflects between two directions, divided by the density of directions that are as
frequent as their cosine: the cosine cancels, and the pigment times the reflectance is left. -/
theorem Reflection.eval_diffuse {pigment : Pigment ℝ} {uv : SurfacePoint ℝ} {color : Color ℝ}
    (hColor : pigment.colorAt uv = .ok color) (reflectance : ℝ) (normal : Normal ℝ) (incoming outgoing : Vec ℝ) :
    ∃ part, (diffuse pigment reflectance).eval normal incoming outgoing uv = .ok part ∧
      part * Real.pi = color * reflectance := by
  refine ⟨color * (reflectance / Scalar.pi), ?_, ?_⟩
  · rw [eval, hColor]
    rfl
  · have hTurn (x : ℝ) : x * (reflectance / Real.pi) * Real.pi = x * reflectance := by
      rw [mul_assoc, div_mul_cancel₀ _ Real.pi_ne_zero]
    simp only [Color.mul_scalar_exact, Scalar.pi, hTurn]

namespace PathTracer

section Arrivals

variable {α : Type} [Scalar α]

/-- A ray that is scattered at a hit, and the light along it. -/
def arrival (tracer : PathTracer α) (world : World α) (hit : Hit α) : Sampling (Ray α × Color α) := do
  let depth ← nextDepth hit.ray.depth
  let ray ← hit.material.reflection.scatter hit.ray.direction hit.point hit.normal depth
  return (ray, ← tracer.radiance world ray)

/-- A number of rays that are scattered at a hit, one after the other, and the light along them. -/
def arrivals (tracer : PathTracer α) (world : World α) (hit : Hit α) (count : ℕ) :
    Sampling (List (Ray α × Color α)) :=
  (List.replicate count hit).mapM (tracer.arrival world)

/-- The light that leaves a hit: what is emitted there, and the average of what arrives, each ray with its
weight. -/
def leaving (fanOut : ℕ) (emitted : Color α) (weigh : Ray α → Color α) (arrived : List (Ray α × Color α)) :
    Color α :=
  emitted + arrived.foldl (fun sum arrival => sum + weigh arrival.1 * arrival.2) Color.black *
    (1.0 / Scalar.ofNat fanOut : α)

variable {tracer : PathTracer α} {world : World α} {ray : Ray α} {hit : Hit α}

/-- Adding the light of branches is adding what arrives along them. -/
theorem addLight_branches_eq (tracer : PathTracer α) (world : World α) (hit : Hit α) (weight : Color α) (count : ℕ)
    (sum : Color α) :
    (fun paths => Path.addLight tracer.background tracer.fanOut weight paths sum) <$>
        branches (tracer.path world) hit count =
      (fun arrived => arrived.foldl (fun sum arrival => sum + weight * arrival.2) sum) <$>
        tracer.arrivals world hit count := by
  induction count generalizing sum with
  | zero => rfl
  | succ count ih =>
      simp only [branches, arrivals, map_eq_pure_bind] at ih
      simp only [branches, arrivals, List.replicate_succ, List.mapM_cons, branch, arrival, radiance, bind_assoc,
        pure_bind, map_eq_pure_bind, Path.addLight, List.foldl_cons, ih]

/-- The light along paths that go on from a hit is what leaves it, given what arrives along its branches. -/
theorem map_light_scattered (tracer : PathTracer α) (world : World α) (hit : Hit α) (emitted weight : Color α)
    (count : ℕ) :
    (fun paths => (Path.scattered hit emitted weight paths).light tracer.background tracer.fanOut) <$>
        branches (tracer.path world) hit count =
      leaving tracer.fanOut emitted (fun _ => weight) <$> tracer.arrivals world hit count := by
  have hLight := congrArg
    (Functor.map fun sum : Color α => emitted + sum * (1.0 / Scalar.ofNat tracer.fanOut : α))
    (addLight_branches_eq tracer world hit weight count Color.black)
  simp only [Functor.map_map] at hLight
  simp only [Path.light]
  exact hLight

section Hits

variable {color emitted : Color α} (hDepth : ray.depth ≤ tracer.maxDepth) (hSeen : world.intersect? ray = some hit)
  (hColors : hit.colors = .ok (color, emitted)) (hGoesOn : ray.depth < tracer.rouletteDepth)

include hDepth hSeen hColors hGoesOn

/-- As long as chance ends no path, rays go on from every hit with the pigment as their weight. -/
theorem path_of_colors :
    tracer.path world ray = Path.scattered hit emitted color <$>
      branches (tracer.path world) hit (if 0.0 < color.maxComponent then tracer.fanOut else 0) := by
  obtain rfl := World.ray_of_intersect? hSeen
  have hSpared : tracer.continuation hit.ray.depth color = pure (some color) := if_pos hGoesOn
  have hShown : ((hit.colors : Except Fault _) : Sampling (Color α × Color α)) = pure (color, emitted) := by
    rw [hColors]
    rfl
  simp only [path_of_hit hDepth hSeen, goOn_eq, hShown, hSpared, pure_bind, map_eq_pure_bind]

/-- The light that leaves a hit is made of what it emits and of what arrives. -/
theorem radiance_of_hit :
    tracer.radiance world ray = leaving tracer.fanOut emitted (fun _ => color) <$>
      tracer.arrivals world hit (if 0.0 < color.maxComponent then tracer.fanOut else 0) := by
  rw [radiance, path_of_colors hDepth hSeen hColors hGoesOn, bind_map_left, bind_pure_comp, map_light_scattered]

end Hits

end Arrivals

section Diffuse

variable {tracer : PathTracer ℝ} {world : World ℝ} {ray : Ray ℝ} {hit : Hit ℝ}

/-- A bounce at a diffuse surface is weighted by its pigment, whatever it reflects. As long as chance ends no path,
the light along a ray is what is emitted where it hits, and the average of what arrives along the rays that are
scattered there, each weighted by the pigment. The weight that the surface declares is the pigment times its
reflectance: this is what its reflection gives for any two directions, divided by the density of the scattered
ones. The two are the same exactly when the reflectance is one or the pigment is black. -/
theorem radiance_weighs_by_pigment {pigment : Pigment ℝ} {reflectance : ℝ} {color emitted : Color ℝ}
    (hDepth : ray.depth ≤ tracer.maxDepth) (hSeen : world.intersect? ray = some hit)
    (hSurface : hit.material.reflection = .diffuse pigment reflectance)
    (hColor : pigment.colorAt hit.uv = .ok color) (hEmitted : hit.material.emission.colorAt hit.uv = .ok emitted)
    (hGoesOn : ray.depth < tracer.rouletteDepth) :
    tracer.radiance world ray = leaving tracer.fanOut emitted (fun _ => color) <$>
        tracer.arrivals world hit (if 0.0 < color.maxComponent then tracer.fanOut else 0) ∧
      ∀ incoming outgoing, ∃ part,
        hit.material.reflection.eval hit.normal incoming outgoing hit.uv = .ok part ∧
        part * Real.pi = color * reflectance ∧
        (color = part * Real.pi ↔ reflectance = 1 ∨ color = Color.black) := by
  have hColors : hit.colors = .ok (color, emitted) := by
    rw [Hit.colors, hSurface, Reflection.pigment, hColor, hEmitted]
    rfl
  refine ⟨radiance_of_hit hDepth hSeen hColors hGoesOn, fun incoming outgoing => ?_⟩
  obtain ⟨part, hPart, hDeclared⟩ := Reflection.eval_diffuse hColor reflectance hit.normal incoming outgoing
  rw [hSurface]
  exact ⟨part, hPart, hDeclared, by rw [hDeclared, Color.eq_mul_scalar_iff]⟩

end Diffuse

noncomputable def dimFloor : Shape ℝ :=
  ⟨.plane, .identity, ⟨.diffuse (.uniform Color.white) 0.5, .uniform Color.black⟩⟩

/-- A ray that falls onto the floor. -/
noncomputable def falling : Ray ℝ := ⟨⟨0, 0, 1⟩, ⟨0, 0, -1⟩, ⟨1e-5, .unbounded⟩, 0⟩

/-- Every path goes on for one bounce, and the sky is white. -/
noncomputable def singleBounce : PathTracer ℝ := ⟨Color.white, 1, 1, 5⟩

theorem localRay_dimFloor (ray : Ray ℝ) : dimFloor.localRay ray = ray := ray.transform_identity

/-- A ray that starts on the floor does not meet it again. -/
theorem intersect?_dimFloor_of_on {ray : Ray ℝ} (hOn : ray.origin.z = 0) (hAhead : 0 ≤ ray.interval.min) :
    (⟨[dimFloor], []⟩ : World ℝ).intersect? ray = none := by
  have hParameter : dimFloor.parameter? ray = none := by
    have hBehind : ray.interval.surrounds 0 = false := by
      simp [Interval.surrounds, hAhead.not_gt]
    rw [Shape.parameter?, localRay_dimFloor, dimFloor, Solid.parameter?, Solid.planeParameter?]
    simp only [hOn, neg_zero, zero_div, hBehind, Bool.false_eq_true, if_false, ite_self]
  simp [World.intersect?, World.nearestHit?, Shape.intersect?, hParameter]

/-- The falling ray hits every floor, whatever that is made of. -/
theorem exists_hit_falling (material : Material ℝ) :
    ∃ hit, (⟨[⟨.plane, .identity, material⟩], []⟩ : World ℝ).intersect? falling = some hit ∧
      hit.material = material ∧ hit.point = ⟨0, 0, 0⟩ := by
  let floor : Shape ℝ := ⟨.plane, .identity, material⟩
  have hLocal : floor.localRay falling = falling := Ray.transform_identity _
  have hParameter : floor.parameter? falling = some 1 := by
    rw [Shape.parameter?, hLocal, Solid.parameter?, Solid.planeParameter?]
    norm_num [falling, Scalar.abs, Interval.surrounds, UpperBound.exceeds, Scalar.belowInfinity]
  have hMet : floor.intersect? falling = some (floor.hitAt falling 1) := by
    rw [Shape.intersect?, hParameter, Option.map_some]
  refine ⟨_, World.intersect?_singleton hMet, rfl, ?_⟩
  have hPlace : floor.transformation = .identity := rfl
  have hPoint : falling.pointAt 1 = ⟨0, 0, 0⟩ := by
    change (⟨0 + 0 * 1, 0 + 0 * 1, 1 + -1 * 1⟩ : Point ℝ) = ⟨0, 0, 0⟩
    norm_num
  simp only [Shape.hitAt, hLocal, hPoint, hPlace, Transformation.applyPoint_identity]

theorem intersect?_falling :
    ∃ hit, (⟨[dimFloor], []⟩ : World ℝ).intersect? falling = some hit ∧ hit.material = dimFloor.material ∧
      hit.point = ⟨0, 0, 0⟩ := exists_hit_falling dimFloor.material

/-- The ray that is scattered on the floor sees the sky, wherever it goes. -/
theorem run_arrivals_dimFloor {hit : Hit ℝ} (hMaterial : hit.material = dimFloor.material)
    (hPoint : hit.point = ⟨0, 0, 0⟩) (hRay : hit.ray = falling) (generator : Pcg) :
    ∃ scattered rest, (singleBounce.arrivals ⟨[dimFloor], []⟩ hit 1).run generator =
      .ok ([(scattered, Color.white)], rest) := by
  have hLeaves : ∃ scattered rest, scattered.origin = hit.point ∧ 0 ≤ scattered.interval.min ∧
      scattered.depth = 1 ∧ (hit.material.reflection.scatter hit.ray.direction hit.point hit.normal 1 :
        Sampling (Ray ℝ)).run generator = .ok (scattered, rest) := by
    rw [hMaterial]
    exact ⟨_, _, rfl, by norm_num, rfl, rfl⟩
  obtain ⟨scattered, rest, hOrigin, hAhead, hDepth, hScatter⟩ := hLeaves
  have hSky : singleBounce.radiance ⟨[dimFloor], []⟩ scattered = pure Color.white := by
    have hOn : scattered.origin.z = 0 := by rw [hOrigin, hPoint]
    have hSeen := intersect?_dimFloor_of_on hOn hAhead
    rw [radiance, path_of_missed hDepth.le hSeen, pure_bind, Path.light, singleBounce]
  have hNext : nextDepth hit.ray.depth = .ok 1 := by
    rw [hRay]
    rfl
  have hArrival : (singleBounce.arrival ⟨[dimFloor], []⟩ hit).run generator =
      .ok ((scattered, Color.white), rest) := by
    apply (Sampling.run_bind_of_ok (Sampling.run_lift_of_ok hNext generator)).trans
    apply (Sampling.run_bind_of_ok hScatter).trans
    rw [hSky]
    rfl
  exact ⟨scattered, rest, Sampling.run_bind_of_ok hArrival⟩

/-- Where one ray brings white light to a surface that emits nothing, the light that leaves is the weight. -/
theorem leaving_white (weight : Color ℝ) (scattered : Ray ℝ) :
    leaving 1 Color.black (fun _ => weight) [(scattered, Color.white)] = weight := by
  simp only [leaving, List.foldl_cons, List.foldl_nil, Color.black_exact, Color.white, Color.mul_exact,
    Color.add_exact, Color.mul_scalar_exact, Scalar.ofNat]
  norm_num

/-- At the dim floor a bounce does not have the weight that is declared. The reflection gives a half of the light,
between any two directions, and a tracer that weighs by it would see the floor grey under the white sky; this one
sees it white. -/
theorem radiance_ne_declared_dimFloor :
    ∃ hit, (⟨[dimFloor], []⟩ : World ℝ).intersect? falling = some hit ∧
      (∀ incoming outgoing, ∃ part, hit.material.reflection.eval hit.normal incoming outgoing hit.uv = .ok part ∧
        part * Real.pi = ⟨1 / 2, 1 / 2, 1 / 2⟩) ∧
      ∀ generator, ∃ rest,
        (singleBounce.radiance ⟨[dimFloor], []⟩ falling).run generator = .ok (⟨1, 1, 1⟩, rest) ∧
        (leaving singleBounce.fanOut Color.black (fun _ => ⟨1 / 2, 1 / 2, 1 / 2⟩) <$>
          singleBounce.arrivals ⟨[dimFloor], []⟩ hit singleBounce.fanOut).run generator =
            .ok (⟨1 / 2, 1 / 2, 1 / 2⟩, rest) := by
  obtain ⟨hit, hSeen, hMaterial, hPoint⟩ := intersect?_falling
  refine ⟨hit, hSeen, fun incoming outgoing => ?_, fun generator => ?_⟩
  · have hWhite : (Pigment.uniform Color.white).colorAt hit.uv = .ok (Color.white : Color ℝ) := rfl
    obtain ⟨part, hPart, hDeclared⟩ := Reflection.eval_diffuse hWhite 0.5 hit.normal incoming outgoing
    refine ⟨part, ?_, ?_⟩
    · rw [hMaterial]
      exact hPart
    · rw [hDeclared, Color.mul_scalar_exact, Color.white]
      norm_num
  · have hRay := World.ray_of_intersect? hSeen
    obtain ⟨scattered, rest, hArrived⟩ := run_arrivals_dimFloor hMaterial hPoint hRay generator
    have hColors : hit.colors = .ok (Color.white, Color.black) := by
      rw [Hit.colors, hMaterial]
      rfl
    have hBright : (if 0.0 < (Color.white : Color ℝ).maxComponent then singleBounce.fanOut else 0) = 1 := by
      norm_num [Color.maxComponent_exact, Color.white, singleBounce]
    have hRun (weight : Color ℝ) : (leaving singleBounce.fanOut Color.black (fun _ => weight) <$>
        singleBounce.arrivals ⟨[dimFloor], []⟩ hit 1).run generator = .ok (weight, rest) := by
      rw [StateT.run_map, hArrived]
      exact congrArg (fun light => Except.ok (light, rest)) (leaving_white weight scattered)
    refine ⟨rest, ?_, hRun _⟩
    rw [radiance_of_hit (Nat.zero_le _) hSeen hColors (by decide), hBright, hRun, Color.white]
    norm_num

theorem radiance_weighs_by_pigment_dimFloor :
    ∃ hit, (falling.depth ≤ singleBounce.maxDepth ∧
        (⟨[dimFloor], []⟩ : World ℝ).intersect? falling = some hit ∧
        hit.material.reflection = .diffuse (.uniform Color.white) 0.5 ∧
        (Pigment.uniform Color.white).colorAt hit.uv = .ok (Color.white : Color ℝ) ∧
        hit.material.emission.colorAt hit.uv = .ok Color.black ∧ falling.depth < singleBounce.rouletteDepth) ∧
      singleBounce.radiance ⟨[dimFloor], []⟩ falling =
        leaving singleBounce.fanOut Color.black (fun _ => Color.white) <$>
          singleBounce.arrivals ⟨[dimFloor], []⟩ hit
            (if 0.0 < (Color.white : Color ℝ).maxComponent then singleBounce.fanOut else 0) ∧
      ∃ part, hit.material.reflection.eval hit.normal falling.direction ⟨0, 0, 1⟩ hit.uv = .ok part ∧
        Color.white ≠ part * Real.pi := by
  obtain ⟨hit, hSeen, hMaterial, -⟩ := intersect?_falling
  have hDepth : falling.depth ≤ singleBounce.maxDepth := Nat.zero_le _
  have hSurface : hit.material.reflection = .diffuse (.uniform Color.white) 0.5 := by
    rw [hMaterial]
    rfl
  have hEmitted : hit.material.emission.colorAt hit.uv = .ok Color.black := by
    rw [hMaterial]
    rfl
  have hGoesOn : falling.depth < singleBounce.rouletteDepth := by decide
  obtain ⟨hLight, hWeights⟩ := radiance_weighs_by_pigment hDepth hSeen hSurface rfl hEmitted hGoesOn
  obtain ⟨part, hPart, -, hSame⟩ := hWeights falling.direction ⟨0, 0, 1⟩
  refine ⟨hit, ⟨hDepth, hSeen, hSurface, rfl, hEmitted, hGoesOn⟩, hLight, part, hPart, fun h => ?_⟩
  rcases hSame.mp h with hHalf | hBlack
  · norm_num at hHalf
  · norm_num [Color.ext_iff, Color.white, Color.black] at hBlack

end PathTracer

end RayTracer
