import Mathlib
import RayTracer.Proofs.Binary.Ranks
import RayTracer.Proofs.Render.AlikePaths
import RayTracer.Proofs.Render.PathCompletion
import RayTracer.Proofs.Scene.FirstNearest

/-! How many random numbers the path tracer draws: one wherever it is left to chance whether a path ends, and
two for every ray that a diffuse surface scatters. The tree of a path tells how many these are, and the depth
limit bounds them by a geometric sum. -/

namespace RayTracer

variable {α : Type}

def Reflection.IsDiffuse (reflection : Reflection α) : Prop :=
  ∃ pigment reflectance, reflection = .diffuse pigment reflectance

/-- The draws it takes to scatter a ray. -/
def Reflection.draws : Reflection α → ℕ
  | .diffuse _ _ => 2
  | .specular _ _ => 0

/-- No reflection draws more than twice. -/
theorem Reflection.draws_le (reflection : Reflection α) : reflection.draws ≤ 2 := by
  cases reflection with
  | diffuse pigment reflectance => exact le_rfl
  | specular pigment tolerance => exact Nat.zero_le 2

/-- The draws at a hit where a number of rays is scattered. -/
def Hit.draws (rouletteDepth : ℕ) (hit : Hit α) (branches : ℕ) : ℕ :=
  (if rouletteDepth ≤ hit.ray.depth then 1 else 0) + branches * hit.material.reflection.draws

theorem Hit.draws_le (rouletteDepth : ℕ) (hit : Hit α) (branches : ℕ) :
    hit.draws rouletteDepth branches ≤ 1 + branches * 2 := by
  refine Nat.add_le_add ?_ (Nat.mul_le_mul_left branches hit.material.reflection.draws_le)
  split <;> decide

namespace Path

/-- The draws that a path takes. -/
def draws (rouletteDepth : ℕ) (path : Path α) : ℕ := path.chances rouletteDepth + 2 * path.diffuseRays

theorem countHitsOfAll_eq (weigh : Hit α → ℕ → ℕ) (paths : List (Path α)) :
    countHitsOfAll weigh paths = (paths.map (countHits weigh)).sum := by
  induction paths with
  | nil => rfl
  | cons path paths ih => rw [countHitsOfAll, ih, List.map_cons, List.sum_cons]

theorem draws_ended (rouletteDepth : ℕ) (hit : Hit α) (emitted : Color α) :
    (Path.ended hit emitted).draws rouletteDepth = hit.draws rouletteDepth 0 := by
  rw [draws, chances, diffuseRays, countHits, countHits, Hit.draws, Nat.zero_mul]
  cases hit.material.reflection <;> rfl

/-- A hit draws for itself, for each of its branches and in them. -/
theorem draws_scattered (rouletteDepth : ℕ) (hit : Hit α) (emitted weight : Color α)
    (branches : List (Path α)) :
    (Path.scattered hit emitted weight branches).draws rouletteDepth =
      hit.draws rouletteDepth branches.length + (branches.map (draws rouletteDepth)).sum := by
  have hSplit : (branches.map (draws rouletteDepth)).sum =
      (branches.map (chances rouletteDepth)).sum + 2 * (branches.map diffuseRays).sum := by
    rw [← List.sum_map_mul_left, ← List.sum_map_add]
    rfl
  rw [draws, chances, diffuseRays, countHits, countHits, countHitsOfAll_eq, countHitsOfAll_eq, hSplit,
    Hit.draws]
  change _ + (branches.map (chances rouletteDepth)).sum + 2 * (_ + (branches.map diffuseRays).sum) = _
  cases hit.material.reflection <;> dsimp only [Reflection.draws] <;> ring

end Path

namespace PathTracer

open Sampling

variable [Scalar α]

/-- Going on costs a draw from the roulette depth on. -/
theorem spends_continuation (tracer : PathTracer α) (depth : ℕ) (color : Color α) :
    Spends (tracer.continuation depth color)
      fun _ count => count = if tracer.rouletteDepth ≤ depth then 1 else 0 := by
  unfold continuation
  split
  next hBefore => exact spends_pure (if_neg (not_le.mpr hBefore)).symm
  next hFrom =>
      rw [if_pos (not_lt.mp hFrom)]
      refine spends_sampleUnit.bind ?_
      rintro drawn _ rfl
      split <;> exact spends_pure rfl

/-- Scattering costs what the reflection draws. -/
theorem spends_scatter (reflection : Reflection α) (incoming : Vec α) (point : Point α) (normal : Normal α)
    (depth : ℕ) :
    Spends (reflection.scatter incoming point normal depth) fun _ count => count = reflection.draws := by
  cases reflection with
  | diffuse pigment reflectance =>
      unfold Reflection.scatter
      refine spends_sampleUnit.bind ?_
      rintro squaredCosine _ rfl
      refine spends_sampleUnit.bind ?_
      rintro turn _ rfl
      exact spends_pure rfl
  | specular pigment tolerance => exact spends_pure rfl

theorem spends_branch {follow : Ray α → Sampling (Path α)} {cost : Path α → ℕ}
    (hFollow : ∀ ray, (follow ray).Spends fun path count => count = cost path) (hit : Hit α) :
    Spends (branch follow hit) fun path count => count = hit.material.reflection.draws + cost path := by
  unfold branch
  refine (spends_lift _).bind ?_
  rintro depth _ rfl
  refine (spends_scatter _ _ _ _ depth).bind ?_
  rintro ray _ rfl
  refine (hFollow ray).mono ?_
  rintro path _ rfl
  rw [Nat.zero_add]

theorem spends_goOn {tracer : PathTracer α} {follow : Ray α → Sampling (Path α)}
    (hFollow : ∀ ray, (follow ray).Spends fun path count => count = path.draws tracer.rouletteDepth)
    (hit : Hit α) :
    Spends (tracer.goOn follow hit) fun path count => count = path.draws tracer.rouletteDepth := by
  unfold goOn
  refine (spends_lift _).bind ?_
  rintro color _ rfl
  refine (spends_lift _).bind ?_
  rintro emitted _ rfl
  refine (spends_continuation tracer _ _).bind ?_
  rintro choice _ rfl
  cases choice with
  | none =>
      refine spends_pure ?_
      rw [Path.draws_ended, Hit.draws]
      omega
  | some weight =>
      refine ((spends_branch hFollow hit).mapM_replicate _).bind ?_
      rintro paths _ rfl
      refine spends_pure ?_
      rw [Path.draws_scattered, Hit.draws, List.sum_map_add, List.map_const', List.sum_replicate, smul_eq_mul]
      ring

/-- Following a ray costs what its path says. -/
theorem spends_follow (tracer : PathTracer α) (world : World α) (remaining : ℕ) (ray : Ray α) :
    Spends (tracer.follow world remaining ray) fun path count => count = path.draws tracer.rouletteDepth := by
  induction remaining generalizing ray with
  | zero => exact spends_pure rfl
  | succ remaining ih =>
      cases hSeen : world.intersect? ray with
      | none =>
          simp only [follow, hSeen]
          exact spends_pure rfl
      | some hit =>
          simp only [follow, hSeen]
          exact spends_goOn ih hit

/-- The paths that can come of a ray when at most a number of rays follow each other. -/
inductive Grows (tracer : PathTracer α) (world : World α) : ℕ → Path α → Prop where
  | cut (ray : Ray α) : Grows tracer world 0 (.cut ray)
  | missed {remaining : ℕ} {ray : Ray α} (hSeen : world.intersect? ray = none) :
      Grows tracer world (remaining + 1) (.missed ray)
  | ended {remaining : ℕ} {hit : Hit α} (emitted : Color α) (hSeen : world.intersect? hit.ray = some hit)
      (hChance : tracer.rouletteDepth ≤ hit.ray.depth) :
      Grows tracer world (remaining + 1) (.ended hit emitted)
  | scattered {remaining : ℕ} {hit : Hit α} {color : Color α} (emitted weight : Color α)
      {branches : List (Path α)} (hSeen : world.intersect? hit.ray = some hit)
      (hColor : hit.material.reflection.pigment.colorAt hit.uv = .ok color)
      (hLength : branches.length = if 0.0 < color.maxComponent then tracer.fanOut else 0)
      (hBranches : ∀ branch ∈ branches, Grows tracer world remaining branch) :
      Grows tracer world (remaining + 1) (.scattered hit emitted weight branches)

theorem onlyGives_grows (tracer : PathTracer α) (world : World α) (remaining : ℕ) (ray : Ray α) :
    OnlyGives (tracer.follow world remaining ray)
      fun path => path.ray = ray ∧ tracer.Grows world remaining path := by
  induction remaining generalizing ray with
  | zero => exact onlyGives_pure ⟨rfl, .cut ray⟩
  | succ remaining ih =>
      cases hSeen : world.intersect? ray with
      | none =>
          simp only [follow, hSeen]
          exact onlyGives_pure ⟨rfl, .missed hSeen⟩
      | some hit =>
          obtain rfl := World.ray_of_intersect? hSeen
          have hBranch : OnlyGives (branch (tracer.follow world remaining) hit)
              (tracer.Grows world remaining) :=
            (onlyGives_trivial _).bind fun depth _ =>
              (onlyGives_trivial _).bind fun scattered _ => (ih scattered).mono fun _ => And.right
          simp only [follow, hSeen, goOn]
          refine (onlyGives_lift fun color hColor => hColor).bind fun color hColor => ?_
          refine (onlyGives_trivial _).bind fun emitted _ => ?_
          -- Before the roulette depth no path ends at a hit, so chance is looked at first.
          by_cases hBefore : hit.ray.depth < tracer.rouletteDepth
          · simp only [continuation, hBefore, ↓reduceIte, pure_bind]
            refine (hBranch.mapM_replicate _).bind fun paths hPaths => onlyGives_pure ⟨rfl, ?_⟩
            exact .scattered emitted _ hSeen hColor hPaths.1 hPaths.2
          · refine (onlyGives_trivial _).bind fun choice _ => ?_
            cases choice with
            | none => exact onlyGives_pure ⟨rfl, .ended emitted hSeen (not_lt.mp hBefore)⟩
            | some weight =>
                refine (hBranch.mapM_replicate _).bind fun paths hPaths => onlyGives_pure ⟨rfl, ?_⟩
                exact .scattered emitted weight hSeen hColor hPaths.1 hPaths.2

/-- The hits of a tree that forks evenly to a depth. -/
def fullHits (fanOut depth : ℕ) : ℕ := ∑ i ∈ Finset.range depth, fanOut ^ i

theorem fullHits_succ (fanOut depth : ℕ) : fullHits fanOut (depth + 1) = fanOut * fullHits fanOut depth + 1 :=
  geom_sum_succ

variable {tracer : PathTracer α} {world : World α} {remaining : ℕ} {path : Path α}

theorem Grows.draws_le (h : tracer.Grows world remaining path) :
    path.draws tracer.rouletteDepth ≤ (1 + 2 * tracer.fanOut) * fullHits tracer.fanOut remaining := by
  induction h with
  | cut ray => exact Nat.zero_le _
  | missed hSeen => exact Nat.zero_le _
  | ended emitted hSeen hChance =>
      rw [Path.draws_ended, fullHits_succ]
      exact (Hit.draws_le _ _ 0).trans (Nat.mul_pos (by omega) (Nat.succ_pos _))
  | @scattered remaining hit color emitted weight branches hSeen hColor hLength hBranches ih =>
      have hFan : branches.length ≤ tracer.fanOut := by
        rw [hLength]
        split
        · exact le_rfl
        · exact Nat.zero_le _
      have hSum := List.sum_le_card_nsmul (branches.map (Path.draws tracer.rouletteDepth)) _
        (List.forall_mem_map.mpr ih)
      rw [List.length_map, smul_eq_mul] at hSum
      rw [Path.draws_scattered, fullHits_succ]
      calc
        hit.draws tracer.rouletteDepth branches.length + (branches.map (Path.draws tracer.rouletteDepth)).sum
            ≤ (1 + branches.length * 2) +
              branches.length * ((1 + 2 * tracer.fanOut) * fullHits tracer.fanOut remaining) :=
          Nat.add_le_add (Hit.draws_le _ _ _) hSum
        _ ≤ (1 + tracer.fanOut * 2) +
              tracer.fanOut * ((1 + 2 * tracer.fanOut) * fullHits tracer.fanOut remaining) := by gcongr
        _ = (1 + 2 * tracer.fanOut) * (tracer.fanOut * fullHits tracer.fanOut remaining + 1) := by ring

/-- A ray that is scattered as often as the tracer scatters at all, by a diffuse surface, before it is left
to chance whether paths end. -/
def ScattersFully (tracer : PathTracer α) (world : World α) (ray : Ray α) : Prop :=
  ray.depth < tracer.rouletteDepth ∧ ∃ hit color, world.intersect? ray = some hit ∧
    hit.material.reflection.IsDiffuse ∧ hit.material.reflection.pigment.colorAt hit.uv = .ok color ∧
    0.0 < color.maxComponent

theorem Grows.draws_eq (h : tracer.Grows world remaining path)
    (hFull : ∀ seen ∈ path.rays, tracer.ScattersFully world seen) :
    path.draws tracer.rouletteDepth = 2 * tracer.fanOut * fullHits tracer.fanOut remaining := by
  induction h with
  | cut ray => rfl
  | missed hSeen =>
      obtain ⟨-, hit, color, hHit, -⟩ := hFull _ (List.mem_singleton_self _)
      cases hSeen.symm.trans hHit
  | ended emitted hSeen hChance =>
      have hBefore := (hFull _ (List.mem_singleton_self _)).1
      exact absurd hBefore (not_lt.mpr hChance)
  | @scattered remaining hit color emitted weight branches hSeen hColor hLength hBranches ih =>
      rw [Path.rays, Path.raysOfAll_eq_flatMap, List.forall_mem_cons] at hFull
      obtain ⟨⟨hBefore, met, found, hMet, hDiffuse, hFound, hBright⟩, hRest⟩ := hFull
      -- What is known of the ray is about the hit and the color that the path has kept.
      obtain rfl := Option.some.inj (hSeen.symm.trans hMet)
      obtain rfl := Except.ok.inj (hColor.symm.trans hFound)
      rw [if_pos hBright] at hLength
      have hDraws : hit.draws tracer.rouletteDepth branches.length = 2 * tracer.fanOut := by
        obtain ⟨pigment, reflectance, hReflection⟩ := hDiffuse
        rw [Hit.draws, if_neg (not_le.mpr hBefore), hReflection, hLength, Reflection.draws]
        ring
      have hEach : ∀ branch ∈ branches, branch.draws tracer.rouletteDepth =
          2 * tracer.fanOut * fullHits tracer.fanOut remaining := fun branch hMem =>
        ih branch hMem fun seen hSeen => hRest seen (List.mem_flatMap.mpr ⟨branch, hMem, hSeen⟩)
      have hSum := List.sum_eq_card_nsmul (branches.map (Path.draws tracer.rouletteDepth)) _
        (List.forall_mem_map.mpr hEach)
      rw [List.length_map, smul_eq_mul, hLength] at hSum
      rw [Path.draws_scattered, hDraws, hSum, fullHits_succ]
      ring

theorem Grows.draws_eq_zero (h : tracer.Grows world remaining path)
    (hNone : remaining = 0 ∨ world.intersect? path.ray = none) : path.draws tracer.rouletteDepth = 0 := by
  cases h with
  | cut ray => rfl
  | missed hSeen => rfl
  | ended emitted hSeen hChance =>
      rcases hNone with hLast | hMissed
      · cases hLast
      · cases hSeen.symm.trans hMissed
  | scattered emitted weight hSeen hColor hLength hBranches =>
      rcases hNone with hLast | hMissed
      · cases hLast
      · cases hSeen.symm.trans hMissed

theorem exists_path_of_radiance {ray : Ray α} {generator rest : Pcg} {light : Color α}
    (h : (tracer.radiance world ray).run generator = .ok (light, rest)) :
    ∃ path, (tracer.path world ray).run generator = .ok (path, rest) ∧
      light = path.light tracer.background tracer.fanOut := by
  obtain ⟨path, last, hPath, hLight⟩ := exists_of_run_bind h
  obtain ⟨rfl, rfl⟩ := Prod.mk.inj (Except.ok.inj hLight)
  exact ⟨path, hPath, rfl⟩

/-- Some channel of a color is positive just where the largest is, whichever of them are not numbers. -/
theorem maxComponent_pos_iff (color : Color Float) :
    0.0 < color.maxComponent ↔ 0.0 < color.r ∨ 0.0 < color.g ∨ 0.0 < color.b := by
  rw [Color.maxComponent, Binary.lt_larger_iff, Binary.lt_larger_iff, or_assoc]

/-- The generator that tracing leaves behind is the one at hand after as many draws as hits of the path were
left to chance, and two for every ray that a diffuse surface scattered. With as many rays scattered at every
hit as the tracer says, the depth limit bounds this number by a geometric sum; it is zero for a ray that is
not followed or that misses, and there is a closed form for it where all rays are scattered fully. With filled
textures and depths that can be counted there is light along every ray, and so such a number. -/
theorem radiance_draws (tracer : PathTracer Float) (world : World Float) (ray : Ray Float)
    (generator : Pcg) :
    ((∀ shape ∈ world.shapes,
        shape.material.reflection.pigment.IsFilled ∧ shape.material.emission.IsFilled) →
      tracer.maxDepth < depthLimit →
      ∃ light rest, (tracer.radiance world ray).run generator = .ok (light, rest)) ∧
    ∀ light rest, (tracer.radiance world ray).run generator = .ok (light, rest) →
      ∃ path, (tracer.path world ray).run generator = .ok (path, rest) ∧
        light = path.light tracer.background tracer.fanOut ∧
        let count := path.chances tracer.rouletteDepth + 2 * path.diffuseRays
        rest = (Pcg.draws count generator).2 ∧ rest.inc = generator.inc ∧
        count ≤ (1 + 2 * tracer.fanOut) *
          ∑ i ∈ Finset.range (tracer.maxDepth + 1 - ray.depth), tracer.fanOut ^ i ∧
        (tracer.maxDepth < ray.depth ∨ world.intersect? ray = none → count = 0) ∧
        ((∀ seen ∈ path.rays, seen.depth < tracer.rouletteDepth ∧ ∃ hit color,
            world.intersect? seen = some hit ∧ hit.material.reflection.IsDiffuse ∧
            hit.material.reflection.pigment.colorAt hit.uv = .ok color ∧
            (0.0 < color.r ∨ 0.0 < color.g ∨ 0.0 < color.b)) →
          count = 2 * tracer.fanOut *
            ∑ i ∈ Finset.range (tracer.maxDepth + 1 - ray.depth), tracer.fanOut ^ i) := by
  refine ⟨fun hFilled hLimit => exists_radiance hLimit hFilled ray generator, fun light rest hRun => ?_⟩
  obtain ⟨path, hPath, hLight⟩ := exists_path_of_radiance hRun
  obtain ⟨count, hRest, rfl⟩ := spends_follow tracer world _ ray generator path rest hPath
  obtain ⟨hRay, hGrows⟩ := onlyGives_grows tracer world _ ray generator path rest hPath
  refine ⟨path, hPath, hLight, ?_, ?_, hGrows.draws_le, fun hNone => hGrows.draws_eq_zero ?_,
    fun hFull => hGrows.draws_eq ?_⟩
  · rw [Pcg.snd_draws]
    exact hRest
  · rw [hRest, Pcg.inc_skip]
  · rw [hRay]
    exact hNone.imp_left fun hBeyond => by omega
  · intro seen hSeen
    obtain ⟨hBefore, hit, color, hHit, hDiffuse, hColor, hBright⟩ := hFull seen hSeen
    exact ⟨hBefore, hit, color, hHit, hDiffuse, hColor, (maxComponent_pos_iff color).mpr hBright⟩

/-- A path that no ray goes on from asks about its own ray only. -/
theorem Grows.eq_ray_of_mem_rays (h : tracer.Grows world 1 path) {seen : Ray α} (hSeen : seen ∈ path.rays) :
    seen = path.ray := by
  cases h with
  | missed => exact List.mem_singleton.mp hSeen
  | ended => exact List.mem_singleton.mp hSeen
  | scattered emitted weight hMet hColor hLength hBranches =>
      rw [Path.rays, Path.raysOfAll_eq_flatMap] at hSeen
      rcases List.mem_cons.mp hSeen with hSame | hDeeper
      · exact hSame
      · obtain ⟨branch, hBranch, hDeeper⟩ := List.mem_flatMap.mp hDeeper
        cases hBranches branch hBranch with
        | cut ray => cases hDeeper

/-- Three rays are scattered, and none of them is followed. -/
def shallow : PathTracer Float := ⟨Color.black, 3, 0, 1⟩

/-- A diffuse floor makes the tracer draw six numbers for three scattered rays. -/
theorem radiance_draws_floor :
    ∃ light rest, (shallow.radiance ⟨[World.redFloor 0.25], []⟩ World.straightDown).run (Pcg.seeded 42 54) =
        .ok (light, rest) ∧
      rest = (Pcg.draws 6 (Pcg.seeded 42 54)).2 := by
  have hSome : ((⟨[World.redFloor 0.25], []⟩ : World Float).intersect? World.straightDown).isSome = true := by
    decide +kernel
  obtain ⟨hit, hHit⟩ := Option.isSome_iff_exists.mp hSome
  have hMaterial : hit.material = (World.redFloor 0.25).material := by
    obtain ⟨shape, hShape, hMaterial⟩ := World.exists_material_of_intersect? hHit
    rw [hMaterial, List.mem_singleton.mp hShape]
  obtain ⟨hLight, hDraws⟩ := radiance_draws shallow ⟨[World.redFloor 0.25], []⟩ World.straightDown
    (Pcg.seeded 42 54)
  obtain ⟨light, rest, hRun⟩ := hLight (fun shape hShape => by
    rw [List.mem_singleton.mp hShape]
    exact ⟨trivial, trivial⟩) (by decide)
  obtain ⟨path, hPath, -, hRest, -, -, -, hFull⟩ := hDraws light rest hRun
  obtain ⟨hRay, hGrows⟩ := onlyGives_grows shallow _ _ _ _ path rest hPath
  have hCount := hFull fun seen hSeen => by
    rw [hGrows.eq_ray_of_mem_rays hSeen, hRay]
    refine ⟨by decide, hit, Color.white, hHit, ?_⟩
    rw [hMaterial]
    exact ⟨⟨_, _, rfl⟩, rfl, Or.inl (by decide +kernel)⟩
  refine ⟨light, rest, hRun, hRest.trans ?_⟩
  rw [hCount]
  rfl

end PathTracer

end RayTracer
