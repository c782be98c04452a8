import Mathlib
import RayTracer.Proofs.Render.JointRuns
import RayTracer.Proofs.Scene.Unlit
import RayTracer.Render.PathTracer

/-! Paths in worlds of the same surfaces. Which numbers are drawn and where rays go is decided by surfaces
alone, so the paths have one form, and they differ only in what was emitted along them. A relation among
emissions that light keeps then holds of the light. -/

namespace RayTracer

variable {α ι : Type}

/-- Paths, one in each of several worlds, of the same form: the same rays met and missed surfaces, paths ended
at the same places and went on with the same weights. What was emitted at a place is only related. -/
inductive Path.Alike (E : (ι → Color α) → Prop) : (ι → Path α) → Prop where
  | cut (ray : Ray α) : Alike E fun _ => .cut ray
  | missed (ray : Ray α) : Alike E fun _ => .missed ray
  | ended (surface : Hit α) (emissions : ι → Pigment α) {emitted : ι → Color α} (hEmitted : E emitted) :
      Alike E fun i => .ended (surface.emitting (emissions i)) (emitted i)
  | scattered (surface : Hit α) (emissions : ι → Pigment α) {emitted : ι → Color α} (weight : Color α)
      {branches : List (ι → Path α)} (hEmitted : E emitted)
      (hBranches : ∀ branch ∈ branches, Alike E branch) :
      Alike E fun i =>
        .scattered (surface.emitting (emissions i)) (emitted i) weight (branches.map (· i))

namespace Path

variable {E : (ι → Color α) → Prop}

theorem raysOfAll_eq_flatMap (paths : List (Path α)) : raysOfAll paths = paths.flatMap rays := by
  induction paths with
  | nil => rfl
  | cons path paths ih => rw [raysOfAll, ih, List.flatMap_cons]

/-- On paths of one form the worlds were asked about the same rays. -/
theorem Alike.rays_eq {paths : ι → Path α} (h : Alike E paths) (i j : ι) :
    (paths i).rays = (paths j).rays := by
  induction h with
  | cut ray => rfl
  | missed ray => rfl
  | ended surface emissions hEmitted => rfl
  | scattered surface emissions weight hEmitted hBranches ih =>
      simp only [rays, raysOfAll_eq_flatMap, List.flatMap_map]
      rw [List.flatMap_congr ih]
      rfl

variable [Scalar α]

/-- A relation among colors that light keeps: it holds of black and passes to sums and to what is weighted. -/
structure Linear (E : (ι → Color α) → Prop) : Prop where
  black : E fun _ => Color.black
  add {a b : ι → Color α} : E a → E b → E fun i => a i + b i
  weigh (weight : Color α) {a : ι → Color α} : E a → E fun i => weight * a i
  scale (factor : α) {a : ι → Color α} : E a → E fun i => a i * factor

theorem addLight_related (hE : Linear E) {backgrounds : ι → Color α} {fanOut : Nat} (weight : Color α)
    {branches : List (ι → Path α)}
    (hBranches : ∀ branch ∈ branches, E fun i => (branch i).light (backgrounds i) fanOut)
    {sums : ι → Color α} (hSums : E sums) :
    E fun i => addLight (backgrounds i) fanOut weight (branches.map (· i)) (sums i) := by
  induction branches generalizing sums with
  | nil => exact hSums
  | cons branch branches ih =>
      obtain ⟨hFirst, hRest⟩ := List.forall_mem_cons.mp hBranches
      exact ih hRest (hE.add hSums (hE.weigh weight hFirst))

/-- A linear relation among the emissions along paths of one form and among the backgrounds holds of the
light. -/
theorem Alike.light_related (hE : Linear E) {backgrounds : ι → Color α} (hBackgrounds : E backgrounds)
    (fanOut : Nat) {paths : ι → Path α} (h : Alike E paths) :
    E fun i => (paths i).light (backgrounds i) fanOut := by
  induction h with
  | cut ray => exact hE.black
  | missed ray => exact hBackgrounds
  | ended surface emissions hEmitted => exact hEmitted
  | scattered surface emissions weight hEmitted hBranches ih =>
      exact hE.add hEmitted (hE.scale _ (addLight_related hE weight ih hE.black))

end Path

namespace PathTracer

variable [Scalar α] {lone : Prop} {E : (ι → Color α) → Prop}

/-- One bounce, in several worlds at a time. Emissions are looked up between the pigment and the decision of
chance whether the path goes on, and decide nothing. -/
theorem together_goOn {tracer : PathTracer α} {follow : ι → Ray α → Sampling (Path α)} {surface : Hit α}
    {emissions : ι → Pigment α} (hEmission : Agree lone E fun i => (emissions i).colorAt surface.uv)
    (hFollow : ∀ ray, Sampling.Together lone (Path.Alike E) fun i => follow i ray) :
    Sampling.Together lone (Path.Alike E)
      fun i => tracer.goOn (follow i) (surface.emitting (emissions i)) := by
  have hBranch : Sampling.Together lone (Path.Alike E)
      fun i => branch (follow i) (surface.emitting (emissions i)) := by
    simp only [branch, Hit.emitting_ray, Hit.emitting_material, Hit.emitting_point, Hit.emitting_normal]
    refine (Sampling.together_const _).bind ?_
    rintro _ ⟨depth, rfl⟩
    refine (Sampling.together_const _).bind ?_
    rintro _ ⟨ray, rfl⟩
    exact hFollow ray
  -- Apart from the emission, every step of a bounce is one computation for all worlds.
  simp only [goOn, Hit.emitting_ray, Hit.emitting_material, Hit.emitting_uv]
  refine (Sampling.together_const _).bind ?_
  rintro _ ⟨color, rfl⟩
  refine (Sampling.together_of_agree hEmission).bind ?_
  intro emitted hEmitted
  refine (Sampling.together_const _).bind ?_
  rintro _ ⟨choice, rfl⟩
  cases choice with
  | none => exact Sampling.together_pure (.ended surface emissions hEmitted)
  | some weight =>
      refine (hBranch.mapM_replicate _).bind ?_
      rintro _ ⟨branches, hBranches, rfl⟩
      exact Sampling.together_pure (.scattered surface emissions weight hEmitted hBranches)

section Runs

variable {worlds : ι → World α} {surfaces : World α} (hSurfaces : ∀ i, (worlds i).unlit = surfaces)
    (hEmission : ∀ (ray : Ray α) (hits : ι → Hit α), (∀ i, (worlds i).intersect? ray = some (hits i)) →
      Agree lone E fun i => (hits i).material.emission.colorAt (hits i).uv)

include hSurfaces hEmission

/-- A run, in several worlds of the same surfaces at a time. -/
theorem together_follow (tracer : PathTracer α) (remaining : ℕ) (ray : Ray α) :
    Sampling.Together lone (Path.Alike E) fun i => tracer.follow (worlds i) remaining ray := by
  induction remaining generalizing ray with
  | zero => exact Sampling.together_pure (.cut ray)
  | succ remaining ih =>
      -- The surfaces decide for all worlds at once whether the ray hits.
      cases hSeen : surfaces.intersect? ray with
      | none =>
          have hMissed := World.intersect?_eq_none_of_unlit hSurfaces hSeen
          simp only [follow, hMissed]
          exact Sampling.together_pure (.missed ray)
      | some surface =>
          obtain ⟨emissions, hHits⟩ := World.exists_emissions_of_unlit hSurfaces hSeen
          simp only [follow, hHits]
          exact together_goOn (hEmission ray _ hHits) ih

/-- A path is followed alike in worlds whose surfaces are alike. -/
theorem together_path (tracer : PathTracer α) (ray : Ray α) :
    Sampling.Together lone (Path.Alike E) fun i => tracer.path (worlds i) ray :=
  together_follow hSurfaces hEmission tracer _ ray

end Runs

omit [Scalar α] in
/-- The tracer before another background. -/
def withBackground (tracer : PathTracer α) (background : Color α) : PathTracer α :=
  { tracer with background := background }

/-- What a run shows besides the light: the rays that the world was asked about, in order, and the generator
that is left. -/
def trace (tracer : PathTracer α) (world : World α) (ray : Ray α) (generator : Pcg) :
    Except Fault (List (Ray α) × Pcg) :=
  ((tracer.path world ray).run generator).map fun outcome => (outcome.1.rays, outcome.2)

/-- How a path grows depends on no other settings than how many rays are scattered and where chance begins. -/
theorem follow_congr (tracer other : PathTracer α) (hFanOut : tracer.fanOut = other.fanOut)
    (hRoulette : tracer.rouletteDepth = other.rouletteDepth) (world : World α) (remaining : ℕ) (ray : Ray α) :
    tracer.follow world remaining ray = other.follow world remaining ray := by
  induction remaining generalizing ray with
  | zero => rfl
  | succ remaining ih =>
      have hFollow : tracer.follow world remaining = other.follow world remaining := funext ih
      simp only [follow, hFollow, goOn, continuation, hFanOut, hRoulette]

/-- The background does not matter to where a path goes. -/
theorem path_withBackground (tracer : PathTracer α) (background : Color α) (world : World α) (ray : Ray α) :
    (tracer.withBackground background).path world ray = tracer.path world ray :=
  follow_congr (tracer.withBackground background) tracer rfl rfl world _ ray

theorem trace_withBackground (tracer : PathTracer α) (background : Color α) (world : World α) (ray : Ray α)
    (generator : Pcg) :
    (tracer.withBackground background).trace world ray generator = tracer.trace world ray generator := by
  rw [trace, path_withBackground, trace]

/-- The light of a ray is that of its path. -/
theorem run_radiance (tracer : PathTracer α) (world : World α) (ray : Ray α) (generator : Pcg) :
    (tracer.radiance world ray).run generator = ((tracer.path world ray).run generator).map
      fun outcome => (outcome.1.light tracer.background tracer.fanOut, outcome.2) := by
  rw [radiance, StateT.run_bind]
  cases (tracer.path world ray).run generator <;> rfl

theorem agree_trace {tracer : PathTracer α} {worlds : ι → World α} {ray : Ray α}
    (h : Sampling.Together lone (Path.Alike E) fun i => tracer.path (worlds i) ray) (generator : Pcg) :
    Agree lone (fun traces => ∀ i j, traces i = traces j) fun i => tracer.trace (worlds i) ray generator := by
  refine (h generator).map ?_
  rintro outcomes ⟨⟨rest, hRest⟩, hAlike⟩ i j
  exact Prod.ext (hAlike.rays_eq i j) ((hRest i).trans (hRest j).symm)

/-- Runs in such worlds use up the same draws, and what relates the backgrounds relates the light. -/
theorem agree_radiance {tracer : PathTracer α} {worlds : ι → World α} {ray : Ray α}
    (h : Sampling.Together lone (Path.Alike E) fun i => tracer.path (worlds i) ray) (hE : Path.Linear E)
    {backgrounds : ι → Color α} (hBackgrounds : E backgrounds) (generator : Pcg) :
    Agree lone (fun results => (∃ rest, ∀ i, (results i).2 = rest) ∧ E fun i => (results i).1)
      fun i => ((tracer.withBackground (backgrounds i)).radiance (worlds i) ray).run generator := by
  simp only [run_radiance, path_withBackground]
  refine (h generator).map ?_
  rintro outcomes ⟨hRest, hAlike⟩
  exact ⟨hRest, hAlike.light_related hE hBackgrounds tracer.fanOut⟩

/-- The generator of a trace is the one that the light leaves. -/
theorem map_snd_radiance (tracer : PathTracer α) (world : World α) (ray : Ray α) (generator : Pcg) :
    ((tracer.radiance world ray).run generator).map Prod.snd =
      (tracer.trace world ray generator).map Prod.snd := by
  rw [run_radiance, trace]
  cases (tracer.path world ray).run generator <;> rfl

end PathTracer

end RayTracer
