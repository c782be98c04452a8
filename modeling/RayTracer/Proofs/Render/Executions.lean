import Mathlib
import RayTracer.Proofs.Render.PathCompletion
import RayTracer.Proofs.Render.Recursion
import RayTracer.Proofs.Render.Superposition

/-! Executions of the path tracer, with everything that happens on the way. A run that stops at a fault leaves
no path behind, so what was asked and what was scattered until then is told by rules of execution. There is an
execution for every ray, however deep, and depths can be counted in all of them. -/

namespace RayTracer.PathTracer

open Sampling (run_bind_of_ok run_bind_of_error run_lift_of_ok run_lift_of_error)

variable {α : Type} [Scalar α]

/-- What is worked on: the light along a ray, or a sum to which rays yet to be scattered at a hit add theirs. -/
inductive Task (α : Type) where
  | trace (ray : Ray α)
  | gather (hit : Hit α) (weight : Color α) (count : ℕ) (sum : Color α)

/-- What can be watched of an execution, in the order in which it happens. -/
inductive Event (α : Type) where
  /-- The world is asked what a ray sees. -/
  | asked (ray : Ray α)
  | scattered (parent child : Ray α)

/-- What happens in the course of a task, and how it comes out. An execution is built from finitely many
rules, so a task that never came to an end would have none. -/
inductive Executes (tracer : PathTracer α) (world : World α) :
    Task α → Pcg → List (Event α) → Except Fault (Color α × Pcg) → Prop where
  | beyond {ray : Ray α} {generator : Pcg} (hDepth : tracer.maxDepth < ray.depth) :
      Executes tracer world (.trace ray) generator [] (.ok (Color.black, generator))
  | missed {ray : Ray α} {generator : Pcg} (hDepth : ray.depth ≤ tracer.maxDepth)
      (hSeen : world.intersect? ray = none) :
      Executes tracer world (.trace ray) generator [.asked ray] (.ok (tracer.background, generator))
  | colorless {ray : Ray α} {hit : Hit α} {generator : Pcg} {fault : Fault}
      (hDepth : ray.depth ≤ tracer.maxDepth) (hSeen : world.intersect? ray = some hit)
      (hColors : hit.colors = .error fault) :
      Executes tracer world (.trace ray) generator [.asked ray] (.error fault)
  | ended {ray : Ray α} {hit : Hit α} {color emitted : Color α} {generator rest : Pcg}
      (hDepth : ray.depth ≤ tracer.maxDepth) (hSeen : world.intersect? ray = some hit)
      (hColors : hit.colors = .ok (color, emitted))
      (hChance : (tracer.continuation ray.depth color).run generator = .ok (none, rest)) :
      Executes tracer world (.trace ray) generator [.asked ray] (.ok (emitted, rest))
  | bounced {ray : Ray α} {hit : Hit α} {color emitted weight : Color α} {generator rest : Pcg}
      {events : List (Event α)} {outcome : Except Fault (Color α × Pcg)}
      (hDepth : ray.depth ≤ tracer.maxDepth) (hSeen : world.intersect? ray = some hit)
      (hColors : hit.colors = .ok (color, emitted))
      (hChance : (tracer.continuation ray.depth color).run generator = .ok (some weight, rest))
      (hGathered : Executes tracer world
        (.gather hit weight (if 0.0 < color.maxComponent then tracer.fanOut else 0) Color.black) rest
        events outcome) :
      Executes tracer world (.trace ray) generator (.asked ray :: events) (outcome.map fun gathered =>
        (emitted + gathered.1 * (1.0 / Scalar.ofNat tracer.fanOut : α), gathered.2))
  | gathered {hit : Hit α} {weight sum : Color α} {generator : Pcg} :
      Executes tracer world (.gather hit weight 0 sum) generator [] (.ok (sum, generator))
  | uncounted {hit : Hit α} {weight sum : Color α} {count : ℕ} {generator : Pcg} {fault : Fault}
      (hNext : nextDepth hit.ray.depth = .error fault) :
      Executes tracer world (.gather hit weight (count + 1) sum) generator [] (.error fault)
  | stopped {hit : Hit α} {weight sum : Color α} {count depth : ℕ} {generator rest : Pcg} {ray : Ray α}
      {events : List (Event α)} {fault : Fault} (hNext : nextDepth hit.ray.depth = .ok depth)
      (hScatter : (hit.material.reflection.scatter hit.ray.direction hit.point hit.normal depth :
        Sampling (Ray α)).run generator = .ok (ray, rest))
      (hTraced : Executes tracer world (.trace ray) rest events (.error fault)) :
      Executes tracer world (.gather hit weight (count + 1) sum) generator
        (.scattered hit.ray ray :: events) (.error fault)
  | added {hit : Hit α} {weight sum light : Color α} {count depth : ℕ} {generator rest last : Pcg}
      {ray : Ray α} {events later : List (Event α)} {outcome : Except Fault (Color α × Pcg)}
      (hNext : nextDepth hit.ray.depth = .ok depth)
      (hScatter : (hit.material.reflection.scatter hit.ray.direction hit.point hit.normal depth :
        Sampling (Ray α)).run generator = .ok (ray, rest))
      (hTraced : Executes tracer world (.trace ray) rest events (.ok (light, last)))
      (hAdded : Executes tracer world (.gather hit weight count (sum + weight * light)) last later outcome) :
      Executes tracer world (.gather hit weight (count + 1) sum) generator
        (.scattered hit.ray ray :: (events ++ later)) outcome

variable {tracer : PathTracer α} {world : World α} {task : Task α} {generator : Pcg}
  {events : List (Event α)} {outcome : Except Fault (Color α × Pcg)}

/-- The computation of a task, and of the rays that it asks about. -/
def Task.survey (tracer : PathTracer α) (world : World α) : Task α → Sampling (Color α × List (Ray α))
  | .trace ray => tracer.survey world ray
  | .gather hit weight count sum => tracer.gather world hit weight count sum

def Event.askedRay? : Event α → Option (Ray α)
  | .asked ray => some ray
  | .scattered _ _ => none

/-- An execution comes out as the computation does, and its events show the rays that are asked about. -/
theorem Executes.run_survey (h : tracer.Executes world task generator events outcome) :
    (task.survey tracer world).run generator =
      outcome.map fun final => ((final.1, events.filterMap Event.askedRay?), final.2) := by
  induction h with
  | beyond hDepth =>
      rw [Task.survey, survey_of_beyond hDepth]
      rfl
  | missed hDepth hSeen =>
      rw [Task.survey, survey_of_missed hDepth hSeen]
      rfl
  | colorless hDepth hSeen hColors =>
      rw [Task.survey, survey_of_hit hDepth hSeen]
      exact run_bind_of_error (run_lift_of_error hColors _)
  | ended hDepth hSeen hColors hChance =>
      rw [Task.survey, survey_of_hit hDepth hSeen, run_bind_of_ok (run_lift_of_ok hColors _),
        run_bind_of_ok hChance]
      rfl
  | @bounced _ _ _ _ _ _ _ _ outcome hDepth hSeen hColors hChance hGathered ih =>
      rw [Task.survey, survey_of_hit hDepth hSeen, run_bind_of_ok (run_lift_of_ok hColors _),
        run_bind_of_ok hChance]
      simp only [Task.survey] at ih
      cases outcome with
      | ok gathered => exact run_bind_of_ok ih
      | error fault => exact run_bind_of_error ih
  | gathered => rfl
  | uncounted hNext =>
      rw [Task.survey, gather]
      exact run_bind_of_error (run_lift_of_error hNext _)
  | stopped hNext hScatter hTraced ih =>
      rw [Task.survey, gather, run_bind_of_ok (run_lift_of_ok hNext _), run_bind_of_ok hScatter]
      exact run_bind_of_error ih
  | @added _ _ _ _ _ _ _ _ _ _ _ _ outcome hNext hScatter hTraced hAdded ihTraced ihAdded =>
      simp only [Task.survey] at ihTraced ihAdded
      rw [Task.survey, gather, run_bind_of_ok (run_lift_of_ok hNext _), run_bind_of_ok hScatter,
        run_bind_of_ok ihTraced]
      cases outcome with
      | ok final =>
          rw [run_bind_of_ok ihAdded]
          simp only [Except.map, Event.askedRay?, List.filterMap_cons, List.filterMap_append]
          rfl
      | error fault => exact run_bind_of_error ihAdded

/-- What is executed is what the tracer runs. -/
theorem Executes.run_radiance {ray : Ray α}
    (h : tracer.Executes world (.trace ray) generator events outcome) :
    (tracer.radiance world ray).run generator = outcome := by
  have hSurvey : (tracer.survey world ray).run generator = _ := h.run_survey
  rw [fst_survey, StateT.run_map, hSurvey]
  cases outcome <;> rfl

/-- The rays of the path are those that were asked for on the way. -/
theorem Executes.run_rays {ray : Ray α} (h : tracer.Executes world (.trace ray) generator events outcome) :
    (Path.rays <$> tracer.path world ray).run generator =
      outcome.map fun final => (events.filterMap Event.askedRay?, final.2) := by
  have hSurvey : (tracer.survey world ray).run generator = _ := h.run_survey
  rw [snd_survey, StateT.run_map, hSurvey]
  cases outcome <;> rfl

/-- A scattered ray is one deeper than the hit. -/
theorem depth_of_scatter {reflection : Reflection α} {incoming : Vec α} {point : Point α} {normal : Normal α}
    {depth : ℕ} {generator rest : Pcg} {ray : Ray α}
    (h : (reflection.scatter incoming point normal depth : Sampling (Ray α)).run generator =
      .ok (ray, rest)) : ray.depth = depth := by
  cases reflection with
  | diffuse pigment reflectance =>
      obtain ⟨rfl, -⟩ := Prod.mk.inj (Except.ok.inj h)
      rfl
  | specular pigment tolerance =>
      obtain ⟨rfl, -⟩ := Prod.mk.inj (Except.ok.inj h)
      rfl

theorem depth_of_nextDepth {depth next : ℕ} (h : nextDepth depth = .ok next) :
    next = depth + 1 ∧ depth < depthLimit := by
  unfold nextDepth at h
  split at h
  next hCounted => exact ⟨(Except.ok.inj h).symm, hCounted⟩
  next => cases h

/-- Where every ray one deeper has an execution, so has the sum of those that are scattered. -/
theorem exists_executes_gather {hit : Hit α}
    (hTrace : ∀ ray generator, ray.depth = hit.ray.depth + 1 →
      ∃ events outcome, tracer.Executes world (.trace ray) generator events outcome)
    (weight : Color α) (count : ℕ) (sum : Color α) (generator : Pcg) :
    ∃ events outcome, tracer.Executes world (.gather hit weight count sum) generator events outcome := by
  induction count generalizing sum generator with
  | zero => exact ⟨_, _, .gathered⟩
  | succ count ih =>
      cases hNext : nextDepth hit.ray.depth with
      | error fault => exact ⟨_, _, .uncounted hNext⟩
      | ok depth =>
          obtain ⟨ray, rest, hScatter, -, hDepth⟩ := gives_scatter hit.material.reflection
            hit.ray.direction hit.point hit.normal depth (fun _ _ _ _ => trivial) generator
          rw [(depth_of_nextDepth hNext).1] at hDepth
          obtain ⟨events, outcome, hTraced⟩ := hTrace ray rest hDepth
          cases outcome with
          | error fault => exact ⟨_, _, .stopped hNext hScatter hTraced⟩
          | ok final =>
              obtain ⟨later, outcome, hAdded⟩ := ih (sum + weight * final.1) final.2
              exact ⟨_, _, .added hNext hScatter hTraced hAdded⟩

/-- The induction is on how many rays may still follow each other. -/
theorem exists_executes (tracer : PathTracer α) (world : World α) (ray : Ray α) (generator : Pcg) :
    ∃ events outcome, tracer.Executes world (.trace ray) generator events outcome := by
  induction hRemaining : tracer.maxDepth + 1 - ray.depth generalizing ray generator with
  | zero => exact ⟨_, _, .beyond (by omega)⟩
  | succ remaining ih =>
      have hDepth : ray.depth ≤ tracer.maxDepth := by omega
      cases hSeen : world.intersect? ray with
      | none => exact ⟨_, _, .missed hDepth hSeen⟩
      | some hit =>
          cases hColors : hit.colors with
          | error fault => exact ⟨_, _, .colorless hDepth hSeen hColors⟩
          | ok colors =>
              obtain ⟨choice, rest, hChance, -⟩ := gives_continuation tracer ray.depth colors.1 generator
              cases choice with
              | none => exact ⟨_, _, .ended hDepth hSeen hColors hChance⟩
              | some weight =>
                  have hDeeper (child : Ray α) (generator : Pcg) (hNext : child.depth = hit.ray.depth + 1) :
                      ∃ events outcome, tracer.Executes world (.trace child) generator events outcome := by
                    rw [World.ray_of_intersect? hSeen] at hNext
                    exact ih child generator (by omega)
                  obtain ⟨events, outcome, hGathered⟩ := exists_executes_gather hDeeper weight
                    (if 0.0 < colors.1.maxComponent then tracer.fanOut else 0) Color.black rest
                  exact ⟨_, _, .bounced hDepth hSeen hColors hChance hGathered⟩

/-- Rays are only scattered at hits that the depth limit allows. -/
def Task.IsWithin (limit : ℕ) : Task α → Prop
  | .trace _ => True
  | .gather hit _ _ _ => hit.ray.depth ≤ limit

def Event.IsWithin (limit : ℕ) : Event α → Prop
  | .asked ray => ray.depth ≤ limit
  | .scattered parent child =>
    parent.depth ≤ limit ∧ parent.depth < depthLimit ∧ child.depth = parent.depth + 1

/-- No event goes beyond the greatest depth, by induction on the execution. -/
theorem Executes.isWithin (h : tracer.Executes world task generator events outcome)
    (hTask : task.IsWithin tracer.maxDepth) : ∀ event ∈ events, event.IsWithin tracer.maxDepth := by
  induction h with
  | beyond hDepth => exact List.forall_mem_nil _
  | missed hDepth hSeen => exact List.forall_mem_singleton.mpr hDepth
  | colorless hDepth hSeen hColors => exact List.forall_mem_singleton.mpr hDepth
  | ended hDepth hSeen hColors hChance => exact List.forall_mem_singleton.mpr hDepth
  | bounced hDepth hSeen hColors hChance hGathered ih =>
      refine List.forall_mem_cons.mpr ⟨hDepth, ih ?_⟩
      rwa [← World.ray_of_intersect? hSeen] at hDepth
  | gathered => exact List.forall_mem_nil _
  | uncounted hNext => exact List.forall_mem_nil _
  | stopped hNext hScatter hTraced ih =>
      obtain ⟨hSum, hCounted⟩ := depth_of_nextDepth hNext
      have hChild := (depth_of_scatter hScatter).trans hSum
      exact List.forall_mem_cons.mpr ⟨⟨hTask, hCounted, hChild⟩, ih trivial⟩
  | added hNext hScatter hTraced hAdded ihTraced ihAdded =>
      obtain ⟨hSum, hCounted⟩ := depth_of_nextDepth hNext
      have hChild := (depth_of_scatter hScatter).trans hSum
      exact List.forall_mem_cons.mpr ⟨⟨hTask, hCounted, hChild⟩,
        List.forall_mem_append.mpr ⟨ihTraced trivial, ihAdded hTask⟩⟩

/-- Where the depth limit can be counted beyond, only a surface without a color stops an execution. -/
theorem Executes.exists_colorless (h : tracer.Executes world task generator events outcome)
    (hLimit : tracer.maxDepth < depthLimit) (hTask : task.IsWithin tracer.maxDepth) {fault : Fault}
    (hFault : outcome = .error fault) :
    ∃ ray hit, .asked ray ∈ events ∧ world.intersect? ray = some hit ∧ hit.colors = .error fault := by
  induction h with
  | beyond hDepth => cases hFault
  | missed hDepth hSeen => cases hFault
  | colorless hDepth hSeen hColors =>
      obtain rfl := Except.error.inj hFault
      exact ⟨_, _, List.mem_singleton_self _, hSeen, hColors⟩
  | ended hDepth hSeen hColors hChance => cases hFault
  | @bounced _ _ _ _ _ _ _ _ outcome hDepth hSeen hColors hChance hGathered ih =>
      rw [← World.ray_of_intersect? hSeen] at hDepth
      cases outcome with
      | ok gathered => cases hFault
      | error cause =>
          obtain ⟨ray, hit, hAsked, hMet⟩ := ih hDepth hFault
          exact ⟨ray, hit, List.mem_cons_of_mem _ hAsked, hMet⟩
  | gathered => cases hFault
  | uncounted hNext =>
      -- The ray that hit is within the limit, which leaves room for one more depth.
      rw [nextDepth, if_pos (lt_of_le_of_lt hTask hLimit)] at hNext
      cases hNext
  | stopped hNext hScatter hTraced ih =>
      obtain ⟨ray, hit, hAsked, hMet⟩ := ih trivial hFault
      exact ⟨ray, hit, List.mem_cons_of_mem _ hAsked, hMet⟩
  | added hNext hScatter hTraced hAdded ihTraced ihAdded =>
      obtain ⟨ray, hit, hAsked, hMet⟩ := ihAdded hTask hFault
      exact ⟨ray, hit, List.mem_cons_of_mem _ (List.mem_append_right _ hAsked), hMet⟩

/-- Where a path goes on from a hit that is not black, a ray is scattered. -/
theorem Executes.exists_scattered {ray : Ray α} {hit : Hit α} {color emitted weight : Color α} {rest : Pcg}
    (h : tracer.Executes world (.trace ray) generator events outcome) (hDepth : ray.depth ≤ tracer.maxDepth)
    (hSeen : world.intersect? ray = some hit) (hColors : hit.colors = .ok (color, emitted))
    (hChance : (tracer.continuation ray.depth color).run generator = .ok (some weight, rest))
    (hBright : 0.0 < color.maxComponent) (hFanOut : 0 < tracer.fanOut) (hCounted : ray.depth < depthLimit) :
    ∃ child, .scattered ray child ∈ events := by
  have hRay := World.ray_of_intersect? hSeen
  cases h with
  | beyond hBeyond => omega
  | missed _ hNothing => rw [hSeen] at hNothing; cases hNothing
  | colorless _ hMet hFault =>
      obtain rfl := Option.some.inj (hSeen.symm.trans hMet)
      rw [hColors] at hFault
      cases hFault
  | ended _ hMet hShown hEnded =>
      obtain rfl := Option.some.inj (hSeen.symm.trans hMet)
      obtain ⟨rfl, -⟩ := Prod.mk.inj (Except.ok.inj (hColors.symm.trans hShown))
      rw [hChance] at hEnded
      cases hEnded
  | bounced _ hMet hShown _ hGathered =>
      obtain rfl := Option.some.inj (hSeen.symm.trans hMet)
      obtain ⟨rfl, -⟩ := Prod.mk.inj (Except.ok.inj (hColors.symm.trans hShown))
      obtain ⟨others, hOthers⟩ := Nat.exists_eq_succ_of_ne_zero hFanOut.ne'
      rw [if_pos hBright, hOthers] at hGathered
      obtain rfl := hRay
      cases hGathered with
      | uncounted hNext =>
          rw [nextDepth, if_pos hCounted] at hNext
          cases hNext
      | stopped => exact ⟨_, List.mem_cons_of_mem _ List.mem_cons_self⟩
      | added => exact ⟨_, List.mem_cons_of_mem _ List.mem_cons_self⟩

omit [Scalar α] in
theorem locate_ne_depthOverflow (image : Image α) (col row : ℕ) :
    image.locate col row ≠ .error .depthOverflow := by
  unfold Image.locate Image.offset mulSizes addSizes
  split
  next =>
      refine bind_ne_error ?_ fun product => ?_
      · split <;> exact nofun
      · split <;> exact nofun
  next => exact nofun

/-- A texture has no depth, so it cannot fail to count one. -/
theorem colorAt_ne_depthOverflow (pigment : Pigment α) (uv : SurfacePoint α) :
    pigment.colorAt uv ≠ .error .depthOverflow := by
  have hIndex (extent : ℕ) (x : α) : Pigment.pixelIndex extent x ≠ .error .depthOverflow := by
    unfold Pigment.pixelIndex
    split <;> exact nofun
  cases pigment with
  | uniform color => exact nofun
  | checkered first second steps => exact nofun
  | texture image =>
      change Pigment.texel image uv ≠ .error .depthOverflow
      unfold Pigment.texel Image.get
      split
      next => exact nofun
      next =>
          refine bind_ne_error (hIndex _ _) fun col => bind_ne_error (hIndex _ _) fun row => ?_
          refine bind_ne_error (locate_ne_depthOverflow image col row) fun position => ?_
          split <;> exact nofun

/-- Colors have nothing to do with depths. -/
theorem colors_ne_depthOverflow (hit : Hit α) : hit.colors ≠ .error .depthOverflow := by
  intro h
  rcases Hit.colorAt_of_colors_eq_error h with hPigment | hEmission
  · exact colorAt_ne_depthOverflow _ _ hPigment
  · exact colorAt_ne_depthOverflow _ _ hEmission

/-- Tracing a ray of any depth comes to an end wherever the depth limit can be counted beyond: with light if
all textures are filled, and otherwise at worst with the fault of a surface that has no color, never with a
depth that is too large to count. The world is only asked about rays within the depth limit, the same as
those of the path, and whatever the surface a scattered ray is one deeper than the ray that hit. -/
theorem radiance_terminates {tracer : PathTracer α} (hLimit : tracer.maxDepth < depthLimit)
    (world : World α) (ray : Ray α) (generator : Pcg) :
    (∃ events outcome, tracer.Executes world (.trace ray) generator events outcome) ∧
    ((∀ shape ∈ world.shapes,
        shape.material.reflection.pigment.IsFilled ∧ shape.material.emission.IsFilled) →
      ∃ light rest, (tracer.radiance world ray).run generator = .ok (light, rest)) ∧
    ∀ events outcome, tracer.Executes world (.trace ray) generator events outcome →
      (tracer.radiance world ray).run generator = outcome ∧
      (Path.rays <$> tracer.path world ray).run generator =
        outcome.map (fun final => (events.filterMap Event.askedRay?, final.2)) ∧
      (∀ fault, outcome = .error fault → fault ≠ .depthOverflow ∧
        ∃ seen hit, .asked seen ∈ events ∧ world.intersect? seen = some hit ∧ hit.colors = .error fault) ∧
      (∀ seen, .asked seen ∈ events → seen.depth ≤ tracer.maxDepth) ∧
      ∀ parent child, .scattered parent child ∈ events →
        child.depth = parent.depth + 1 ∧ child.depth ≤ depthLimit := by
  refine ⟨exists_executes tracer world ray generator,
    fun hFilled => exists_radiance hLimit hFilled ray generator, fun events outcome h => ?_⟩
  have hWithin := h.isWithin trivial
  refine ⟨h.run_radiance, h.run_rays, fun fault hFault => ?_, fun seen hSeen => hWithin _ hSeen, ?_⟩
  · obtain ⟨seen, hit, hAsked, hMet, hColors⟩ := h.exists_colorless hLimit trivial hFault
    exact ⟨fun hDepth => colors_ne_depthOverflow hit (hDepth ▸ hColors), seen, hit, hAsked, hMet, hColors⟩
  · intro parent child hScattered
    obtain ⟨-, hCounted, hChild⟩ := hWithin _ hScattered
    exact ⟨hChild, by omega⟩

/-- Paths that fork at every hit, down to the deepest ray whose scattered rays still have a depth. -/
def bottomless : PathTracer α := ⟨Color.black, 2, 4294967294, 0⟩

/-- A ray that looks at the lantern from as deep as the tracer goes. -/
def deepest : Ray α := ⟨⟨0.0, 0.0, 3.0⟩, ⟨0.0, 0.0, -1.0⟩, ⟨1e-3, .unbounded⟩, 4294967294⟩

/-- On this draw the path goes on from the lantern. -/
theorem run_continuation_deepest :
    ∃ weight rest, ((bottomless : PathTracer Float).continuation (deepest : Ray Float).depth ⟨0.5, 0.5, 0.5⟩).run
      (Pcg.seeded 42 54) = .ok (some weight, rest) := by
  have hSpared : endingProbability (Color.maxComponent ⟨0.5, 0.5, 0.5⟩) <
      (Pcg.unitOf (Pcg.seeded 42 54).draw.1 : Float) := by decide +kernel
  have hChance : (bottomless : PathTracer Float).rouletteDepth ≤ (deepest : Ray Float).depth := Nat.zero_le _
  have hRun := run_continuation_of_chance hChance ⟨0.5, 0.5, 0.5⟩ (Pcg.seeded 42 54)
  rw [if_pos hSpared] at hRun
  exact ⟨_, _, hRun⟩

/-- At the lantern, the deepest ray is traced to its end. It scatters, and what it scatters has the largest depth. -/
theorem radiance_terminates_lantern :
    (bottomless : PathTracer Float).maxDepth < depthLimit ∧
    ∃ light rest events,
      (bottomless.radiance (lantern (.uniform ⟨1.0, 0.0, 0.0⟩)) deepest).run (Pcg.seeded 42 54) =
        .ok ((light : Color Float), rest) ∧
      Executes bottomless (lantern (.uniform ⟨1.0, 0.0, 0.0⟩)) (.trace deepest) (Pcg.seeded 42 54) events
        (.ok (light, rest)) ∧
      (∃ child, .scattered deepest child ∈ events) ∧
      ∀ child, .scattered deepest child ∈ events → child.depth = 4294967295 := by
  have hLimit : (bottomless : PathTracer Float).maxDepth < depthLimit := by decide
  obtain ⟨⟨events, outcome, hExecutes⟩, hLight, hAll⟩ := radiance_terminates hLimit
    (lantern (.uniform ⟨1.0, 0.0, 0.0⟩)) deepest (Pcg.seeded 42 54)
  obtain ⟨light, rest, hRun⟩ := hLight fun shape hShape => by
    rw [List.mem_singleton.mp hShape]
    exact ⟨trivial, trivial⟩
  obtain ⟨hOutcome, -, -, -, hScattered⟩ := hAll events outcome hExecutes
  obtain rfl := hOutcome.symm.trans hRun
  refine ⟨hLimit, light, rest, events, hRun, hExecutes, ?_, fun child hChild => (hScattered _ _ hChild).1⟩
  have hSome : ((lantern (.uniform ⟨1.0, 0.0, 0.0⟩) : World Float).intersect? deepest).isSome = true := by
    decide +kernel
  obtain ⟨hit, hSeen⟩ := Option.isSome_iff_exists.mp hSome
  have hColors : hit.colors = .ok (⟨0.5, 0.5, 0.5⟩, ⟨1.0, 0.0, 0.0⟩) := by
    rw [Hit.colors, material_of_lantern hSeen]
    rfl
  obtain ⟨weight, next, hChance⟩ := run_continuation_deepest
  exact hExecutes.exists_scattered (Nat.le_refl _) hSeen hColors hChance (by decide +kernel) (by decide) (by decide)

end RayTracer.PathTracer
