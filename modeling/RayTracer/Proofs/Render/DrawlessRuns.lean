import Mathlib
import RayTracer.Proofs.Render.PathCompletion
import RayTracer.Render.Renderer

/-! Renderers that draw no random numbers. Three of them never do. The path tracer does not where all surfaces
are mirrors and no path is deep enough to end at random. What they tell of a ray is the same for all
generators, and they pass the generator on as it is. -/

namespace RayTracer

namespace Sampling

variable {β γ : Type}

/-- Nothing is drawn: there is one outcome, whatever the generator. -/
def Drawless (action : Sampling β) : Prop := ∃ outcome : Except Fault β, action = StateT.lift outcome

theorem drawless_pure (result : β) : Drawless (pure result) := ⟨.ok result, rfl⟩

theorem drawless_lift (outcome : Except Fault β) : Drawless (StateT.lift outcome) := ⟨outcome, rfl⟩

/-- After a fault nothing follows, so only what follows a result has to draw nothing. -/
theorem Drawless.bind {action : Sampling β} {next : β → Sampling γ} (hFirst : action.Drawless)
    (hNext : ∀ result, (next result).Drawless) : Drawless (action >>= next) := by
  obtain ⟨outcome, rfl⟩ := hFirst
  cases outcome with
  | error fault => exact ⟨.error fault, rfl⟩
  | ok result => exact hNext result

theorem Drawless.mapM {step : β → Sampling γ} {items : List β} (h : ∀ item ∈ items, (step item).Drawless) :
    Drawless (items.mapM step) := by
  induction items with
  | nil => exact drawless_pure []
  | cons item items ih =>
      have hRest := ih fun other hOther => h other (List.mem_cons_of_mem item hOther)
      rw [List.mapM_cons]
      exact (h item List.mem_cons_self).bind fun _ => hRest.bind fun _ => drawless_pure _

end Sampling

variable {α : Type}

/-- Light leaves as from a mirror. -/
def Reflection.IsMirror (reflection : Reflection α) : Prop :=
  ∃ pigment tolerance, reflection = .specular pigment tolerance

/-- All surfaces are mirrors. -/
def World.Mirrored (world : World α) : Prop :=
  ∀ shape ∈ world.shapes, shape.material.reflection.IsMirror

variable [Scalar α]

/-- In a world of mirrors every hit is on a mirror. -/
theorem World.Mirrored.of_intersect? {world : World α} (h : world.Mirrored) {ray : Ray α} {hit : Hit α}
    (hSeen : world.intersect? ray = some hit) : hit.material.reflection.IsMirror := by
  obtain ⟨shape, hShape, hMaterial⟩ := exists_material_of_intersect? hSeen
  rw [hMaterial]
  exact h shape hShape

namespace PathTracer

/-- A mirror scatters without drawing, a single ray one deeper. -/
theorem drawless_branch {follow : Ray α → Sampling (Path α)} {hit : Hit α}
    (hMirror : hit.material.reflection.IsMirror)
    (hFollow : ∀ ray, ray.depth = hit.ray.depth + 1 → (follow ray).Drawless) :
    Sampling.Drawless (branch follow hit) := by
  obtain ⟨pigment, tolerance, hReflection⟩ := hMirror
  unfold branch nextDepth
  rw [hReflection]
  split
  next => exact hFollow _ rfl
  next => exact ⟨.error .depthOverflow, rfl⟩

/-- Before the roulette depth a path goes on without a chance to end. -/
theorem drawless_goOn {tracer : PathTracer α} {follow : Ray α → Sampling (Path α)} {hit : Hit α}
    (hBefore : hit.ray.depth < tracer.rouletteDepth) (hBranch : Sampling.Drawless (branch follow hit)) :
    Sampling.Drawless (tracer.goOn follow hit) := by
  unfold goOn
  refine (Sampling.drawless_lift _).bind fun color => ?_
  refine (Sampling.drawless_lift _).bind fun emitted => ?_
  rw [continuation, if_pos hBefore, pure_bind]
  refine (Sampling.Drawless.mapM fun item hItem => ?_).bind fun _ => Sampling.drawless_pure _
  rw [List.eq_of_mem_replicate hItem]
  exact hBranch

/-- Along mirrors the depth of a ray and the number of rays that still follow it stay below the roulette
depth together. -/
theorem drawless_follow {tracer : PathTracer α} {world : World α} (hMirrored : world.Mirrored)
    (hRoulette : tracer.maxDepth < tracer.rouletteDepth) {remaining : ℕ} {ray : Ray α}
    (hDepth : ray.depth + remaining ≤ tracer.maxDepth + 1) :
    Sampling.Drawless (tracer.follow world remaining ray) := by
  induction remaining generalizing ray with
  | zero => exact Sampling.drawless_pure _
  | succ remaining ih =>
      cases hSeen : world.intersect? ray with
      | none =>
          simp only [follow, hSeen]
          exact Sampling.drawless_pure _
      | some hit =>
          have hRay := World.ray_of_intersect? hSeen
          simp only [follow, hSeen]
          rw [← hRay] at hDepth
          refine drawless_goOn (by omega) (drawless_branch (hMirrored.of_intersect? hSeen) ?_)
          intro scattered hNext
          exact ih (by omega)

/-- Where all surfaces are mirrors and no roulette is played, a path tracer draws nothing. -/
theorem drawless_radiance {tracer : PathTracer α} {world : World α} (hMirrored : world.Mirrored)
    (hRoulette : tracer.maxDepth < tracer.rouletteDepth) (ray : Ray α) :
    Sampling.Drawless (tracer.radiance world ray) := by
  have hPath : Sampling.Drawless (tracer.path world ray) := by
    by_cases hDepth : ray.depth ≤ tracer.maxDepth
    · exact drawless_follow hMirrored hRoulette (by omega)
    · have hNone : tracer.maxDepth + 1 - ray.depth = 0 := by omega
      rw [path, hNone]
      exact Sampling.drawless_pure _
  exact hPath.bind fun _ => Sampling.drawless_pure _

end PathTracer

namespace Renderer

/-- A renderer finds its way through a world without random numbers. -/
def Drawless (renderer : Renderer α) (world : World α) : Prop :=
  match renderer with
  | .onOff _ _ | .flat _ | .pointLight _ _ => True
  | .pathTracing tracer => world.Mirrored ∧ tracer.maxDepth < tracer.rouletteDepth

/-- A renderer of these draws nothing for any ray. -/
theorem Drawless.radiance {renderer : Renderer α} {world : World α} (h : renderer.Drawless world)
    (ray : Ray α) : Sampling.Drawless (renderer.radiance world ray) := by
  cases renderer with
  | onOff background color => exact Sampling.drawless_pure _
  | flat background =>
      simp only [Renderer.radiance]
      cases world.intersect? ray with
      | none => exact Sampling.drawless_pure _
      | some hit => exact Sampling.drawless_lift _
  | pointLight background ambient =>
      simp only [Renderer.radiance]
      cases world.intersect? ray with
      | none => exact Sampling.drawless_pure _
      | some hit => exact Sampling.drawless_lift _
  | pathTracing tracer => exact PathTracer.drawless_radiance h.1 h.2 ray

theorem exists_eval {reflection : Reflection α} {uv : SurfacePoint α} {color : Color α}
    (hColor : reflection.pigment.colorAt uv = .ok color) (normal : Normal α) (incoming outgoing : Vec α) :
    ∃ reflected, reflection.eval normal incoming outgoing uv = .ok reflected := by
  cases reflection with
  | diffuse pigment reflectance =>
      have hPigment : pigment.colorAt uv = .ok color := hColor
      simp only [Reflection.eval, hPigment]
      exact ⟨_, rfl⟩
  | specular pigment tolerance =>
      simp only [Reflection.eval]
      split
      · exact ⟨color, hColor⟩
      · exact ⟨_, rfl⟩

theorem exists_addLights (world : World α) (ray : Ray α) {hit : Hit α} {color : Color α}
    (hColor : hit.material.reflection.pigment.colorAt hit.uv = .ok color) (lights : List (PointLight α))
    (sum : Color α) : ∃ total, addLights world ray hit lights sum = .ok total := by
  induction lights generalizing sum with
  | nil => exact ⟨sum, rfl⟩
  | cons light lights ih =>
      obtain ⟨added, hAdded⟩ : ∃ added, lightAt world ray hit light = .ok added := by
        unfold lightAt
        split
        · obtain ⟨reflected, hReflected⟩ := exists_eval hColor hit.normal
            ((light.position - hit.point) / (light.position - hit.point).norm) (-ray.direction)
          simp only [hReflected]
          exact ⟨_, rfl⟩
        · exact ⟨none, rfl⟩
      unfold addLights
      rw [hAdded]
      cases added with
      | none => exact ih sum
      | some color => exact ih (sum + color)

/-- Where surfaces have colors, and depths of paths can be counted, every ray has a color. -/
theorem gives_radiance {renderer : Renderer α} {world : World α} (hReflects : world.Reflects)
    (hEmits : world.Emits)
    (hLimit : ∀ tracer, renderer = .pathTracing tracer → tracer.maxDepth < PathTracer.depthLimit)
    (ray : Ray α) : Sampling.Gives (renderer.radiance world ray) fun _ => True := by
  cases renderer with
  | onOff background color => exact Sampling.gives_pure trivial
  | flat background =>
      simp only [radiance]
      cases hSeen : world.intersect? ray with
      | none => exact Sampling.gives_pure trivial
      | some hit =>
          obtain ⟨color, hColor⟩ := hReflects ray hit hSeen
          obtain ⟨emitted, hEmitted⟩ := hEmits ray hit hSeen
          have hFlat : flatColor hit = .ok (color + emitted) := by
            simp only [flatColor, hColor, hEmitted]
            rfl
          exact (Sampling.gives_of_eq_ok hFlat).mono fun _ _ => trivial
  | pointLight background ambient =>
      simp only [radiance]
      cases hSeen : world.intersect? ray with
      | none => exact Sampling.gives_pure trivial
      | some hit =>
          obtain ⟨color, hColor⟩ := hReflects ray hit hSeen
          obtain ⟨emitted, hEmitted⟩ := hEmits ray hit hSeen
          obtain ⟨total, hTotal⟩ := exists_addLights world ray hColor world.lights (ambient + emitted)
          have hDirect : directLight world ambient ray hit = .ok total := by
            simp only [directLight, hEmitted]
            exact hTotal
          exact (Sampling.gives_of_eq_ok hDirect).mono fun _ _ => trivial
  | pathTracing tracer =>
      exact (PathTracer.gives_path_of_colors tracer hReflects hEmits (hLimit tracer rfl) ray).bind
        fun _ _ => Sampling.gives_pure trivial

end Renderer

end RayTracer
