import Mathlib
import RayTracer.Proofs.Exact.Transformations
import RayTracer.Proofs.Exact.Vectors
import RayTracer.Proofs.Render.DrawlessRuns
import RayTracer.Proofs.Scene.NearestHit

/-! What point lights add to a hit, over exact numbers. Lights are added one after the other, and each of them adds
something of its own or nothing, so their order does not matter. A run stops only where a surface has no color, at the
same fault whichever light asks for it first. What a light adds is the product of what the surface reflects, the color
of the light, a cosine that is never taken as negative and a fading that never is. -/

namespace RayTracer

section Faults

variable {α : Type} [Scalar α]

/-- A world in other light. -/
def World.litBy (world : World α) (lights : List (PointLight α)) : World α := { world with lights := lights }

/-- A surface that reflects no color has none. -/
theorem Reflection.fault_of_eval {reflection : Reflection α} {normal : Normal α} {incoming outgoing : Vec α}
    {uv : SurfacePoint α} {fault : Fault} (h : reflection.eval normal incoming outgoing uv = .error fault) :
    reflection.pigment.colorAt uv = .error fault := by
  cases reflection with
  | diffuse pigment reflectance =>
      rcases bind_eq_error_iff.mp h with hPigment | ⟨color, -, hNever⟩
      · exact hPigment
      · cases hNever
  | specular pigment tolerance =>
      simp only [eval] at h
      split at h
      next => exact h
      next => cases h

namespace Renderer

variable {world : World α} {ray : Ray α} {hit : Hit α} {light : PointLight α} {fault : Fault}

/-- A light that is hidden adds nothing. -/
theorem lightAt_of_hidden (ray : Ray α) (h : world.isVisible light.position hit.point = false) :
    lightAt world ray hit light = .ok none := by
  have hHidden : ¬world.isVisible light.position hit.point = true := by rw [h]; exact Bool.false_ne_true
  unfold lightAt
  rw [if_neg hHidden]
  rfl

/-- What a light adds is missing only where the surface has no color. -/
theorem fault_of_lightAt (h : lightAt world ray hit light = .error fault) :
    hit.material.reflection.pigment.colorAt hit.uv = .error fault := by
  unfold lightAt at h
  split at h
  next =>
      rcases bind_eq_error_iff.mp h with hEval | ⟨color, -, hNever⟩
      · exact Reflection.fault_of_eval hEval
      · cases hNever
  next => cases h

theorem fault_of_addLights {lights : List (PointLight α)} {sum : Color α}
    (h : addLights world ray hit lights sum = .error fault) :
    hit.material.reflection.pigment.colorAt hit.uv = .error fault := by
  induction lights generalizing sum with
  | nil => cases h
  | cons light lights ih =>
      unfold addLights at h
      rcases bind_eq_error_iff.mp h with hLight | ⟨added, -, hRest⟩
      · exact fault_of_lightAt hLight
      · cases added with
        | none => exact ih hRest
        | some color => exact ih hRest

/-- Other lights hide nothing. -/
theorem addLights_litBy (others lights : List (PointLight α)) (sum : Color α) :
    addLights (world.litBy others) ray hit lights sum = addLights world ray hit lights sum := by
  induction lights generalizing sum with
  | nil => rfl
  | cons light lights ih =>
      have hLight : lightAt (world.litBy others) ray hit light = lightAt world ray hit light := rfl
      unfold addLights
      rw [hLight]
      refine bind_congr fun added => ?_
      cases added with
      | none => exact ih sum
      | some color => exact ih (sum + color)

theorem directLight_litBy (ambient : Color α) (lights : List (PointLight α)) :
    directLight (world.litBy lights) ambient ray hit = (do
      let emitted ← hit.material.emission.colorAt hit.uv
      addLights world ray hit lights (ambient + emitted)) :=
  bind_congr fun emitted => addLights_litBy lights lights (ambient + emitted)

end Renderer

end Faults

namespace Renderer

section Sums

variable {world : World ℝ} {ray : Ray ℝ} {hit : Hit ℝ} {light : PointLight ℝ}

/-- A light that adds nothing adds black. -/
theorem addLights_cons (lights : List (PointLight ℝ)) (sum : Color ℝ) :
    addLights world ray hit (light :: lights) sum = (do
      let added ← lightAt world ray hit light
      addLights world ray hit lights (sum + added.getD Color.black)) := by
  rw [addLights]
  refine bind_congr fun added => ?_
  cases added with
  | none => rw [Option.getD_none, Color.add_black]
  | some color => rfl

/-- What is there before the lights is there after them. -/
theorem addLights_add (lights : List (PointLight ℝ)) (sum color : Color ℝ) :
    addLights world ray hit lights (sum + color) = (addLights world ray hit lights sum).map (· + color) := by
  induction lights generalizing sum with
  | nil => rfl
  | cons light lights ih =>
      rw [addLights_cons, addLights_cons]
      cases lightAt world ray hit light with
      | error fault => rfl
      | ok added =>
          change addLights world ray hit lights (sum + color + added.getD Color.black) =
            (addLights world ray hit lights (sum + added.getD Color.black)).map (· + color)
          rw [Color.add_swap, ih]

/-- Two lights can change places: sums do not care, and both stop at the fault of the surface. -/
theorem addLights_swap (one other : PointLight ℝ) (lights : List (PointLight ℝ)) (sum : Color ℝ) :
    addLights world ray hit (one :: other :: lights) sum = addLights world ray hit (other :: one :: lights) sum := by
  simp only [addLights_cons]
  cases hOne : lightAt world ray hit one with
  | error fault =>
      cases hOther : lightAt world ray hit other with
      | error other =>
          have hSame := (fault_of_lightAt hOne).symm.trans (fault_of_lightAt hOther)
          obtain rfl := Except.error.inj hSame
          rfl
      | ok added => rfl
  | ok first =>
      cases hOther : lightAt world ray hit other with
      | error fault => rfl
      | ok second =>
          change addLights world ray hit lights (sum + first.getD Color.black + second.getD Color.black) =
            addLights world ray hit lights (sum + second.getD Color.black + first.getD Color.black)
          rw [Color.add_swap]

/-- The order of the lights does not matter to what they add. -/
theorem addLights_perm {lights reordered : List (PointLight ℝ)} (h : reordered.Perm lights) (sum : Color ℝ) :
    addLights world ray hit reordered sum = addLights world ray hit lights sum := by
  induction h generalizing sum with
  | nil => rfl
  | cons light _ ih => simp only [addLights_cons, ih]
  | swap one other lights => exact addLights_swap other one lights sum
  | trans _ _ ih ih' => exact (ih sum).trans (ih' sum)

/-- One more light adds what it adds to the sum of the others, or the run stops, since the surface has no color for
the light or because it emits none. -/
theorem directLight_cons (world : World ℝ) (ambient : Color ℝ) (ray : Ray ℝ) (hit : Hit ℝ) (light : PointLight ℝ)
    (lights : List (PointLight ℝ)) :
    (∃ added, lightAt world ray hit light = .ok added ∧ directLight (world.litBy (light :: lights)) ambient ray hit =
      (directLight (world.litBy lights) ambient ray hit).map (· + added.getD Color.black)) ∨
    directLight (world.litBy (light :: lights)) ambient ray hit = directLight (world.litBy lights) ambient ray hit ∨
    ∃ fault, hit.material.reflection.pigment.colorAt hit.uv = .error fault ∧
      directLight (world.litBy (light :: lights)) ambient ray hit = .error fault := by
  rw [directLight_litBy, directLight_litBy]
  cases hit.material.emission.colorAt hit.uv with
  | error fault => exact Or.inr (Or.inl rfl)
  | ok emitted =>
      change (∃ added, _ ∧ addLights world ray hit (light :: lights) (ambient + emitted) =
        (addLights world ray hit lights (ambient + emitted)).map _) ∨ _ ∨ ∃ fault, _ ∧
          addLights world ray hit (light :: lights) (ambient + emitted) = _
      rw [addLights_cons]
      cases hLight : lightAt world ray hit light with
      | error fault => exact Or.inr (Or.inr ⟨fault, fault_of_lightAt hLight, rfl⟩)
      | ok added => exact Or.inl ⟨added, rfl, addLights_add lights _ _⟩

end Sums

end Renderer

/-- No light fades to less than nothing. -/
theorem PointLight.fading_nonneg (light : PointLight ℝ) (distance : ℝ) : 0 ≤ light.fading distance := by
  rw [fading]
  split
  · exact mul_self_nonneg _
  · norm_num

/-- The cosine has the sign of the product, whatever the lengths are. -/
theorem cosineBetween_exact (v : Vec ℝ) (n : Normal ℝ) :
    cosineBetween v n = n.dot v * (1 / v.norm * (1 / n.toVec.norm)) := by
  rw [cosineBetween, Normal.toVec_normalized, Vec.normalized_exact, Vec.normalized_exact, Vec.dot_scale, Vec.scale_dot,
    Vec.dot_comm, mul_assoc]
  rfl

/-- What comes from behind a surface or along it has no positive cosine. -/
theorem cosineBetween_div_nonpos {v : Vec ℝ} {n : Normal ℝ} (h : n.dot v ≤ 0) {distance : ℝ}
    (hDistance : 0 < distance) : cosineBetween (v / distance) n ≤ 0 := by
  have hShortened : n.dot (v / distance) = n.dot v * (1 / distance) := by
    rw [Vec.div_exact, Normal.dot_exact, Vec.dot_scale, Normal.dot_exact]
  have hLength := (v / distance).zero_le_norm
  have hAxis := n.toVec.zero_le_norm
  rw [cosineBetween_exact, hShortened, mul_assoc]
  exact mul_nonpos_of_nonpos_of_nonneg h (by positivity)

/-- A surface that takes no light away: neither its pigment nor its reflectance is negative. -/
structure Reflection.Nonnegative (reflection : Reflection ℝ) : Prop where
  pigment : ∀ uv color, reflection.pigment.colorAt uv = .ok color → Color.black ≤ color
  reflectance : ∀ pigment reflectance, reflection = .diffuse pigment reflectance → 0 ≤ reflectance

/-- A surface that takes no light away reflects no negative color. -/
theorem Reflection.Nonnegative.black_le_eval {reflection : Reflection ℝ} (hNonneg : reflection.Nonnegative)
    {normal : Normal ℝ} {incoming outgoing : Vec ℝ} {uv : SurfacePoint ℝ} {color : Color ℝ}
    (h : reflection.eval normal incoming outgoing uv = .ok color) : Color.black ≤ color := by
  cases reflection with
  | diffuse pigment reflectance =>
      obtain ⟨seen, hSeen, hColor⟩ := bind_eq_ok_iff.mp h
      rw [← pure_eq_ok_iff.mp hColor]
      exact Color.black_le_scale (hNonneg.pigment uv seen hSeen)
        (div_nonneg (hNonneg.reflectance pigment reflectance rfl) Real.pi_pos.le)
  | specular pigment tolerance =>
      simp only [eval] at h
      split at h
      next => exact hNonneg.pigment uv color h
      next => exact (Except.ok.inj h).le

namespace Renderer

section Amounts

variable {world : World ℝ} {ray : Ray ℝ} {hit : Hit ℝ} {light : PointLight ℝ}

/-- The color that a light adds to a hit that it reaches. -/
theorem exists_eval_of_lightAt {color : Color ℝ} (h : lightAt world ray hit light = .ok (some color)) :
    let toLight := light.position - hit.point
    ∃ reflected,
      hit.material.reflection.eval hit.normal (toLight / toLight.norm) (-ray.direction) hit.uv = .ok reflected ∧
      color = reflected * light.color *
        (max (cosineBetween (toLight / toLight.norm) hit.normal) 0 * light.fading toLight.norm) := by
  intro toLight
  unfold lightAt at h
  split at h
  next =>
      obtain ⟨reflected, hReflected, hColor⟩ := bind_eq_ok_iff.mp h
      have hAdded := Option.some.inj (pure_eq_ok_iff.mp hColor)
      rw [Scalar.zero_exact] at hAdded
      exact ⟨reflected, hReflected, hAdded.symm⟩
  next => cases h

/-- Behind the surface or along it, a light adds black. -/
theorem eq_black_of_behind (hApart : light.position ≠ hit.point)
    (hBehind : hit.normal.dot (light.position - hit.point) ≤ 0) {added : Option (Color ℝ)}
    (h : lightAt world ray hit light = .ok added) : added.getD Color.black = Color.black := by
  cases added with
  | none => rfl
  | some color =>
      obtain ⟨reflected, -, rfl⟩ := exists_eval_of_lightAt h
      have hCosine := cosineBetween_div_nonpos hBehind (Vec.norm_pos (Point.sub_ne_zero hApart))
      rw [Option.getD_some, max_eq_right hCosine, zero_mul, Color.mul_scalar_exact, Color.black_exact]
      simp only [mul_zero]

/-- A light that is not negative adds nothing negative. -/
theorem black_le_added (hSurface : hit.material.reflection.Nonnegative) (hLight : Color.black ≤ light.color)
    {added : Option (Color ℝ)} (h : lightAt world ray hit light = .ok added) :
    Color.black ≤ added.getD Color.black := by
  cases added with
  | none => exact le_rfl
  | some color =>
      obtain ⟨reflected, hReflected, rfl⟩ := exists_eval_of_lightAt h
      have hFactor := mul_nonneg (le_max_right (cosineBetween
        ((light.position - hit.point) / (light.position - hit.point).norm) hit.normal) 0)
        (light.fading_nonneg (light.position - hit.point).norm)
      exact Color.black_le_scale (Color.black_le_mul (hSurface.black_le_eval hReflected) hLight) hFactor

/-- Lights only add to what is there before them. -/
theorem le_addLights (hSurface : hit.material.reflection.Nonnegative) {lights : List (PointLight ℝ)}
    (hLights : ∀ light ∈ lights, Color.black ≤ light.color) {sum total : Color ℝ}
    (h : addLights world ray hit lights sum = .ok total) : sum ≤ total := by
  induction lights generalizing sum with
  | nil => exact (Except.ok.inj h).le
  | cons light lights ih =>
      obtain ⟨hFirst, hRest⟩ := List.forall_mem_cons.mp hLights
      rw [addLights_cons] at h
      obtain ⟨added, hAdded, hTotal⟩ := bind_eq_ok_iff.mp h
      exact (Color.le_add_right (black_le_added hSurface hFirst hAdded)).trans (ih hRest hTotal)

/-- A light that adds black changes nothing where the surface has a color. -/
theorem directLight_cons_of_black (world : World ℝ) (ray : Ray ℝ) (ambient : Color ℝ) (lights : List (PointLight ℝ))
    (hBlack : ∀ added, lightAt world ray hit light = .ok added → added.getD Color.black = Color.black) :
    directLight (world.litBy (light :: lights)) ambient ray hit = directLight (world.litBy lights) ambient ray hit ∨
    ∃ fault, hit.material.reflection.pigment.colorAt hit.uv = .error fault ∧
      directLight (world.litBy (light :: lights)) ambient ray hit = .error fault := by
  rcases directLight_cons world ambient ray hit light lights with ⟨added, hAdded, hCons⟩ | hKept
  · have hSame : (· + added.getD Color.black) = (id : Color ℝ → Color ℝ) :=
      funext fun color => by rw [hBlack added hAdded, Color.add_black, id]
    rw [hCons, hSame]
    exact Or.inl (congrFun Except.map_id _)
  · exact hKept

/-- A light that is hidden changes nothing. -/
theorem directLight_cons_of_hidden (ambient : Color ℝ) (lights : List (PointLight ℝ))
    (hHidden : world.isVisible light.position hit.point = false) :
    directLight (world.litBy (light :: lights)) ambient ray hit = directLight (world.litBy lights) ambient ray hit := by
  rw [directLight_litBy, directLight_litBy]
  refine bind_congr fun emitted => ?_
  rw [addLights, lightAt_of_hidden ray hHidden]
  rfl

/-- A light that is not negative makes nothing darker. -/
theorem le_directLight_cons {ambient : Color ℝ} (hSurface : hit.material.reflection.Nonnegative)
    (hLight : Color.black ≤ light.color) {lights : List (PointLight ℝ)} {color : Color ℝ}
    (h : directLight (world.litBy lights) ambient ray hit = .ok color) :
    (∃ brighter, directLight (world.litBy (light :: lights)) ambient ray hit = .ok brighter ∧ color ≤ brighter) ∨
    ∃ fault, hit.material.reflection.pigment.colorAt hit.uv = .error fault ∧
      directLight (world.litBy (light :: lights)) ambient ray hit = .error fault := by
  rcases directLight_cons world ambient ray hit light lights with ⟨added, hAdded, hCons⟩ | hSame | hStops
  · rw [h] at hCons
    exact Or.inl ⟨_, hCons, Color.le_add_right (black_le_added hSurface hLight hAdded)⟩
  · exact Or.inl ⟨color, hSame.trans h, le_rfl⟩
  · exact Or.inr hStops

/-- What a hit has without any point light, it keeps under lights that are not negative. -/
theorem le_directLight (ambient : Color ℝ) (hSurface : hit.material.reflection.Nonnegative)
    {lights : List (PointLight ℝ)} (hLights : ∀ light ∈ lights, Color.black ≤ light.color) :
    (∃ emitted color, hit.material.emission.colorAt hit.uv = .ok emitted ∧ ambient + emitted ≤ color ∧
      directLight (world.litBy lights) ambient ray hit = .ok color) ∨
    (∃ fault, hit.material.reflection.pigment.colorAt hit.uv = .error fault ∧
      directLight (world.litBy lights) ambient ray hit = .error fault) ∨
    ∃ fault, hit.material.emission.colorAt hit.uv = .error fault ∧
      directLight (world.litBy lights) ambient ray hit = .error fault := by
  rw [directLight_litBy]
  cases hit.material.emission.colorAt hit.uv with
  | error fault => exact Or.inr (Or.inr ⟨fault, rfl, rfl⟩)
  | ok emitted =>
      change (∃ glow color, _ ∧ _ ∧ addLights world ray hit lights (ambient + emitted) = _) ∨
        (∃ fault, _ ∧ addLights world ray hit lights (ambient + emitted) = _) ∨ _
      cases hSum : addLights world ray hit lights (ambient + emitted) with
      | error fault => exact Or.inr (Or.inl ⟨fault, fault_of_addLights hSum, rfl⟩)
      | ok color => exact Or.inl ⟨emitted, color, rfl, le_addLights hSurface hLights hSum, rfl⟩

end Amounts

section Radiance

variable {world : World ℝ} {ray : Ray ℝ} {hit : Hit ℝ}

theorem radiance_of_hit (background ambient : Color ℝ) (hHit : world.intersect? ray = some hit)
    (lights : List (PointLight ℝ)) :
    (pointLight background ambient).radiance (world.litBy lights) ray =
      StateT.lift (directLight (world.litBy lights) ambient ray hit) := by
  have hSame : (world.litBy lights).intersect? ray = some hit := hHit
  simp only [radiance, hSame]

/-- Lights that give a hit the same color give it to the ray. -/
theorem radiance_congr_of_hit (background ambient : Color ℝ) (hHit : world.intersect? ray = some hit)
    {lights others : List (PointLight ℝ)}
    (h : directLight (world.litBy lights) ambient ray hit = directLight (world.litBy others) ambient ray hit) :
    (pointLight background ambient).radiance (world.litBy lights) ray =
      (pointLight background ambient).radiance (world.litBy others) ray := by
  rw [radiance_of_hit background ambient hHit, radiance_of_hit background ambient hHit, h]

/-- The order of the lights does not matter to a ray, whether it hits or not. -/
theorem radiance_perm (background ambient : Color ℝ) (world : World ℝ) (ray : Ray ℝ)
    {lights reordered : List (PointLight ℝ)} (h : reordered.Perm lights) :
    (pointLight background ambient).radiance (world.litBy reordered) ray =
      (pointLight background ambient).radiance (world.litBy lights) ray := by
  cases hSeen : world.intersect? ray with
  | none =>
      have hMissed (lights : List (PointLight ℝ)) : (world.litBy lights).intersect? ray = none := hSeen
      simp only [radiance, hMissed]
  | some hit =>
      rw [radiance_of_hit background ambient hSeen, radiance_of_hit background ambient hSeen, directLight_litBy,
        directLight_litBy]
      exact congrArg StateT.lift (bind_congr fun emitted => addLights_perm h (ambient + emitted))

/-- Point lights draw no random numbers. -/
theorem run_radiance_of_hit (background ambient : Color ℝ) (hHit : world.intersect? ray = some hit)
    (lights : List (PointLight ℝ)) (generator : Pcg) :
    ((pointLight background ambient).radiance (world.litBy lights) ray).run generator =
      (directLight (world.litBy lights) ambient ray hit).map (·, generator) := by
  rw [radiance_of_hit background ambient hHit]
  cases directLight (world.litBy lights) ambient ray hit <;> rfl

end Radiance

/-- Lights add up. The color that point lights give a ray does not depend on their order, whether the ray hits or not
and even in stopping at a fault. Where it hits, a light that is hidden from the hit changes nothing. Neither does one
that lies on the tangent plane there or behind it, unless the surface has no color and the run stops at asking for
it. If no pigment, no reflectance and no color of a light is negative, one light more makes no channel darker, and a
hit never gets less than the ambient light and what it emits. A light at the hit itself comes from no direction, and
nothing is said of what it adds. -/
theorem radiance_pointLights_add_up (background ambient : Color ℝ) (world : World ℝ) (ray : Ray ℝ) :
    let radiance (lights : List (PointLight ℝ)) := (pointLight background ambient).radiance (world.litBy lights) ray
    (∀ lights reordered, reordered.Perm lights → radiance reordered = radiance lights) ∧
    ∀ hit, world.intersect? ray = some hit →
      let colorless (lights : List (PointLight ℝ)) : Prop :=
        ∃ fault, hit.material.reflection.pigment.colorAt hit.uv = .error fault ∧
          ∀ generator, (radiance lights).run generator = .error fault
      (∀ light lights, world.isVisible light.position hit.point = false →
        radiance (light :: lights) = radiance lights) ∧
      (∀ light lights, light.position ≠ hit.point → hit.normal.dot (light.position - hit.point) ≤ 0 →
        radiance (light :: lights) = radiance lights ∨ colorless (light :: lights)) ∧
      ((∀ shape ∈ world.shapes, shape.material.reflection.Nonnegative) →
        (∀ light lights, light.position ≠ hit.point → Color.black ≤ light.color → ∀ generator color rest,
          (radiance lights).run generator = .ok (color, rest) →
          (∃ brighter, (radiance (light :: lights)).run generator = .ok (brighter, rest) ∧ color ≤ brighter) ∨
            colorless (light :: lights)) ∧
        ∀ lights, (∀ light ∈ lights, light.position ≠ hit.point ∧ Color.black ≤ light.color) →
          (∃ emitted color, hit.material.emission.colorAt hit.uv = .ok emitted ∧ ambient + emitted ≤ color ∧
            ∀ generator, (radiance lights).run generator = .ok (color, generator)) ∨
          colorless lights ∨
          ∃ fault, hit.material.emission.colorAt hit.uv = .error fault ∧
            ∀ generator, (radiance lights).run generator = .error fault) := by
  intro radiance
  refine ⟨fun lights reordered hPerm => radiance_perm background ambient world ray hPerm, fun hit hHit => ?_⟩
  intro colorless
  have hRun := run_radiance_of_hit background ambient hHit
  have hColorless {lights : List (PointLight ℝ)}
      (h : ∃ fault, hit.material.reflection.pigment.colorAt hit.uv = .error fault ∧
        directLight (world.litBy lights) ambient ray hit = .error fault) : colorless lights := by
    obtain ⟨fault, hPigment, hStops⟩ := h
    exact ⟨fault, hPigment, fun generator => by rw [hRun, hStops]; rfl⟩
  refine ⟨fun light lights hHidden => ?_, fun light lights hApart hBehind => ?_, fun hSurfaces => ?_⟩
  · exact radiance_congr_of_hit background ambient hHit (directLight_cons_of_hidden ambient lights hHidden)
  · have hBlack := directLight_cons_of_black world ray ambient lights fun added => eq_black_of_behind hApart hBehind
    exact hBlack.imp (radiance_congr_of_hit background ambient hHit) hColorless
  · obtain ⟨shape, hShape, hMaterial⟩ := World.exists_material_of_intersect? hHit
    have hSurface : hit.material.reflection.Nonnegative := hMaterial ▸ hSurfaces shape hShape
    refine ⟨fun light lights _ hLight generator color rest hColor => ?_, fun lights hLights => ?_⟩
    · rw [hRun] at hColor
      obtain ⟨found, hFound, hPair⟩ := map_eq_ok_iff.mp hColor
      obtain ⟨rfl, rfl⟩ := Prod.mk.inj hPair
      rcases le_directLight_cons hSurface hLight hFound with ⟨brighter, hBrighter, hLe⟩ | hStops
      · exact Or.inl ⟨brighter, by rw [hRun, hBrighter]; rfl, hLe⟩
      · exact Or.inr (hColorless hStops)
    · have hNonneg : ∀ light ∈ lights, Color.black ≤ light.color := fun light hLight => (hLights light hLight).2
      rcases le_directLight ambient hSurface hNonneg with ⟨emitted, color, hEmitted, hLe, hColor⟩ | hStops | hDark
      · exact Or.inl ⟨emitted, color, hEmitted, hLe, fun generator => by rw [hRun, hColor]; rfl⟩
      · exact Or.inr (Or.inl (hColorless hStops))
      · obtain ⟨fault, hEmission, hStops⟩ := hDark
        exact Or.inr (Or.inr ⟨fault, hEmission, fun generator => by rw [hRun, hStops]; rfl⟩)

/-- White walls with a blue glow. -/
noncomputable def whitewash : Material ℝ := ⟨.diffuse (.uniform Color.white) 1, .uniform ⟨0, 0, 1⟩⟩

/-- A floor through the middle of a dome. -/
noncomputable def dome : World ℝ := ⟨[⟨.plane, .identity, whitewash⟩, ⟨.sphere, .identity, whitewash⟩], []⟩

/-- A short ray inside the dome, straight down. -/
noncomputable def stooping : Ray ℝ := ⟨⟨0, 0, 0.5⟩, ⟨0, 0, -1⟩, ⟨0, .below 1⟩, 0⟩

/-- A light above the floor and inside the dome. -/
noncomputable def lamp : PointLight ℝ := ⟨⟨0, 0, 0.5⟩, ⟨1, 0, 0⟩, 0.25⟩

/-- A light outside of the dome. -/
noncomputable def moon : PointLight ℝ := ⟨⟨0, 0, 2.0⟩, Color.white, 0⟩

/-- A light below the floor. -/
noncomputable def well : PointLight ℝ := ⟨⟨0, 0, -0.5⟩, Color.white, 0⟩

theorem exists_hit_stooping : ∃ hit, dome.intersect? stooping = some hit ∧ hit.point = ⟨0, 0, 0⟩ ∧
    hit.material = whitewash ∧ hit.normal = ⟨0, 0, 1⟩ := by
  let floor : Shape ℝ := ⟨.plane, .identity, whitewash⟩
  let shell : Shape ℝ := ⟨.sphere, .identity, whitewash⟩
  have hFloorLocal : floor.localRay stooping = stooping := Ray.transform_identity _
  have hShellLocal : shell.localRay stooping = stooping := Ray.transform_identity _
  have hFloor : floor.parameter? stooping = some (1 / 2) := by
    rw [Shape.parameter?, hFloorLocal, Solid.parameter?, Solid.planeParameter?]
    norm_num [stooping, Scalar.abs, Interval.surrounds, UpperBound.exceeds]
  have hShell : shell.parameter? stooping = none := by
    rw [Shape.parameter?, hShellLocal]
    change Solid.sphereParameter? _ = _
    simp only [Solid.sphereParameter?, stooping, Vec.squaredNorm_exact, Vec.dot_exact, Point.toVec, Scalar.sqrt,
      Interval.surrounds, UpperBound.exceeds]
    norm_num [Scalar.sqrt_four]
  have hSeen : dome.intersect? stooping = some { floor.hitAt stooping (1 / 2) with
      normal := (floor.hitAt stooping (1 / 2)).normal.normalized } := by
    change World.intersect? ⟨[floor, shell], []⟩ stooping = _
    simp [World.intersect?, World.nearestHit?, Shape.intersect?, hFloor, hShell, World.nearer]
  have hPoint : stooping.pointAt (1 / 2) = ⟨0, 0, 0⟩ := by
    change (⟨0 + 0 * (1 / 2), 0 + 0 * (1 / 2), 0.5 + -1 * (1 / 2)⟩ : Point ℝ) = ⟨0, 0, 0⟩
    norm_num
  have hPlace : floor.transformation = .identity := rfl
  have hUp : Solid.planeNormal stooping.direction = ⟨0, 0, 1⟩ := by norm_num [Solid.planeNormal, stooping]
  have hUnit : (⟨0, 0, 1⟩ : Normal ℝ).normalized = ⟨0, 0, 1⟩ := by
    norm_num [Normal.normalized, Normal.norm, Normal.squaredNorm, Scalar.sqrt]
  refine ⟨_, hSeen, ?_, rfl, ?_⟩
  · simp only [Shape.hitAt, hFloorLocal, hPoint, hPlace, Transformation.applyPoint_identity]
  · change (floor.transformation.applyNormal (Solid.planeNormal (floor.localRay stooping).direction)).normalized = _
    rw [hPlace, hFloorLocal, hUp, Transformation.applyNormal_identity, hUnit]

/-- The dome stands before the moon. -/
theorem isVisible_moon : dome.isVisible moon.position ⟨0, 0, 0⟩ = false := by
  let shell : Shape ℝ := ⟨.sphere, .identity, whitewash⟩
  have hRoot : √(16 : ℝ) = 4 := by
    rw [show (16 : ℝ) = 4 ^ 2 by norm_num, Real.sqrt_sq four_pos.le]
  have hUp : moon.position - (⟨0, 0, 0⟩ : Point ℝ) = (⟨0, 0, 2⟩ : Vec ℝ) := by
    change (⟨0 - 0, 0 - 0, 2.0 - 0⟩ : Vec ℝ) = _
    norm_num
  have hSight : World.sightLine moon.position (⟨0, 0, 0⟩ : Point ℝ) =
      ⟨⟨0, 0, 0⟩, ⟨0, 0, 2⟩, ⟨1 / 200, .below 1⟩, 0⟩ := by
    rw [World.sightLine, hUp]
    norm_num [Vec.norm_exact, Vec.squaredNorm_exact, Scalar.sqrt_four]
  have hBlocked : shell.blocks (World.sightLine moon.position ⟨0, 0, 0⟩) = true := by
    have hLocal (ray : Ray ℝ) : shell.localRay ray = ray := Ray.transform_identity _
    rw [Shape.blocks, Shape.parameter?, hLocal, hSight]
    change (Solid.sphereParameter? _).isSome = true
    simp only [Solid.sphereParameter?, Vec.squaredNorm_exact, Vec.dot_exact, Point.toVec, Scalar.sqrt,
      Interval.surrounds, UpperBound.exceeds]
    norm_num [hRoot]
  rw [World.isVisible, Bool.not_eq_false', List.any_eq_true]
  exact ⟨shell, by simp [dome, shell], hBlocked⟩

/-- The lamp lights the floor of the dome, and neither the moon nor the light in the well changes that. -/
theorem radiance_pointLights_add_up_dome :
    ∃ hit, dome.intersect? stooping = some hit ∧ dome.isVisible moon.position hit.point = false ∧
      well.position ≠ hit.point ∧ hit.normal.dot (well.position - hit.point) ≤ 0 ∧
      (∀ shape ∈ dome.shapes, shape.material.reflection.Nonnegative) ∧
      lamp.position ≠ hit.point ∧ Color.black ≤ lamp.color ∧
      (pointLight Color.black defaultAmbient).radiance (dome.litBy [lamp, moon, well]) stooping =
        (pointLight Color.black defaultAmbient).radiance (dome.litBy [lamp]) stooping ∧
      ∃ color, defaultAmbient + ⟨0, 0, 1⟩ ≤ color ∧ ∀ generator,
        ((pointLight Color.black defaultAmbient).radiance (dome.litBy [lamp]) stooping).run generator =
          .ok (color, generator) := by
  obtain ⟨hit, hHit, hPoint, hMaterial, hNormal⟩ := exists_hit_stooping
  have hHidden : dome.isVisible moon.position hit.point = false := hPoint ▸ isVisible_moon
  have hBelow : hit.normal.dot (well.position - hit.point) ≤ 0 := by
    rw [hPoint, hNormal]
    change (0 : ℝ) * (0 - 0) + 0 * (0 - 0) + 1 * (-0.5 - 0) ≤ 0
    norm_num
  have hApart : well.position ≠ hit.point ∧ lamp.position ≠ hit.point := by
    rw [hPoint]
    norm_num [well, lamp]
  have hWhite : Color.black ≤ (Color.white : Color ℝ) := by
    rw [Color.black_le_iff, Color.white]
    norm_num
  have hSurfaces : ∀ shape ∈ dome.shapes, shape.material.reflection.Nonnegative := by
    have hWalls : whitewash.reflection.Nonnegative := by
      refine ⟨fun uv color hColor => Except.ok.inj hColor ▸ hWhite, fun pigment reflectance h => ?_⟩
      obtain ⟨-, rfl⟩ := Reflection.diffuse.inj h
      exact zero_le_one
    simpa [dome] using hWalls
  have hLamp : Color.black ≤ lamp.color := by
    rw [Color.black_le_iff, lamp]
    norm_num
  have hColored (fault : Fault) : hit.material.reflection.pigment.colorAt hit.uv ≠ .error fault := by
    rw [hMaterial]
    intro hNever
    cases hNever
  obtain ⟨hOrder, hLights⟩ := radiance_pointLights_add_up Color.black defaultAmbient dome stooping
  obtain ⟨hMoon, hWell, hNonneg⟩ := hLights hit hHit
  refine ⟨hit, hHit, hHidden, hApart.1, hBelow, hSurfaces, hApart.2, hLamp, ?_, ?_⟩
  · have hPerm : [lamp, moon, well].Perm [moon, well, lamp] := (List.perm_append_singleton lamp [moon, well]).symm
    rcases hWell well [lamp] hApart.1 hBelow with hSame | ⟨fault, hNone, -⟩
    · exact (hOrder _ _ hPerm).trans ((hMoon moon [well, lamp] hHidden).trans hSame)
    · exact absurd hNone (hColored fault)
  · rcases (hNonneg hSurfaces).2 [lamp] (List.forall_mem_singleton.mpr ⟨hApart.2, hLamp⟩) with
      ⟨emitted, color, hEmitted, hLe, hRun⟩ | ⟨fault, hNone, -⟩ | ⟨fault, hNone, -⟩
    · rw [hMaterial] at hEmitted
      obtain rfl := Except.ok.inj hEmitted
      exact ⟨color, hLe, hRun⟩
    · exact absurd hNone (hColored fault)
    · rw [hMaterial] at hNone
      cases hNone

end Renderer

end RayTracer
