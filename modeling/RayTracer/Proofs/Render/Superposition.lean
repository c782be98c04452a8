import Mathlib
import RayTracer.Proofs.Exact.Reals
import RayTracer.Proofs.Render.AlikePaths
import RayTracer.Proofs.Render.PathCompletion

/-! Superposition of light. Surfaces decide which numbers are drawn and where rays go, and what they emit
decides nothing. So runs in worlds of the same surfaces ask about the same rays, and over exact numbers the
light of emissions that add up adds up. -/

namespace RayTracer.PathTracer

variable {α : Type} [Scalar α] {lone : Prop}

section Pair

variable {one other : World α}

theorem together_path_pair (tracer : PathTracer α) (hSurfaces : one.unlit = other.unlit)
    (hEmission : lone ∨ one.Emits ∧ other.Emits) (ray : Ray α) :
    Sampling.Together lone (Path.Alike fun _ => True) fun i => tracer.path (![one, other] i) ray := by
  have hUnlit : ∀ i, (![one, other] i).unlit = other.unlit := Fin.forall_fin_two.mpr ⟨hSurfaces, rfl⟩
  refine together_path hUnlit (fun ray hits hHits => ?_) tracer ray
  rcases hEmission with hLone | ⟨hOne, hOther⟩
  · exact agree_of_lone hLone _
  · obtain ⟨first, hFirst⟩ := hOne ray _ (hHits 0)
    obtain ⟨second, hSecond⟩ := hOther ray _ (hHits 1)
    exact Or.inl ⟨![first, second], Fin.forall_fin_two.mpr ⟨hFirst, hSecond⟩, trivial⟩

/-- Runs that both end without a fault show the same. -/
theorem trace_eq_of_ok (tracer : PathTracer α) (hSurfaces : one.unlit = other.unlit) {ray : Ray α}
    {generator : Pcg} {shown shown' : List (Ray α) × Pcg}
    (h : tracer.trace one ray generator = .ok shown) (h' : tracer.trace other ray generator = .ok shown') :
    shown = shown' := by
  have hTogether : Sampling.Together True (Path.Alike fun _ => True)
      fun i => tracer.path (![one, other] i) ray :=
    together_path_pair tracer hSurfaces (Or.inl trivial) ray
  have hBoth : ∀ i, tracer.trace (![one, other] i) ray generator = .ok (![shown, shown'] i) :=
    Fin.forall_fin_two.mpr ⟨h, h'⟩
  rcases agree_trace hTogether generator with
    ⟨traces, hTraces, hSame⟩ | ⟨fault, hFault⟩ | ⟨-, i, fault, hFault⟩
  · have hFirst := Except.ok.inj ((hTraces 0).symm.trans h)
    have hSecond := Except.ok.inj ((hTraces 1).symm.trans h')
    rw [← hFirst, ← hSecond, hSame 0 1]
  · cases (hFault 0).symm.trans h
  · cases hFault.symm.trans (hBoth i)

/-- Where all emissions have colors, runs show the same also in stopping at a fault. -/
theorem trace_eq_of_emits (tracer : PathTracer α) (hSurfaces : one.unlit = other.unlit) (hOne : one.Emits)
    (hOther : other.Emits) (ray : Ray α) (generator : Pcg) :
    tracer.trace one ray generator = tracer.trace other ray generator := by
  have hTogether : Sampling.Together False (Path.Alike fun _ => True)
      fun i => tracer.path (![one, other] i) ray :=
    together_path_pair tracer hSurfaces (Or.inr ⟨hOne, hOther⟩) ray
  rcases agree_trace hTogether generator with ⟨traces, hTraces, hSame⟩ | ⟨fault, hFault⟩ | ⟨hNever, -⟩
  · exact (hTraces 0).trans ((congrArg Except.ok (hSame 0 1)).trans (hTraces 1).symm)
  · exact (hFault 0).trans (hFault 1).symm
  · exact hNever.elim

end Pair

/-- Three worlds of the same surfaces. Wherever a ray hits, the third emits what the first two emit
together. -/
structure Superposed (first second both : World ℝ) : Prop where
  first_unlit : first.unlit = both.unlit
  second_unlit : second.unlit = both.unlit
  emission : ∀ (ray : Ray ℝ) (a b c : Hit ℝ), first.intersect? ray = some a → second.intersect? ray = some b →
    both.intersect? ray = some c → ∃ x y, a.material.emission.colorAt a.uv = .ok x ∧
      b.material.emission.colorAt b.uv = .ok y ∧ c.material.emission.colorAt c.uv = .ok (x + y)

/-- The third of three colors is the sum of the others. -/
def LastIsSum (colors : Fin 3 → Color ℝ) : Prop := colors 2 = colors 0 + colors 1

/-- That the last color is the sum of the others is a linear relation. -/
theorem linear_lastIsSum : Path.Linear LastIsSum where
  black := by
    rw [LastIsSum, Color.black_exact, Color.add_exact]
    simp only [add_zero]
  add {a b} ha hb := by
    change a 2 + b 2 = (a 0 + b 0) + (a 1 + b 1)
    rw [ha, hb]
    simp only [Color.add_exact]
    ext <;> ring
  weigh weight {a} ha := by
    change weight * a 2 = weight * a 0 + weight * a 1
    rw [ha]
    simp only [Color.add_exact, Color.mul_exact]
    ext <;> ring
  scale factor {a} ha := by
    change a 2 * factor = a 0 * factor + a 1 * factor
    rw [ha]
    simp only [Color.add_exact, Color.mul_scalar_exact]
    ext <;> ring

/-- The three worlds differ only in what they emit. -/
theorem Superposed.unlit_eq {first second both : World ℝ} (h : Superposed first second both) :
    ∀ i, (![first, second, both] i).unlit = both.unlit := by
  intro i
  fin_cases i
  · exact h.first_unlit
  · exact h.second_unlit
  · rfl

theorem Superposed.emits {first second both : World ℝ} (h : Superposed first second both) : both.Emits := by
  intro ray hit hHit
  have hSeen : both.unlit.intersect? ray = some hit.unlit := by rw [World.intersect?_unlit, hHit]; rfl
  obtain ⟨emissions, hHits⟩ := World.exists_emissions_of_unlit h.unlit_eq hSeen
  obtain ⟨x, y, -, -, hSum⟩ := h.emission ray _ _ hit (hHits 0) (hHits 1) hHit
  exact ⟨x + y, hSum⟩

/-- The three paths go the same way, and what the third one emits is the sum. -/
theorem Superposed.together_path {first second both : World ℝ} (h : Superposed first second both)
    (tracer : PathTracer ℝ) (ray : Ray ℝ) :
    Sampling.Together False (Path.Alike LastIsSum)
      fun i => tracer.path (![first, second, both] i) ray := by
  refine PathTracer.together_path h.unlit_eq (fun ray hits hHits => ?_) tracer ray
  obtain ⟨x, y, hFirst, hSecond, hBoth⟩ := h.emission ray _ _ _ (hHits 0) (hHits 1) (hHits 2)
  refine Or.inl ⟨![x, y, x + y], fun i => ?_, rfl⟩
  fin_cases i
  · exact hFirst
  · exact hSecond
  · exact hBoth

/-- The light of the third world is the sum of that of the others. -/
theorem Superposed.radiance_eq_add {first second both : World ℝ} (h : Superposed first second both)
    (tracer : PathTracer ℝ) (background background' : Color ℝ) (ray : Ray ℝ) (generator : Pcg) :
    (∃ x y rest, ((tracer.withBackground background).radiance first ray).run generator = .ok (x, rest) ∧
        ((tracer.withBackground background').radiance second ray).run generator = .ok (y, rest) ∧
        ((tracer.withBackground (background + background')).radiance both ray).run generator =
          .ok (x + y, rest)) ∨
      ¬(both.Reflects ∧ tracer.maxDepth < depthLimit) ∧ ∃ fault,
        ((tracer.withBackground background).radiance first ray).run generator = .error fault ∧
        ((tracer.withBackground background').radiance second ray).run generator = .error fault ∧
        ((tracer.withBackground (background + background')).radiance both ray).run generator =
          .error fault := by
  have hBackgrounds : LastIsSum ![background, background', background + background'] := rfl
  have hRuns := agree_radiance (h.together_path tracer ray) linear_lastIsSum hBackgrounds generator
  rcases hRuns with ⟨results, hResults, ⟨rest, hRest⟩, hSum⟩ | ⟨fault, hFault⟩ | ⟨hNever, -⟩
  · have hResult (i : Fin 3) :
        (.ok (results i) : Except Fault (Color ℝ × Pcg)) = .ok ((results i).1, rest) := by
      rw [← hRest i]
    refine Or.inl ⟨(results 0).1, (results 1).1, rest, (hResults 0).trans (hResult 0),
      (hResults 1).trans (hResult 1), ?_⟩
    rw [← hSum]
    exact (hResults 2).trans (hResult 2)
  · refine Or.inr ⟨?_, fault, hFault 0, hFault 1, hFault 2⟩
    rintro ⟨hReflects, hLimit⟩
    obtain ⟨path, rest, hRun, -⟩ := gives_path_of_colors tracer hReflects h.emits hLimit ray generator
    have hBoth : ((tracer.withBackground (background + background')).radiance both ray).run generator =
        .error fault := hFault 2
    rw [run_radiance, path_withBackground] at hBoth
    cases (congrArg (Except.map _) hRun).symm.trans hBoth
  · exact hNever.elim

/-- Superposition. Where surfaces emit together what they emit in two other worlds, and the background is the
sum of theirs, the light along a ray is the sum of the light along it in these worlds; a run can only stop at
a fault, in all three worlds at once, if a pigment has no color or depths grow too large to count. Exact
numbers are needed for the sums alone. Whatever is emitted, in any two worlds of the same surfaces the same
rays are asked about and the same generator is left, unless one of them has no emission where a ray hits. -/
theorem radiance_superposition :
    (∀ (tracer : PathTracer ℝ) (background background' : Color ℝ) (first second both : World ℝ),
      Superposed first second both → ∀ (ray : Ray ℝ) (generator : Pcg),
        (∃ x y rest,
          ((tracer.withBackground background).radiance first ray).run generator = .ok (x, rest) ∧
          ((tracer.withBackground background').radiance second ray).run generator = .ok (y, rest) ∧
          ((tracer.withBackground (background + background')).radiance both ray).run generator =
            .ok (x + y, rest)) ∨
        ¬(both.Reflects ∧ tracer.maxDepth < depthLimit) ∧ ∃ fault,
          ((tracer.withBackground background).radiance first ray).run generator = .error fault ∧
          ((tracer.withBackground background').radiance second ray).run generator = .error fault ∧
          ((tracer.withBackground (background + background')).radiance both ray).run generator =
            .error fault) ∧
    ∀ {α : Type} [Scalar α] (tracer : PathTracer α) (background background' : Color α)
      (one other : World α), one.unlit = other.unlit → ∀ (ray : Ray α) (generator : Pcg),
        (∀ shown shown', (tracer.withBackground background).trace one ray generator = .ok shown →
          (tracer.withBackground background').trace other ray generator = .ok shown' → shown = shown') ∧
        (one.Emits → other.Emits → (tracer.withBackground background).trace one ray generator =
          (tracer.withBackground background').trace other ray generator) ∧
        (((tracer.withBackground background).radiance one ray).run generator).map Prod.snd =
          ((tracer.withBackground background).trace one ray generator).map Prod.snd := by
  refine ⟨fun tracer background background' first second both hSuperposed ray generator =>
    hSuperposed.radiance_eq_add tracer background background' ray generator, ?_⟩
  intro α _ tracer background background' one other hSurfaces ray generator
  refine ⟨fun shown shown' hShown hShown' => ?_, fun hOne hOther => ?_, ?_⟩
  · rw [trace_withBackground] at hShown hShown'
    exact trace_eq_of_ok tracer hSurfaces hShown hShown'
  · rw [trace_withBackground, trace_withBackground]
    exact trace_eq_of_emits tracer hSurfaces hOne hOther ray generator
  · exact map_snd_radiance (tracer.withBackground background) one ray generator

/-- A grey sphere, alone, with an emission. -/
def lantern (emission : Pigment α) : World α :=
  ⟨[⟨.sphere, .identity, ⟨.diffuse (.uniform ⟨0.5, 0.5, 0.5⟩) 1.0, emission⟩⟩], []⟩

/-- A ray that looks at the lantern from above. -/
def downwards : Ray α := ⟨⟨0.0, 0.0, 3.0⟩, ⟨0.0, 0.0, -1.0⟩, ⟨1e-3, .unbounded⟩, 0⟩

/-- Two rays are scattered at each hit, and chance may end a path from the first hit on. -/
def forked : PathTracer α := ⟨Color.black, 2, 3, 0⟩

theorem unlit_lantern (emission emission' : Pigment α) :
    (lantern emission).unlit = (lantern emission').unlit := rfl

theorem material_of_lantern {emission : Pigment α} {ray : Ray α} {hit : Hit α}
    (h : (lantern emission).intersect? ray = some hit) :
    hit.material = ⟨.diffuse (.uniform ⟨0.5, 0.5, 0.5⟩) 1.0, emission⟩ := by
  obtain ⟨shape, hShape, hMaterial⟩ := World.exists_material_of_intersect? h
  rw [hMaterial, List.mem_singleton.mp hShape]

theorem reflects_lantern (emission : Pigment α) : (lantern emission).Reflects := by
  intro ray hit hHit
  rw [material_of_lantern hHit]
  exact ⟨_, rfl⟩

theorem emits_lantern (color color' : Color α) (steps : ℕ) :
    (lantern (.checkered color color' steps)).Emits := by
  intro ray hit hHit
  rw [material_of_lantern hHit]
  exact ⟨_, rfl⟩

theorem superposed_lanterns :
    Superposed (lantern (.uniform ⟨1, 0, 0⟩)) (lantern (.checkered ⟨0, 1, 0⟩ ⟨0, 0, 1⟩ 4))
      (lantern (.checkered ⟨1, 1, 0⟩ ⟨1, 0, 1⟩ 4)) := by
  refine ⟨rfl, rfl, fun ray a b c ha hb hc => ?_⟩
  have hPlace : b.uv = c.uv := by
    have hSame := World.unlit_eq_of_intersect? (unlit_lantern _ _) hb hc
    have hUnlit : b.unlit.uv = c.unlit.uv := congrArg Hit.uv hSame
    exact hUnlit
  rw [material_of_lantern ha, material_of_lantern hb, material_of_lantern hc, hPlace]
  refine ⟨_, _, rfl, rfl, congrArg Except.ok ?_⟩
  split <;> norm_num [Color.add_exact]

/-- A lantern of one color and a chequered one, before a white and a black sky, and both at once. Paths fork
and may end at random. In binary64 two chequered lanterns make the runs show the same. -/
theorem radiance_superposition_lanterns :
    (∀ generator : Pcg, ∃ x y rest,
      (((forked : PathTracer ℝ).withBackground Color.white).radiance (lantern (.uniform ⟨1, 0, 0⟩))
        downwards).run generator = .ok (x, rest) ∧
      ((forked.withBackground Color.black).radiance (lantern (.checkered ⟨0, 1, 0⟩ ⟨0, 0, 1⟩ 4))
        downwards).run generator = .ok (y, rest) ∧
      ((forked.withBackground (Color.white + Color.black)).radiance
        (lantern (.checkered ⟨1, 1, 0⟩ ⟨1, 0, 1⟩ 4)) downwards).run generator = .ok (x + y, rest)) ∧
    ∀ generator : Pcg,
      ((forked : PathTracer Float).withBackground Color.white).trace
          (lantern (.checkered ⟨0.0, 1.0, 0.0⟩ ⟨0.0, 0.0, 1.0⟩ 4)) downwards generator =
        (forked.withBackground Color.black).trace
          (lantern (.checkered ⟨1.0, 1.0, 0.0⟩ ⟨1.0, 0.0, 1.0⟩ 4)) downwards generator := by
  constructor
  · intro generator
    have hReflects := reflects_lantern (.checkered (⟨1, 1, 0⟩ : Color ℝ) ⟨1, 0, 1⟩ 4)
    have hLimit : (forked : PathTracer ℝ).maxDepth < depthLimit := by decide
    rcases radiance_superposition.1 forked Color.white Color.black _ _ _ superposed_lanterns downwards
      generator with hSum | ⟨hNever, -⟩
    · exact hSum
    · exact absurd ⟨hReflects, hLimit⟩ hNever
  · intro generator
    have hSurfaces := unlit_lantern (.checkered (⟨0.0, 1.0, 0.0⟩ : Color Float) ⟨0.0, 0.0, 1.0⟩ 4)
      (.checkered ⟨1.0, 1.0, 0.0⟩ ⟨1.0, 0.0, 1.0⟩ 4)
    exact (radiance_superposition.2 forked Color.white Color.black _ _ hSurfaces downwards generator).2.1
      (emits_lantern _ _ _) (emits_lantern _ _ _)

end RayTracer.PathTracer
