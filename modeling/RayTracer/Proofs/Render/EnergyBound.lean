import Mathlib
import RayTracer.Proofs.Render.Superposition

/-! How much light can arrive, over exact numbers. Where no surface reflects more than it receives, every bounce
adds at most what a surface emits. A path that could have ended at random is weighted up, by at most one part in
nineteen: bright surfaces let paths end with a probability of one part in twenty, and darker ones lose at least
as much light as the weight adds. -/

namespace RayTracer

open scoped BigOperators

/-- All channels lie between zero and a bound. -/
def Color.Within (bound : ℝ) (color : Color ℝ) : Prop :=
  color.r ∈ Set.Icc 0 bound ∧ color.g ∈ Set.Icc 0 bound ∧ color.b ∈ Set.Icc 0 bound

namespace Color

variable {a b : Color ℝ} {s t : ℝ}

theorem within_black : (black : Color ℝ).Within 0 := by
  rw [black_exact]
  exact ⟨⟨le_rfl, le_rfl⟩, ⟨le_rfl, le_rfl⟩, ⟨le_rfl, le_rfl⟩⟩

theorem Within.bound_nonneg (h : a.Within s) : 0 ≤ s := h.1.1.trans h.1.2

theorem Within.black_le (h : a.Within s) : black ≤ a := black_le_iff.mpr ⟨h.1.1, h.2.1.1, h.2.2.1⟩

theorem Within.mono (h : a.Within s) (hBound : s ≤ t) : a.Within t :=
  ⟨⟨h.1.1, h.1.2.trans hBound⟩, ⟨h.2.1.1, h.2.1.2.trans hBound⟩, ⟨h.2.2.1, h.2.2.2.trans hBound⟩⟩

/-- Bounds of a sum add up. -/
theorem Within.add (ha : a.Within s) (hb : b.Within t) : (a + b).Within (s + t) := by
  have hChannel {x y : ℝ} (hx : x ∈ Set.Icc 0 s) (hy : y ∈ Set.Icc 0 t) : x + y ∈ Set.Icc 0 (s + t) :=
    ⟨add_nonneg hx.1 hy.1, add_le_add hx.2 hy.2⟩
  exact ⟨hChannel ha.1 hb.1, hChannel ha.2.1 hb.2.1, hChannel ha.2.2 hb.2.2⟩

theorem Within.mul (ha : a.Within s) (hb : b.Within t) : (a * b).Within (s * t) := by
  have hChannel {x y : ℝ} (hx : x ∈ Set.Icc 0 s) (hy : y ∈ Set.Icc 0 t) : x * y ∈ Set.Icc 0 (s * t) :=
    ⟨mul_nonneg hx.1 hy.1, mul_le_mul hx.2 hy.2 hy.1 (hx.1.trans hx.2)⟩
  exact ⟨hChannel ha.1 hb.1, hChannel ha.2.1 hb.2.1, hChannel ha.2.2 hb.2.2⟩

theorem Within.scale (ha : a.Within s) {k : ℝ} (hk : 0 ≤ k) : (a * k).Within (s * k) := by
  have hChannel {x : ℝ} (hx : x ∈ Set.Icc 0 s) : x * k ∈ Set.Icc 0 (s * k) :=
    ⟨mul_nonneg hx.1 hk, mul_le_mul_of_nonneg_right hx.2 hk⟩
  exact ⟨hChannel ha.1, hChannel ha.2.1, hChannel ha.2.2⟩

end Color

/-- No surface reflects more than it receives, and none emits more than a bound. -/
structure World.Bounded (world : World ℝ) (emission : ℝ) : Prop where
  reflects : ∀ shape ∈ world.shapes, ∀ uv color,
    shape.material.reflection.pigment.colorAt uv = .ok color → color.Within 1
  emits : ∀ shape ∈ world.shapes, ∀ uv color, shape.material.emission.colorAt uv = .ok color →
    color.Within emission

namespace PathTracer

section Light

variable {background : Color ℝ} {fanOut : ℕ} {weight : Color ℝ} {w bound : ℝ} {branches : List (Path ℝ)}

/-- Each branch adds at most its weight times its bound. -/
theorem within_addLight (hWeight : weight.Within w)
    (hBranches : ∀ branch ∈ branches, (branch.light background fanOut).Within bound) {sum : Color ℝ} {s : ℝ}
    (hSum : sum.Within s) :
    (Path.addLight background fanOut weight branches sum).Within (s + branches.length * (w * bound)) := by
  induction branches generalizing sum s with
  | nil => simpa [Path.addLight] using hSum
  | cons branch branches ih =>
      obtain ⟨hFirst, hRest⟩ := List.forall_mem_cons.mp hBranches
      have hNext := ih hRest (hSum.add (hWeight.mul hFirst))
      refine hNext.mono (le_of_eq ?_)
      rw [List.length_cons]
      push_cast
      ring

/-- A hit adds to what it emits at most the weighted light of a branch, whatever their number. -/
theorem within_light_scattered (hit : Hit ℝ) {emitted : Color ℝ} {e : ℝ} (hEmitted : emitted.Within e)
    (hWeight : weight.Within w) (hBound : 0 ≤ bound) (hFanOut : 0 < fanOut)
    (hLength : branches.length ≤ fanOut)
    (hBranches : ∀ branch ∈ branches, (branch.light background fanOut).Within bound) :
    ((Path.scattered hit emitted weight branches).light background fanOut).Within (e + w * bound) := by
  have hCount : (0 : ℝ) < fanOut := Nat.cast_pos.mpr hFanOut
  have hShare : (1.0 / Scalar.ofNat fanOut : ℝ) = 1 / fanOut := by
    change (1.0 / (fanOut : ℝ)) = _
    norm_num
  have hTotal : branches.length * (w * bound) ≤ fanOut * (w * bound) :=
    mul_le_mul_of_nonneg_right (Nat.cast_le.mpr hLength) (mul_nonneg hWeight.bound_nonneg hBound)
  have hAverage : (0 + branches.length * (w * bound)) * (1 / fanOut) ≤ w * bound := by
    rw [zero_add, mul_one_div, div_le_iff₀ hCount, mul_comm (w * bound)]
    exact hTotal
  have hSum := (within_addLight hWeight hBranches Color.within_black).scale (one_div_nonneg.mpr hCount.le)
  rw [Path.light, hShare]
  exact hEmitted.add (hSum.mono hAverage)

end Light

/-- Over exact numbers, a path ends with the probability that brightness lacks, but not below a twentieth. -/
theorem endingProbability_exact (brightness : ℝ) : endingProbability brightness = max (1 / 20) (1 - brightness) := by
  change max (1.0 - brightness) 0.05 = _
  rw [max_comm]
  norm_num

theorem survivorWeight_exact (ending : ℝ) : survivorWeight ending = 1 / (1 - ending) := by
  rw [survivorWeight]
  norm_num

/-- A path that chance spares had less than a full chance to end, and goes on with at most twenty nineteenths
of the light. -/
theorem within_of_spared {color : Color ℝ} (hColor : color.Within 1) {drawn : ℝ} (hDrawn : drawn ≤ 1)
    (hSpared : endingProbability color.maxComponent < drawn) :
    0 < 1 - endingProbability color.maxComponent ∧
      (color * survivorWeight (endingProbability color.maxComponent)).Within (20 / 19) := by
  have hEnding := endingProbability_exact color.maxComponent
  generalize endingProbability color.maxComponent = ending at hEnding hSpared ⊢
  have hSurvives : 0 < 1 - ending := by linarith
  -- A dark channel is no greater than the chance to go on; a bright one is at most one, against nineteen
  -- parts in twenty.
  have hChannel {x : ℝ} (hx : x ∈ Set.Icc 0 1) (hBrightest : x ≤ color.maxComponent) :
      x * survivorWeight ending ∈ Set.Icc 0 (20 / 19) := by
    have hShare : x ≤ 20 / 19 * (1 - ending) := by
      rcases max_choice (1 / 20) (1 - color.maxComponent) with hBright | hDark
      · rw [hEnding, hBright]
        linarith [hx.2]
      · rw [hEnding, hDark]
        linarith [hx.1]
    rw [survivorWeight_exact, mul_one_div]
    exact ⟨div_nonneg hx.1 hSurvives.le, (div_le_iff₀ hSurvives).mpr hShare⟩
  refine ⟨hSurvives, hChannel hColor.1 ?_, hChannel hColor.2.1 ?_, hChannel hColor.2.2 ?_⟩
  · exact (le_max_left _ _).trans (le_max_left _ _)
  · exact (le_max_right _ _).trans (le_max_left _ _)
  · exact le_max_right _ _

/-- A path goes on with the pigment as it is, or is spared by a number that was drawn and weighted up. -/
theorem onlyGives_continuation (tracer : PathTracer ℝ) (depth : ℕ) (color : Color ℝ) :
    Sampling.OnlyGives (tracer.continuation depth color) fun choice => ∀ weight, choice = some weight →
      weight = color ∨ ∃ drawn ≤ 1, endingProbability color.maxComponent < drawn ∧
        weight = color * survivorWeight (endingProbability color.maxComponent) := by
  unfold continuation
  split
  next => exact Sampling.onlyGives_pure fun weight hWeight => Or.inl (Option.some.inj hWeight).symm
  next =>
      refine Sampling.onlyGives_sampleUnit.bind fun drawn hDrawn => ?_
      split
      next hSpared =>
          exact Sampling.onlyGives_pure fun weight hWeight =>
            Or.inr ⟨drawn, hDrawn.2, hSpared, (Option.some.inj hWeight).symm⟩
      next => exact Sampling.onlyGives_pure fun weight hWeight => by cases hWeight

/-- Whether paths may end at random or not, what goes on from a surface is weighted by at most twenty
nineteenths. -/
theorem onlyGives_continuation_within (tracer : PathTracer ℝ) (depth : ℕ) {color : Color ℝ}
    (hColor : color.Within 1) :
    Sampling.OnlyGives (tracer.continuation depth color)
      fun choice => ∀ weight, choice = some weight → weight.Within (20 / 19) := by
  refine (onlyGives_continuation tracer depth color).mono fun choice hChoice weight hWeight => ?_
  rcases hChoice weight hWeight with rfl | ⟨drawn, hDrawn, hSpared, rfl⟩
  · exact hColor.mono (by norm_num)
  · exact (within_of_spared hColor hDrawn hSpared).2

/-- The most light that can arrive after a number of hits. -/
noncomputable def lightBound (emission background : ℝ) (hits : ℕ) : ℝ :=
  (emission + background) * ∑ k ∈ Finset.range hits, (20 / 19) ^ k

theorem lightBound_nonneg {emission background : ℝ} (hEmission : 0 ≤ emission) (hBackground : 0 ≤ background)
    (hits : ℕ) : 0 ≤ lightBound emission background hits :=
  mul_nonneg (add_nonneg hEmission hBackground) (Finset.sum_nonneg fun _ _ => by positivity)

/-- One more hit leaves room for all of the background and for one more emission. -/
theorem add_lightBound (emission background : ℝ) (hits : ℕ) :
    emission + 20 / 19 * lightBound emission background hits + background =
      lightBound emission background (hits + 1) := by
  rw [lightBound, lightBound, geom_sum_succ]
  ring

variable {tracer : PathTracer ℝ} {world : World ℝ} {emission background : ℝ}

/-- One bounce: if what follows along a branch is bounded, then so is the light of the hit. -/
theorem onlyGives_goOn {follow : Ray ℝ → Sampling (Path ℝ)} {hit : Hit ℝ} {bound : ℝ}
    (hFanOut : 0 < tracer.fanOut) (hBound : 0 ≤ bound)
    (hReflects : ∀ color, hit.material.reflection.pigment.colorAt hit.uv = .ok color → color.Within 1)
    (hEmits : ∀ color, hit.material.emission.colorAt hit.uv = .ok color → color.Within emission)
    (hBranch : Sampling.OnlyGives (branch follow hit)
      fun path => (path.light tracer.background tracer.fanOut).Within bound) :
    Sampling.OnlyGives (tracer.goOn follow hit)
      fun path => (path.light tracer.background tracer.fanOut).Within (emission + 20 / 19 * bound) := by
  unfold goOn
  refine (Sampling.onlyGives_lift hReflects).bind fun color hColor => ?_
  refine (Sampling.onlyGives_lift hEmits).bind fun emitted hEmitted => ?_
  refine (onlyGives_continuation_within tracer _ hColor).bind fun choice hChoice => ?_
  cases choice with
  | none =>
      refine Sampling.onlyGives_pure ?_
      rw [Path.light]
      exact hEmitted.mono (le_add_of_nonneg_right (by positivity))
  | some weight =>
      refine (hBranch.mapM_replicate _).bind fun paths hPaths => Sampling.onlyGives_pure ?_
      have hLength : paths.length ≤ tracer.fanOut := by
        rw [hPaths.1]
        split
        · exact le_rfl
        · exact Nat.zero_le _
      exact within_light_scattered hit hEmitted (hChoice weight rfl) hBound hFanOut hLength hPaths.2

/-- A run. Each ray that is still followed adds one term to the bound. -/
theorem onlyGives_follow (hWorld : world.Bounded emission) (hEmission : 0 ≤ emission)
    (hBackground : tracer.background.Within background) (hFanOut : 0 < tracer.fanOut) (remaining : ℕ)
    (ray : Ray ℝ) :
    Sampling.OnlyGives (tracer.follow world remaining ray) fun path =>
      (path.light tracer.background tracer.fanOut).Within (lightBound emission background remaining) := by
  induction remaining generalizing ray with
  | zero =>
      refine Sampling.onlyGives_pure ?_
      rw [Path.light, lightBound, Finset.sum_range_zero, mul_zero]
      exact Color.within_black
  | succ remaining ih =>
      have hRest := lightBound_nonneg hEmission hBackground.bound_nonneg remaining
      rw [← add_lightBound]
      cases hSeen : world.intersect? ray with
      | none =>
          simp only [follow, hSeen]
          refine Sampling.onlyGives_pure ?_
          rw [Path.light]
          exact hBackground.mono (le_add_of_nonneg_left (by positivity))
      | some hit =>
          obtain ⟨shape, hShape, hMaterial⟩ := World.exists_material_of_intersect? hSeen
          have hBranch : Sampling.OnlyGives (branch (tracer.follow world remaining) hit) fun path =>
              (path.light tracer.background tracer.fanOut).Within
                (lightBound emission background remaining) := by
            unfold branch
            exact (Sampling.onlyGives_trivial _).bind fun depth _ =>
              (Sampling.onlyGives_trivial _).bind fun scattered _ => ih scattered
          have hGoOn := onlyGives_goOn hFanOut hRest (hMaterial ▸ hWorld.reflects shape hShape hit.uv)
            (hMaterial ▸ hWorld.emits shape hShape hit.uv) hBranch
          simp only [follow, hSeen]
          exact hGoOn.mono fun path hPath =>
            hPath.mono (le_add_of_nonneg_right hBackground.bound_nonneg)

/-- The energy bound. Where surfaces reflect at most what they receive, emit at most so much, and stand before
a background of at most so much, every channel of the light along a ray lies between zero and the sum of both,
multiplied by a geometric sum with one term for every bounce that the depth limit leaves. Beyond that limit the
light is black. Chance may end paths from any depth on: a path that is spared never divides by zero. A run only
stops at a fault where a surface has no color or depths grow too large to count. -/
theorem radiance_bounded (tracer : PathTracer ℝ) {world : World ℝ} {emission background : ℝ}
    (hEmission : 0 ≤ emission) (hWorld : world.Bounded emission)
    (hBackground : tracer.background.Within background) (hFanOut : 0 < tracer.fanOut) (ray : Ray ℝ)
    (generator : Pcg) :
    (tracer.maxDepth < ray.depth →
      (tracer.radiance world ray).run generator = .ok (⟨0, 0, 0⟩, generator)) ∧
    (ray.depth ≤ tracer.maxDepth →
      (∃ color rest, (tracer.radiance world ray).run generator = .ok (color, rest) ∧
        ∀ channel ∈ [color.r, color.g, color.b], 0 ≤ channel ∧ channel ≤ (emission + background) *
          ∑ k ∈ Finset.range (tracer.maxDepth - ray.depth + 1), (20 / 19) ^ k) ∨
      ¬(world.Reflects ∧ world.Emits ∧ tracer.maxDepth < depthLimit) ∧
        ∃ fault, (tracer.radiance world ray).run generator = .error fault) ∧
    ∀ (color : Color ℝ) (word : UInt32), color.Within 1 →
      endingProbability color.maxComponent < Pcg.unitOf word →
        0 < 1 - endingProbability color.maxComponent := by
  refine ⟨fun hBeyond => ?_, fun hDepth => ?_, fun color word hColor hSpared =>
    (within_of_spared hColor (Sampling.unitOf_mem_Icc word).2 hSpared).1⟩
  · have hNone : tracer.maxDepth + 1 - ray.depth = 0 := by omega
    rw [run_radiance, path, hNone, ← Color.black_exact]
    rfl
  · have hRemaining : tracer.maxDepth + 1 - ray.depth = tracer.maxDepth - ray.depth + 1 := by omega
    have hBounded := onlyGives_follow hWorld hEmission hBackground hFanOut (tracer.maxDepth + 1 - ray.depth) ray
    rw [run_radiance]
    cases hRun : (tracer.path world ray).run generator with
    | ok outcome =>
        obtain ⟨hRed, hGreen, hBlue⟩ := hBounded generator outcome.1 outcome.2 hRun
        rw [hRemaining] at hRed hGreen hBlue
        refine Or.inl ⟨_, _, rfl, ?_⟩
        simp only [List.mem_cons, List.not_mem_nil, or_false, forall_eq_or_imp, forall_eq]
        exact ⟨hRed, hGreen, hBlue⟩
    | error fault =>
        refine Or.inr ⟨?_, fault, rfl⟩
        rintro ⟨hReflects, hEmits, hLimit⟩
        obtain ⟨path, rest, hPath, -⟩ := gives_path_of_colors tracer hReflects hEmits hLimit ray generator
        rw [hPath] at hRun
        cases hRun

theorem bounded_lantern : (lantern (.checkered (⟨1, 0, 0⟩ : Color ℝ) ⟨0, 0, 1⟩ 4)).Bounded 1 := by
  have hUnit : (0 : ℝ) ∈ Set.Icc 0 1 ∧ (1 : ℝ) ∈ Set.Icc 0 1 := by norm_num
  constructor
  · intro shape hShape uv color hColor
    obtain rfl := List.mem_singleton.mp hShape
    obtain rfl := Except.ok.inj hColor
    norm_num [Color.Within]
  · intro shape hShape uv color hColor
    obtain rfl := List.mem_singleton.mp hShape
    obtain rfl := Except.ok.inj hColor
    split
    · exact ⟨hUnit.2, hUnit.1, hUnit.1⟩
    · exact ⟨hUnit.1, hUnit.1, hUnit.2⟩

/-- A grey lantern with a chequered glow before a black sky, with forking paths that may end at every hit: no
more light arrives than the sum of four powers. -/
theorem radiance_bounded_lantern :
    (lantern (.checkered (⟨1, 0, 0⟩ : Color ℝ) ⟨0, 0, 1⟩ 4)).Bounded 1 ∧
      (forked : PathTracer ℝ).background.Within 0 ∧ 0 < (forked : PathTracer ℝ).fanOut ∧
      ∀ generator : Pcg, ∃ color rest, ((forked : PathTracer ℝ).radiance
          (lantern (.checkered ⟨1, 0, 0⟩ ⟨0, 0, 1⟩ 4)) downwards).run generator = .ok (color, rest) ∧
        ∀ channel ∈ [color.r, color.g, color.b], 0 ≤ channel ∧
          channel ≤ 1 + 20 / 19 + (20 / 19) ^ 2 + (20 / 19) ^ 3 := by
  have hFanOut : 0 < (forked : PathTracer ℝ).fanOut := by decide
  have hBackground : (forked : PathTracer ℝ).background.Within 0 := Color.within_black
  have hLimit : (forked : PathTracer ℝ).maxDepth < depthLimit := by decide
  refine ⟨bounded_lantern, hBackground, hFanOut, fun generator => ?_⟩
  have hBound := (radiance_bounded forked zero_le_one bounded_lantern hBackground hFanOut downwards
    generator).2.1 (Nat.zero_le 3)
  rcases hBound with ⟨color, rest, hRun, hChannels⟩ | ⟨hNever, -⟩
  · refine ⟨color, rest, hRun, fun channel hMem => ?_⟩
    obtain ⟨hBelow, hAbove⟩ := hChannels channel hMem
    refine ⟨hBelow, hAbove.trans (le_of_eq ?_)⟩
    change (1 + 0) * ∑ k ∈ Finset.range (3 - 0 + 1), (20 / 19 : ℝ) ^ k = _
    simp only [Finset.sum_range_succ, Finset.sum_range_zero]
    norm_num
  · exact absurd ⟨reflects_lantern _, emits_lantern _ _ _, hLimit⟩ hNever

end PathTracer

end RayTracer
