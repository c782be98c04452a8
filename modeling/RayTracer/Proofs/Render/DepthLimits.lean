import Mathlib
import RayTracer.Proofs.Render.EnergyBound

/-! Depth limits of paths that do not fork. A path that is cut by a depth limit goes on under a greater one, and
up to the cut nothing changes: the same numbers are drawn, so chance decides alike and rays go the same way.
Over exact numbers, where no surface and no background takes light away, a greater limit only adds light. -/

namespace RayTracer

variable {α β γ : Type}

namespace Sampling

/-- Whenever the second computation gives a result, the first one gives one from the same generator, and the
two are related. Nothing is said about the generators that are left. -/
def Shadows (R : β → β → Prop) (first second : Sampling β) : Prop :=
  ∀ generator result rest, second.run generator = .ok (result, rest) →
    ∃ result' rest', first.run generator = .ok (result', rest') ∧ R result' result

/-- A result that is there already needs no run. -/
theorem shadows_pure {R : β → β → Prop} {result : β} {second : Sampling β} (h : second.OnlyGives (R result)) :
    Shadows R (pure result) second :=
  fun generator result' rest hRun => ⟨result, generator, rfl, h generator result' rest hRun⟩

/-- Both begin with the same step, and so go on from the same generator. -/
theorem Shadows.bind {R : γ → γ → Prop} (action : Sampling β) {first second : β → Sampling γ}
    (h : ∀ result, Shadows R (first result) (second result)) : Shadows R (action >>= first) (action >>= second) := by
  intro generator final last hRun
  obtain ⟨result, rest, hAction, hNext⟩ := exists_of_run_bind hRun
  obtain ⟨final', last', hFirst, hRelated⟩ := h result rest final last hNext
  exact ⟨final', last', (run_bind_of_ok hAction).trans hFirst, hRelated⟩

theorem Shadows.map {R : β → β → Prop} {S : γ → γ → Prop} {first second : Sampling β} {f : β → γ}
    (h : Shadows R first second) (hKept : ∀ a b, R a b → S (f a) (f b)) : Shadows S (f <$> first) (f <$> second) := by
  intro generator final last hRun
  rw [map_eq_pure_bind] at hRun ⊢
  obtain ⟨result, rest, hSecond, hFinal⟩ := exists_of_run_bind hRun
  obtain ⟨rfl, rfl⟩ := Prod.mk.inj (Except.ok.inj hFinal)
  obtain ⟨result', rest', hFirst, hRelated⟩ := h generator result rest hSecond
  exact ⟨f result', rest', run_bind_of_ok hFirst, hKept result' result hRelated⟩

end Sampling

/-- A path that was cut, and one that goes the same way and goes on where the first one was cut. -/
inductive Path.IsCutOf : Path α → Path α → Prop where
  | cut (ray : Ray α) (path : Path α) : IsCutOf (.cut ray) path
  | missed (ray : Ray α) : IsCutOf (.missed ray) (.missed ray)
  | ended (hit : Hit α) (emitted : Color α) : IsCutOf (.ended hit emitted) (.ended hit emitted)
  | scattered (hit : Hit α) (emitted weight : Color α) {branches : List (Path α × Path α)}
      (hBranches : ∀ pair ∈ branches, IsCutOf pair.1 pair.2) :
      IsCutOf (.scattered hit emitted weight (branches.map Prod.fst))
        (.scattered hit emitted weight (branches.map Prod.snd))

namespace PathTracer

open Sampling (Shadows)

section Runs

variable [Scalar α] {tracer : PathTracer α} {world : World α} {hit : Hit α} {short long : Ray α → Sampling (Path α)}

/-- A hit from which at most one ray is scattered. The second ray would start from another generator. -/
theorem shadows_branches (h : ∀ ray, Shadows Path.IsCutOf (short ray) (long ray)) {count : ℕ} (hCount : count ≤ 1) :
    Shadows (fun cut paths => ∃ pairs : List (Path α × Path α), (∀ pair ∈ pairs, Path.IsCutOf pair.1 pair.2) ∧
        cut = pairs.map Prod.fst ∧ paths = pairs.map Prod.snd)
      (branches short hit count) (branches long hit count) := by
  have hOne (follow : Ray α → Sampling (Path α)) :
      branches follow hit 1 = (fun path => [path]) <$> branch follow hit := by
    simp [branches]
  rcases Nat.le_one_iff_eq_zero_or_eq_one.mp hCount with rfl | rfl
  · exact Sampling.shadows_pure (Sampling.onlyGives_pure ⟨[], by simp⟩)
  · rw [hOne, hOne]
    have hBranch : Shadows Path.IsCutOf (branch short hit) (branch long hit) := by
      unfold branch
      exact Shadows.bind _ fun depth => Shadows.bind _ h
    refine hBranch.map fun cut path hCut => ?_
    exact ⟨[(cut, path)], by simpa using hCut, rfl, rfl⟩

/-- One bounce. Chance decides before a ray is scattered, and so decides alike. -/
theorem shadows_goOn (hFanOut : tracer.fanOut ≤ 1) (h : ∀ ray, Shadows Path.IsCutOf (short ray) (long ray)) :
    Shadows Path.IsCutOf (tracer.goOn short hit) (tracer.goOn long hit) := by
  unfold goOn
  apply Shadows.bind
  intro color
  apply Shadows.bind
  intro emitted
  apply Shadows.bind
  intro choice
  cases choice with
  | none => exact Sampling.shadows_pure (Sampling.onlyGives_pure (.ended hit emitted))
  | some weight =>
      have hCount : (if 0.0 < color.maxComponent then tracer.fanOut else 0) ≤ 1 := by
        split
        · exact hFanOut
        · exact Nat.zero_le 1
      simp only [bind_pure_comp]
      refine (shadows_branches h hCount).map ?_
      rintro _ _ ⟨pairs, hPairs, rfl, rfl⟩
      exact .scattered hit emitted weight hPairs

/-- A run. The longer one repeats the shorter one up to the cut. -/
theorem shadows_follow (hFanOut : tracer.fanOut ≤ 1) {few many : ℕ} (hFewer : few ≤ many) (ray : Ray α) :
    Shadows Path.IsCutOf (tracer.follow world few ray) (tracer.follow world many ray) := by
  induction few generalizing many ray with
  | zero => exact Sampling.shadows_pure fun _ path _ _ => .cut ray path
  | succ few ih =>
      obtain ⟨more, rfl⟩ : ∃ more, many = more + 1 := Nat.exists_eq_succ_of_ne_zero (by omega)
      cases hSeen : world.intersect? ray with
      | none =>
          simp only [follow, hSeen]
          exact Sampling.shadows_pure (Sampling.onlyGives_pure (.missed ray))
      | some hit =>
          simp only [follow, hSeen]
          exact shadows_goOn hFanOut fun scattered => ih (by omega) scattered

end Runs

end PathTracer

/-- No surface takes light away: no pigment and no emission has a negative channel. -/
structure World.Nonnegative (world : World ℝ) : Prop where
  reflects : ∀ shape ∈ world.shapes, ∀ uv color,
    shape.material.reflection.pigment.colorAt uv = .ok color → Color.black ≤ color
  emits : ∀ shape ∈ world.shapes, ∀ uv color, shape.material.emission.colorAt uv = .ok color → Color.black ≤ color

theorem World.Bounded.nonnegative {world : World ℝ} {emission : ℝ} (h : world.Bounded emission) :
    world.Nonnegative where
  reflects shape hShape uv color hColor := (h.reflects shape hShape uv color hColor).black_le
  emits shape hShape uv color hColor := (h.emits shape hShape uv color hColor).black_le

namespace Path

/-- Nothing along a path takes light away. -/
inductive IsBright : Path ℝ → Prop where
  | cut (ray : Ray ℝ) : IsBright (.cut ray)
  | missed (ray : Ray ℝ) : IsBright (.missed ray)
  | ended (hit : Hit ℝ) {emitted : Color ℝ} (hEmitted : Color.black ≤ emitted) : IsBright (.ended hit emitted)
  | scattered (hit : Hit ℝ) {emitted weight : Color ℝ} {branches : List (Path ℝ)}
      (hEmitted : Color.black ≤ emitted) (hWeight : Color.black ≤ weight)
      (hBranches : ∀ branch ∈ branches, IsBright branch) : IsBright (.scattered hit emitted weight branches)

variable {background weight sum sum' : Color ℝ} {fanOut : ℕ}

theorem share_nonneg (fanOut : ℕ) : 0 ≤ (1.0 / Scalar.ofNat fanOut : ℝ) := by
  change 0 ≤ (1.0 / (fanOut : ℝ))
  positivity

/-- Branches that are darker, one by one, add less light. -/
theorem addLight_mono (hWeight : Color.black ≤ weight) {pairs : List (Path ℝ × Path ℝ)}
    (h : ∀ pair ∈ pairs, pair.1.light background fanOut ≤ pair.2.light background fanOut) (hSum : sum ≤ sum') :
    addLight background fanOut weight (pairs.map Prod.fst) sum ≤
      addLight background fanOut weight (pairs.map Prod.snd) sum' := by
  induction pairs generalizing sum sum' with
  | nil => exact hSum
  | cons pair pairs ih =>
      obtain ⟨hFirst, hRest⟩ := List.forall_mem_cons.mp h
      exact ih hRest (Color.add_mono hSum (Color.mul_mono hWeight hFirst))

theorem le_addLight (hWeight : Color.black ≤ weight) {branches : List (Path ℝ)}
    (h : ∀ branch ∈ branches, Color.black ≤ branch.light background fanOut) :
    sum ≤ addLight background fanOut weight branches sum := by
  induction branches generalizing sum with
  | nil => exact le_rfl
  | cons branch branches ih =>
      obtain ⟨hFirst, hRest⟩ := List.forall_mem_cons.mp h
      exact (Color.le_add_right (Color.black_le_mul hWeight hFirst)).trans (ih hRest)

/-- A bright path gives no negative light. -/
theorem IsBright.black_le_light {path : Path ℝ} (h : path.IsBright) (hBackground : Color.black ≤ background)
    (fanOut : ℕ) : Color.black ≤ path.light background fanOut := by
  induction h with
  | cut ray => exact le_rfl
  | missed ray => exact hBackground
  | ended hit hEmitted => exact hEmitted
  | scattered hit hEmitted hWeight hBranches ih =>
      rw [light]
      exact hEmitted.trans (Color.le_add_right (Color.black_le_scale (le_addLight hWeight ih) (share_nonneg fanOut)))

/-- What was cut off adds light, and nothing else changes. -/
theorem IsCutOf.light_le {cut path : Path ℝ} (h : cut.IsCutOf path) (hBright : path.IsBright)
    (hBackground : Color.black ≤ background) (fanOut : ℕ) :
    cut.light background fanOut ≤ path.light background fanOut := by
  induction h with
  | cut ray path => exact hBright.black_le_light hBackground fanOut
  | missed ray => exact le_rfl
  | ended hit emitted => exact le_rfl
  | scattered hit emitted weight hBranches ih =>
      cases hBright with
      | scattered _ hEmitted hWeight hBright =>
          rw [light, light]
          apply Color.add_mono le_rfl
          apply Color.scale_mono (share_nonneg fanOut)
          exact addLight_mono hWeight (fun pair hPair =>
            ih pair hPair (hBright pair.2 (List.mem_map_of_mem hPair))) le_rfl

end Path

namespace PathTracer

variable {tracer : PathTracer ℝ} {world : World ℝ}

/-- A path that chance spares is weighted by a positive factor. -/
theorem survivorWeight_nonneg {ending drawn : ℝ} (hDrawn : drawn ≤ 1) (hSpared : ending < drawn) :
    0 ≤ survivorWeight ending := by
  have hSurvives : 0 ≤ 1.0 - ending := by
    norm_num
    linarith
  rw [survivorWeight]
  exact div_nonneg (by norm_num) hSurvives

/-- One bounce: what goes on is weighted by the pigment, and by chance. -/
theorem onlyGives_bright_goOn {follow : Ray ℝ → Sampling (Path ℝ)} {hit : Hit ℝ}
    (hReflects : ∀ color, hit.material.reflection.pigment.colorAt hit.uv = .ok color → Color.black ≤ color)
    (hEmits : ∀ color, hit.material.emission.colorAt hit.uv = .ok color → Color.black ≤ color)
    (hFollow : ∀ ray, (follow ray).OnlyGives Path.IsBright) : (tracer.goOn follow hit).OnlyGives Path.IsBright := by
  have hBranch : (branch follow hit).OnlyGives Path.IsBright := by
    unfold branch
    exact (Sampling.onlyGives_trivial _).bind fun depth _ =>
      (Sampling.onlyGives_trivial _).bind fun scattered _ => hFollow scattered
  unfold goOn
  refine (Sampling.onlyGives_lift hReflects).bind fun color hColor => ?_
  refine (Sampling.onlyGives_lift hEmits).bind fun emitted hEmitted => ?_
  refine (onlyGives_continuation tracer _ color).bind fun choice hChoice => ?_
  cases choice with
  | none => exact Sampling.onlyGives_pure (.ended hit hEmitted)
  | some weight =>
      have hWeight : Color.black ≤ weight := by
        rcases hChoice weight rfl with rfl | ⟨drawn, hDrawn, hSpared, rfl⟩
        · exact hColor
        · exact Color.black_le_scale hColor (survivorWeight_nonneg hDrawn hSpared)
      exact (hBranch.mapM_replicate _).bind fun paths hPaths =>
        Sampling.onlyGives_pure (.scattered hit hEmitted hWeight hPaths.2)

/-- In a world that takes no light away all paths are bright. -/
theorem onlyGives_bright (tracer : PathTracer ℝ) (hWorld : world.Nonnegative) (remaining : ℕ) (ray : Ray ℝ) :
    (tracer.follow world remaining ray).OnlyGives Path.IsBright := by
  induction remaining generalizing ray with
  | zero => exact Sampling.onlyGives_pure (.cut ray)
  | succ remaining ih =>
      cases hSeen : world.intersect? ray with
      | none =>
          simp only [follow, hSeen]
          exact Sampling.onlyGives_pure (.missed ray)
      | some hit =>
          obtain ⟨shape, hShape, hMaterial⟩ := World.exists_material_of_intersect? hSeen
          simp only [follow, hSeen]
          exact onlyGives_bright_goOn (hMaterial ▸ hWorld.reflects shape hShape hit.uv)
            (hMaterial ▸ hWorld.emits shape hShape hit.uv) ih

/-- The tracer with another depth limit. -/
def withMaxDepth {α : Type} (tracer : PathTracer α) (limit : ℕ) : PathTracer α := { tracer with maxDepth := limit }

/-- A limit on the depth is a number of hits that are left. -/
theorem path_withMaxDepth {α : Type} [Scalar α] (tracer : PathTracer α) (limit : ℕ) (world : World α) (ray : Ray α) :
    (tracer.withMaxDepth limit).path world ray = tracer.follow world (limit + 1 - ray.depth) ray :=
  follow_congr (tracer.withMaxDepth limit) tracer rfl rfl world _ ray

/-- Raising the depth limit only adds light. One ray is scattered at every hit, nothing takes light away, and
both runs start from one generator: then every channel is at least as bright under the greater limit, from
whatever depth on chance may end paths. If the run under the greater limit gives light, so does the other one.
It stops at a fault only where a surface has no color or depths grow too large to count. -/
theorem radiance_le_of_maxDepth_le (tracer : PathTracer ℝ) (hFanOut : tracer.fanOut = 1) {world : World ℝ}
    (hWorld : world.Nonnegative) (hBackground : Color.black ≤ tracer.background) (ray : Ray ℝ) (generator : Pcg)
    {shallow deep : ℕ} (hLimits : shallow ≤ deep) :
    (∃ color brighter rest rest',
      ((tracer.withMaxDepth shallow).radiance world ray).run generator = .ok (color, rest) ∧
      ((tracer.withMaxDepth deep).radiance world ray).run generator = .ok (brighter, rest') ∧
      color.r ≤ brighter.r ∧ color.g ≤ brighter.g ∧ color.b ≤ brighter.b) ∨
    ¬(world.Reflects ∧ world.Emits ∧ deep < depthLimit) ∧
      ∃ fault, ((tracer.withMaxDepth deep).radiance world ray).run generator = .error fault := by
  have hFewer : shallow + 1 - ray.depth ≤ deep + 1 - ray.depth := by omega
  simp only [run_radiance, path_withMaxDepth]
  cases hDeep : (tracer.follow world (deep + 1 - ray.depth) ray).run generator with
  | ok outcome =>
      obtain ⟨cut, rest, hShallow, hCut⟩ := shadows_follow hFanOut.le hFewer ray generator outcome.1 outcome.2 hDeep
      have hBright := onlyGives_bright tracer hWorld _ ray generator outcome.1 outcome.2 hDeep
      rw [hShallow]
      exact Or.inl ⟨_, _, _, _, rfl, rfl, hCut.light_le hBright hBackground tracer.fanOut⟩
  | error fault =>
      refine Or.inr ⟨?_, fault, rfl⟩
      rintro ⟨hReflects, hEmits, hLimit⟩
      obtain ⟨path, rest, hPath, -⟩ :=
        gives_path_of_colors (tracer.withMaxDepth deep) hReflects hEmits hLimit ray generator
      rw [path_withMaxDepth, hDeep] at hPath
      cases hPath

/-- One ray goes on from every hit, and chance may end its path there. -/
noncomputable def unforked : PathTracer ℝ := ⟨Color.white, 1, 0, 0⟩

/-- A glowing lantern before a white sky is no darker after three bounces than without any. -/
theorem radiance_le_of_maxDepth_le_lantern :
    unforked.fanOut = 1 ∧ (lantern (.checkered (⟨1, 0, 0⟩ : Color ℝ) ⟨0, 0, 1⟩ 4)).Nonnegative ∧
      Color.black ≤ unforked.background ∧ 0 ≤ 3 ∧
      ∀ generator : Pcg, ∃ color brighter rest rest',
        ((unforked.withMaxDepth 0).radiance (lantern (.checkered ⟨1, 0, 0⟩ ⟨0, 0, 1⟩ 4)) downwards).run generator =
          .ok (color, rest) ∧
        ((unforked.withMaxDepth 3).radiance (lantern (.checkered ⟨1, 0, 0⟩ ⟨0, 0, 1⟩ 4)) downwards).run generator =
          .ok (brighter, rest') ∧
        color.r ≤ brighter.r ∧ color.g ≤ brighter.g ∧ color.b ≤ brighter.b := by
  have hWorld := bounded_lantern.nonnegative
  have hBackground : Color.black ≤ unforked.background := by
    norm_num [Color.black_le_iff, unforked, Color.white]
  have hLimit : 3 < depthLimit := by decide
  refine ⟨rfl, hWorld, hBackground, Nat.zero_le 3, fun generator => ?_⟩
  rcases radiance_le_of_maxDepth_le unforked rfl hWorld hBackground downwards generator (Nat.zero_le 3) with
    hBrighter | ⟨hNever, -⟩
  · exact hBrighter
  · exact absurd ⟨reflects_lantern _, emits_lantern _ _ _, hLimit⟩ hNever

end PathTracer

end RayTracer
