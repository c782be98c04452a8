import Mathlib
import RayTracer.Proofs.Render.BounceWeights
import RayTracer.Proofs.Render.EnergyBound
import RayTracer.Proofs.Render.PathCompletion

/-! The chance of a path, over exact numbers. From a depth on, a number is drawn at every hit, and the path goes on
where it exceeds the probability of ending. A number that is drawn is a word out of a finite number of them, spread
over the unit interval with both ends. So the share of the words that spare a path is the probability of going on up
to the size of one word, and what goes on is weighted so that, up to as much, nothing is lost on average. -/

namespace RayTracer

namespace Pcg

/-- The words whose numbers exceed a bound. -/
noncomputable def wordsAbove (bound : ℝ) : Finset UInt32 :=
  Finset.univ.filter fun word => bound < word.toNat / 4294967295

theorem mem_wordsAbove {bound : ℝ} {word : UInt32} : word ∈ wordsAbove bound ↔ bound < unitOf word := by
  rw [wordsAbove, Finset.mem_filter, Sampling.unitOf_exact]
  exact and_iff_right (Finset.mem_univ word)

/-- Words are counted from the first one whose number exceeds the bound up to the last one. -/
theorem card_wordsAbove {bound : ℝ} (hBound : 0 ≤ bound) :
    (wordsAbove bound).card = 4294967295 - ⌊bound * 4294967295⌋₊ := by
  have hAbove (word : UInt32) : word ∈ wordsAbove bound ↔ ⌊bound * 4294967295⌋₊ < word.toNat := by
    rw [mem_wordsAbove, Sampling.unitOf_exact, lt_div_iff₀ (by norm_num), Nat.floor_lt (by positivity)]
  have hCount : (wordsAbove bound).card = (Finset.Ioc ⌊bound * 4294967295⌋₊ 4294967295).card := by
    refine Finset.card_nbij' UInt32.toNat UInt32.ofNat (fun word hWord => ?_) (fun k hk => ?_)
      (fun word _ => UInt32.ofNat_toNat) (fun k hk => ?_)
    · exact Finset.mem_Ioc.mpr ⟨(hAbove word).mp hWord, Nat.le_of_lt_succ word.toNat_lt⟩
    · obtain ⟨hFirst, hLast⟩ := Finset.mem_Ioc.mp hk
      refine Finset.mem_coe.mpr ((hAbove _).mpr ?_)
      rwa [UInt32.toNat_ofNat_of_lt' (Nat.lt_succ_of_le hLast)]
    · exact UInt32.toNat_ofNat_of_lt' (Nat.lt_succ_of_le (Finset.mem_Ioc.mp hk).2)
  rw [hCount, Nat.card_Ioc]

/-- The share of the words above a bound is what the bound leaves of the unit interval, up to one word. -/
theorem share_wordsAbove {bound : ℝ} (hBound : bound ∈ Set.Icc 0 1) :
    |((wordsAbove bound).card : ℝ) / 2 ^ 32 - (1 - bound)| ≤ 1 / 2 ^ 32 := by
  have hScaled : 0 ≤ bound * 4294967295 := mul_nonneg hBound.1 (by norm_num)
  have hBelow := Nat.floor_le hScaled
  have hAbove := Nat.lt_floor_add_one (bound * 4294967295)
  have hFits : ⌊bound * 4294967295⌋₊ ≤ 4294967295 := by
    refine Nat.floor_le_of_le ?_
    push_cast
    linarith [hBound.2]
  rw [card_wordsAbove hBound.1, Nat.cast_sub hFits]
  push_cast
  generalize (⌊bound * 4294967295⌋₊ : ℝ) = first at hBelow hAbove
  have hError : (4294967295 - first) / 2 ^ 32 - (1 - bound) =
      (bound * 4294967295 - first - (1 - bound)) * (1 / 2 ^ 32) := by ring
  rw [hError, abs_mul, abs_of_pos (by positivity : (0 : ℝ) < 1 / 2 ^ 32)]
  refine mul_le_of_le_one_left (by positivity) (abs_le.mpr ⟨?_, ?_⟩)
  · linarith [hBound.1]
  · linarith [hBound.2]

end Pcg

namespace PathTracer

section Choices

variable {α : Type} [Scalar α] {tracer : PathTracer α} {world : World α} {ray : Ray α} {hit : Hit α}
  {color emitted : Color α}

/-- From the roulette depth on a path goes on from a hit, weighted up, where the number drawn exceeds the
probability of ending, and else ends there. -/
theorem run_path_of_chance (hDepth : ray.depth ≤ tracer.maxDepth) (hChance : tracer.rouletteDepth ≤ ray.depth)
    (hSeen : world.intersect? ray = some hit) (hColors : hit.colors = .ok (color, emitted)) (generator : Pcg) :
    (tracer.path world ray).run generator =
      if endingProbability color.maxComponent < Pcg.unitOf generator.draw.1 then
        (Path.scattered hit emitted (color * survivorWeight (endingProbability color.maxComponent)) <$>
          branches (tracer.path world) hit (if 0.0 < color.maxComponent then tracer.fanOut else 0)).run
            generator.next
      else .ok (.ended hit emitted, generator.next) := by
  obtain rfl := World.ray_of_intersect? hSeen
  rw [path_of_hit hDepth hSeen, goOn_eq]
  apply (Sampling.run_bind_of_ok (Sampling.run_lift_of_ok hColors generator)).trans
  apply (Sampling.run_bind_of_ok (run_continuation_of_chance hChance color generator)).trans
  by_cases hSpared : endingProbability color.maxComponent < Pcg.unitOf generator.draw.1
  · simp only [if_pos hSpared, map_eq_pure_bind]
  · simp only [if_neg hSpared]
    rfl

/-- The light that leaves a hit at which chance is asked: where the path goes on it is what is emitted and the average
of what arrives, weighted up, and else what is emitted alone. -/
theorem run_radiance_of_chance (hDepth : ray.depth ≤ tracer.maxDepth) (hChance : tracer.rouletteDepth ≤ ray.depth)
    (hSeen : world.intersect? ray = some hit) (hColors : hit.colors = .ok (color, emitted)) (generator : Pcg) :
    (tracer.radiance world ray).run generator =
      if endingProbability color.maxComponent < Pcg.unitOf generator.draw.1 then
        (leaving tracer.fanOut emitted (fun _ => color * survivorWeight (endingProbability color.maxComponent)) <$>
          tracer.arrivals world hit (if 0.0 < color.maxComponent then tracer.fanOut else 0)).run generator.next
      else .ok (emitted, generator.next) := by
  have hPath := run_path_of_chance hDepth hChance hSeen hColors generator
  by_cases hSpared : endingProbability color.maxComponent < Pcg.unitOf generator.draw.1
  · rw [if_pos hSpared] at hPath ⊢
    rw [← map_light_scattered, radiance, bind_pure_comp, StateT.run_map, hPath, StateT.run_map, StateT.run_map]
    cases (branches (tracer.path world) hit (if 0.0 < color.maxComponent then tracer.fanOut else 0)).run
      generator.next <;> rfl
  · rw [if_neg hSpared] at hPath ⊢
    rw [radiance, bind_pure_comp, StateT.run_map, hPath]
    rfl

end Choices

/-- What is left of the probability of ending: the brightest channel, but at most nineteen parts in twenty. -/
theorem one_sub_max_ending (brightness : ℝ) : 1 - max (1 / 20) (1 - brightness) = min (19 / 20) brightness := by
  rw [← min_sub_sub_left, sub_sub_cancel]
  norm_num

/-- A surface that lets a path go on is not black, and it had less than a full chance to end it. -/
theorem of_mem_wordsAbove {brightness : ℝ} {word : UInt32}
    (h : word ∈ Pcg.wordsAbove (max (1 / 20) (1 - brightness))) :
    max (1 / 20) (1 - brightness) < 1 ∧ 0 < brightness := by
  have hLess : max (1 / 20) (1 - brightness) < 1 := (Pcg.mem_wordsAbove.mp h).trans_le (Sampling.unitOf_mem_Icc word).2
  exact ⟨hLess, by linarith [(max_lt_iff.mp hLess).2]⟩

/-- A survivor is on a surface that is not black, so it has the whole fan scattered. -/
theorem ite_unitOf_eq_ite_wordsAbove (tracer : PathTracer ℝ) (color : Color ℝ) {β : Type} (word : UInt32)
    (goOn : ℕ → β) (ended : β) :
    let ending := max (1 / 20) (1 - color.maxComponent)
    (if ending < Pcg.unitOf word then goOn (if 0.0 < color.maxComponent then tracer.fanOut else 0) else ended) =
      if word ∈ Pcg.wordsAbove ending then goOn tracer.fanOut else ended := by
  intro ending
  by_cases hSpared : word ∈ Pcg.wordsAbove ending
  · have hBright : 0.0 < color.maxComponent := by
      rw [Scalar.zero_exact]
      exact (of_mem_wordsAbove hSpared).2
    rw [if_pos hSpared, if_pos (Pcg.mem_wordsAbove.mp hSpared), if_pos hBright]
  · rw [if_neg hSpared, if_neg fun hMore => hSpared (Pcg.mem_wordsAbove.mpr hMore)]

/-- What goes on has, averaged over all words, the weight that it would have if every path went on. -/
theorem average_weight {ending : ℝ} (hPositive : 0 ≤ ending) (hLess : ending < 1) :
    |(∑ word : UInt32, if word ∈ Pcg.wordsAbove ending then 1 / (1 - ending) else 0) / 2 ^ 32 - 1| ≤
      1 / 2 ^ 32 / (1 - ending) := by
  have hLeft : 0 < 1 - ending := sub_pos.mpr hLess
  have hShare := Pcg.share_wordsAbove ⟨hPositive, hLess.le⟩
  have hSum : (∑ word : UInt32, if word ∈ Pcg.wordsAbove ending then 1 / (1 - ending) else 0) =
      (Pcg.wordsAbove ending).card * (1 / (1 - ending)) := by
    rw [Finset.sum_ite_mem, Finset.univ_inter, Finset.sum_const, nsmul_eq_mul]
  have hScaled (count : ℝ) : count * (1 / (1 - ending)) / 2 ^ 32 - 1 =
      (count / 2 ^ 32 - (1 - ending)) / (1 - ending) := by
    rw [sub_div, div_self hLeft.ne', mul_one_div, div_right_comm]
  rw [hSum, hScaled, abs_div, abs_of_pos hLeft]
  gcongr

/-- Chance is fair up to the size of one word. Take a surface of any color and the probability of ending that its
brightest channel gives. From the roulette depth on, the path of a ray that hits such a surface takes one draw. If
the number drawn exceeds the probability, the path goes on weighted by one divided by what is left of it, and the
light along the ray is what the surface emits and the average of what arrives, with that weight; then what is left
is positive, and so is the brightest channel, which has one divided by it or by nineteen parts in twenty as the
weight. Else the path ends there, which it always does where no channel is positive, and what the surface emits is
all the light. Of all words that can be drawn, the share that lets the path go on is what the probability of
ending leaves, up to one word, and the average weight over all words is one, up to one word divided by what is
left. -/
theorem roulette_unbiased (tracer : PathTracer ℝ) (color : Color ℝ) :
    let brightness := max (max color.r color.g) color.b
    let ending := max (1 / 20) (1 - brightness)
    let survivors : Finset UInt32 := Finset.univ.filter fun word => ending < word.toNat / 4294967295
    (∀ (world : World ℝ) (ray : Ray ℝ) (hit : Hit ℝ) (emitted : Color ℝ) (generator : Pcg),
      ray.depth ≤ tracer.maxDepth → tracer.rouletteDepth ≤ ray.depth → world.intersect? ray = some hit →
      hit.colors = .ok (color, emitted) →
      (tracer.path world ray).run generator =
        if generator.draw.1 ∈ survivors then
          (Path.scattered hit emitted (color * (1 / (1 - ending))) <$>
            branches (tracer.path world) hit tracer.fanOut).run generator.next
        else .ok (.ended hit emitted, generator.next)) ∧
    (∀ (world : World ℝ) (ray : Ray ℝ) (hit : Hit ℝ) (emitted : Color ℝ) (generator : Pcg),
      ray.depth ≤ tracer.maxDepth → tracer.rouletteDepth ≤ ray.depth → world.intersect? ray = some hit →
      hit.colors = .ok (color, emitted) →
      (tracer.radiance world ray).run generator =
        if generator.draw.1 ∈ survivors then
          (leaving tracer.fanOut emitted (fun _ => color * (1 / (1 - ending))) <$>
            tracer.arrivals world hit tracer.fanOut).run generator.next
        else .ok (emitted, generator.next)) ∧
    (∀ word ∈ survivors, ending < 1 ∧ 0 < brightness ∧ 1 / (1 - ending) = 1 / min (19 / 20) brightness) ∧
    (brightness ≤ 0 → survivors = ∅) ∧
    (ending ≤ 1 → |(survivors.card : ℝ) / 2 ^ 32 - (1 - ending)| ≤ 1 / 2 ^ 32) ∧
    (ending < 1 →
      |(∑ word : UInt32, if word ∈ survivors then 1 / (1 - ending) else 0) / 2 ^ 32 - 1| ≤
        1 / 2 ^ 32 / (1 - ending)) := by
  intro brightness ending survivors
  have hEnding : endingProbability color.maxComponent = ending := endingProbability_exact brightness
  have hPositive : 0 ≤ ending := (by norm_num : (0 : ℝ) ≤ 1 / 20).trans (le_max_left _ _)
  refine ⟨?_, ?_, fun word hSpared => ?_, fun hBlack => ?_, fun hAtMost => Pcg.share_wordsAbove ⟨hPositive, hAtMost⟩,
    fun hLess => average_weight hPositive hLess⟩
  · intro world ray hit emitted generator hDepth hChance hSeen hColors
    rw [run_path_of_chance hDepth hChance hSeen hColors generator, hEnding, survivorWeight_exact]
    exact ite_unitOf_eq_ite_wordsAbove tracer color generator.draw.1 (fun count =>
      (Path.scattered hit emitted _ <$> branches (tracer.path world) hit count).run generator.next) _
  · intro world ray hit emitted generator hDepth hChance hSeen hColors
    rw [run_radiance_of_chance hDepth hChance hSeen hColors generator, hEnding, survivorWeight_exact]
    exact ite_unitOf_eq_ite_wordsAbove tracer color generator.draw.1 (fun count =>
      (leaving tracer.fanOut emitted _ <$> tracer.arrivals world hit count).run generator.next) _
  · obtain ⟨hLess, hBright⟩ := of_mem_wordsAbove hSpared
    exact ⟨hLess, hBright, congrArg (1 / ·) (one_sub_max_ending brightness)⟩
  · refine Finset.eq_empty_of_forall_notMem fun word hSpared => ?_
    exact hBlack.not_gt (of_mem_wordsAbove hSpared).2

/-- A floor of the color of rust. -/
noncomputable def rustyFloor : Shape ℝ :=
  ⟨.plane, .identity, ⟨.diffuse (.uniform ⟨0.5, 0.25, 0⟩) 1, .uniform Color.black⟩⟩

/-- Three rays are scattered at every hit, and any hit may be the last one. -/
noncomputable def gambler : PathTracer ℝ := ⟨Color.white, 3, 5, 0⟩

/-- A draw on which the path goes on from the rusty floor with twice its color. About half of all draws do. -/
theorem roulette_unbiased_rustyFloor :
    ∃ hit, (falling.depth ≤ gambler.maxDepth ∧ gambler.rouletteDepth ≤ falling.depth ∧
        (⟨[rustyFloor], []⟩ : World ℝ).intersect? falling = some hit ∧
        hit.colors = .ok (⟨0.5, 0.25, 0⟩, Color.black)) ∧
      (gambler.path ⟨[rustyFloor], []⟩ falling).run (Pcg.seeded 42 54) =
        (Path.scattered hit Color.black ⟨1, 0.5, 0⟩ <$>
          branches (gambler.path ⟨[rustyFloor], []⟩) hit 3).run (Pcg.seeded 42 54).next ∧
      (gambler.radiance ⟨[rustyFloor], []⟩ falling).run (Pcg.seeded 42 54) =
        (leaving 3 Color.black (fun _ => ⟨1, 0.5, 0⟩) <$>
          gambler.arrivals ⟨[rustyFloor], []⟩ hit 3).run (Pcg.seeded 42 54).next ∧
      |((Pcg.wordsAbove (1 / 2)).card : ℝ) / 2 ^ 32 - 1 / 2| ≤ 1 / 2 ^ 32 := by
  have hDepth : falling.depth ≤ gambler.maxDepth := Nat.zero_le _
  have hChance : gambler.rouletteDepth ≤ falling.depth := Nat.zero_le _
  obtain ⟨hit, hSeen, hMaterial, -⟩ := exists_hit_falling rustyFloor.material
  have hColors : hit.colors = .ok (⟨0.5, 0.25, 0⟩, Color.black) := by
    rw [Hit.colors, hMaterial]
    rfl
  have hEnding : max (1 / 20) (1 - max (max 0.5 0.25) 0) = (1 / 2 : ℝ) := by norm_num
  obtain ⟨hPath, hLight, -, -, hShare, -⟩ := roulette_unbiased gambler ⟨0.5, 0.25, 0⟩
  simp only [hEnding] at hPath hLight hShare
  have hDrawn : (Pcg.seeded 42 54).draw.1.toNat = 2707161783 := by decide
  have hSpared : (Pcg.seeded 42 54).draw.1 ∈ Pcg.wordsAbove (1 / 2) := by
    rw [Pcg.mem_wordsAbove, Sampling.unitOf_exact, hDrawn]
    norm_num
  have hDoubled : (⟨0.5, 0.25, 0⟩ : Color ℝ) * (1 / (1 - 1 / 2) : ℝ) = ⟨1, 0.5, 0⟩ := by
    rw [Color.mul_scalar_exact]
    norm_num
  rw [← hDoubled]
  refine ⟨hit, ⟨hDepth, hChance, hSeen, hColors⟩,
    (hPath _ falling hit Color.black _ hDepth hChance hSeen hColors).trans (if_pos hSpared),
    (hLight _ falling hit Color.black _ hDepth hChance hSeen hColors).trans (if_pos hSpared), ?_⟩
  have hHalf : (1 - 1 / 2 : ℝ) = 1 / 2 := by norm_num
  rw [hHalf] at hShare
  exact hShare (by norm_num)

end PathTracer

end RayTracer
