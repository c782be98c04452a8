import Mathlib
import RayTracer.Image.ToneMapping
import RayTracer.Proofs.Exact.Reals

/-! Exposure in exact arithmetic. Luminosities grow with their colors, and the logarithmic mean of positive ones
turns a common factor into a factor of its own. So an image that is normalized by its mean has the chosen mean,
and how it was exposed before does not matter. -/

namespace RayTracer

/-- Luminosity grows with the color. -/
theorem Color.luminosity_mul {k : ℝ} (hk : 0 ≤ k) (color : Color ℝ) :
    (color * k).luminosity = color.luminosity * k := by
  change (max (max (color.r * k) (color.g * k)) (color.b * k) +
    min (min (color.r * k) (color.g * k)) (color.b * k)) / 2.0 =
      (max (max color.r color.g) color.b + min (min color.r color.g) color.b) / 2.0 * k
  rw [← max_mul_of_nonneg _ _ hk, ← max_mul_of_nonneg _ _ hk, ← min_mul_of_nonneg _ _ hk,
    ← min_mul_of_nonneg _ _ hk, ← add_mul, mul_div_right_comm]

namespace Image

variable {image : Image ℝ} {factor k : ℝ}

/-- The mean is taken of the logarithms. -/
theorem averageLuminosity_exact (image : Image ℝ) (offset : ℝ) :
    image.averageLuminosity offset =
      10 ^ ((image.pixels.toList.map fun color => Real.logb 10 (offset + color.luminosity)).sum /
        image.pixels.size) := by
  have hTen : (10.0 : ℝ) = 10 := by norm_num
  change 10.0 ^ (image.pixels.foldl (fun sum color => sum + Real.logb 10 (offset + color.luminosity)) 0.0 /
    (image.pixels.size : ℝ)) = _
  rw [hTen, Scalar.zero_exact, List.sum_eq_foldl, List.foldl_map, Array.foldl_toList]

/-- The mean is a power, so it is positive for black images as well. -/
theorem averageLuminosity_pos (image : Image ℝ) (offset : ℝ) : 0 < image.averageLuminosity offset := by
  have hTen : (0 : ℝ) < 10.0 := by norm_num
  exact Real.rpow_pos_of_pos hTen _

/-- A factor of all colors is one of the mean. -/
theorem averageLuminosity_map_mul (hPixels : image.pixels ≠ #[])
    (hBright : ∀ color ∈ image.pixels, 0 < color.luminosity) (hk : 0 < k) :
    (image.map (· * k)).averageLuminosity 0 = image.averageLuminosity 0 * k := by
  have hCount : (image.pixels.size : ℝ) ≠ 0 := Nat.cast_ne_zero.mpr (mt Array.size_eq_zero_iff.mp hPixels)
  have hLogs : ((image.map (· * k)).pixels.toList.map fun color => Real.logb 10 (0 + color.luminosity)).sum =
      (image.pixels.toList.map fun color => Real.logb 10 (0 + color.luminosity)).sum +
        image.pixels.size * Real.logb 10 k := by
    calc
      _ = (image.pixels.toList.map fun color => Real.logb 10 (0 + color.luminosity) + Real.logb 10 k).sum := by
        rw [map, Array.toList_map, List.map_map]
        refine congrArg List.sum (List.map_congr_left fun color hColor => ?_)
        have hLight := (hBright color (Array.mem_toList_iff.mp hColor)).ne'
        rw [Function.comp_apply, Color.luminosity_mul hk.le, zero_add, zero_add, Real.logb_mul hLight hk.ne']
      _ = _ := by
        rw [List.sum_map_add, List.map_const', List.sum_replicate, Array.length_toList, nsmul_eq_mul]
  rw [averageLuminosity_exact, averageLuminosity_exact, hLogs, map, Array.size_map, add_div,
    mul_div_cancel_left₀ _ hCount, Real.rpow_add (by norm_num), Real.rpow_logb (by norm_num) (by norm_num) hk]

/-- To normalize by a luminosity is to divide by it. -/
theorem normalize_some (image : Image ℝ) (factor luminosity : ℝ) :
    image.normalize factor (some luminosity) = image.map (· * (factor / luminosity)) := rfl

/-- Normalizing an image by its own mean removes its exposure: the mean becomes the chosen brightness, exactly, and
an image that was made brighter or darker as a whole before becomes the same one. -/
theorem normalize_removes_exposure (hPixels : image.pixels ≠ #[])
    (hBright : ∀ color ∈ image.pixels, 0 < color.luminosity) (hFactor : 0 < factor) :
    (image.normalize factor (some (image.averageLuminosity 0))).averageLuminosity 0 = factor ∧
      ∀ k : ℝ, 0 < k →
        (image.map (· * k)).normalize factor (some ((image.map (· * k)).averageLuminosity 0)) =
          image.normalize factor (some (image.averageLuminosity 0)) := by
  have hMean := averageLuminosity_pos image 0
  constructor
  · rw [normalize_some, averageLuminosity_map_mul hPixels hBright (div_pos hFactor hMean),
      mul_div_cancel₀ _ hMean.ne']
  · intro k hk
    have hScale : k * (factor / (image.averageLuminosity 0 * k)) = factor / image.averageLuminosity 0 := by
      rw [mul_div_assoc', mul_comm k factor, mul_div_mul_right _ _ hk.ne']
    have hScaled (color : Color ℝ) : color * k * (factor / (image.averageLuminosity 0 * k)) =
        color * (factor / image.averageLuminosity 0) := by
      rw [Color.mul_scalar_exact, Color.mul_scalar_exact, Color.mul_scalar_exact, mul_assoc, mul_assoc, mul_assoc,
        hScale]
    rw [averageLuminosity_map_mul hPixels hBright hk, normalize_some, normalize_some, map, map, map, Array.map_map]
    exact congrArg (Image.mk _ _) (Array.map_congr_left fun color _ => hScaled color)

/-- Two pixels of different hues. -/
noncomputable def daylight : Image ℝ := ⟨2, 1, #[⟨0, 0.5, 1⟩, ⟨0.25, 0.25, 0⟩]⟩

theorem luminosity_pos_daylight : ∀ color ∈ daylight.pixels, 0 < color.luminosity := by
  have hLuminosity (color : Color ℝ) : color.luminosity =
      (max (max color.r color.g) color.b + min (min color.r color.g) color.b) / 2.0 := rfl
  simp only [daylight, List.mem_toArray, List.mem_cons, List.not_mem_nil, or_false, forall_eq_or_imp, forall_eq,
    hLuminosity]
  norm_num

/-- An image by day, taken eight times as bright, is normalized to the same. -/
theorem normalize_removes_exposure_daylight :
    daylight.pixels ≠ #[] ∧ (∀ color ∈ daylight.pixels, 0 < color.luminosity) ∧ (0 : ℝ) < 0.18 ∧ (0 : ℝ) < 8 ∧
      (daylight.normalize 0.18 (some (daylight.averageLuminosity 0))).averageLuminosity 0 = 0.18 ∧
      (daylight.map (· * (8 : ℝ))).normalize 0.18 (some ((daylight.map (· * (8 : ℝ))).averageLuminosity 0)) =
        daylight.normalize 0.18 (some (daylight.averageLuminosity 0)) := by
  have hPixels : daylight.pixels ≠ #[] := by simp [daylight]
  have hFactor : (0 : ℝ) < 0.18 := by norm_num
  have hScale : (0 : ℝ) < 8 := by norm_num
  obtain ⟨hMean, hScaled⟩ := normalize_removes_exposure hPixels luminosity_pos_daylight hFactor
  exact ⟨hPixels, luminosity_pos_daylight, hFactor, hScale, hMean, hScaled 8 hScale⟩

end Image

end RayTracer
