import Mathlib
import RayTracer.Random.Pcg

/-! The period of a generator. The states that follow each other move on by distances that are multiplied by
the multiplier at every draw, so how far a number of draws leads is a sum of its powers. Such a sum has the
factors of two that the number of its terms has, and the first distance is odd. So every generator passes
through all states before it comes back to one. -/

namespace RayTracer.Pcg

/-- Where a base is one modulo four, a sum of its powers is divisible by a power of two exactly if the number
of its terms is. -/
theorem two_pow_dvd_geom_sum_iff {base : ℤ} (hFour : 4 ∣ base - 1) (hOne : base ≠ 1) (exponent count : ℕ) :
    2 ^ exponent ∣ ∑ i ∈ Finset.range count, base ^ i ↔ 2 ^ exponent ∣ count := by
  have hOdd : ¬2 ∣ base := by omega
  have hLifted := Int.two_pow_sub_pow' count hFour hOdd
  have hFinite : emultiplicity 2 (base - 1) ≠ ⊤ :=
    finiteMultiplicity_iff_emultiplicity_ne_top.mp
      (Int.finiteMultiplicity_iff.mpr ⟨by decide, sub_ne_zero.mpr hOne⟩)
  have hSame : emultiplicity 2 (∑ i ∈ Finset.range count, base ^ i) = emultiplicity (2 : ℤ) count := by
    rw [one_pow, ← mul_geom_sum, emultiplicity_mul Int.prime_two] at hLifted
    exact WithTop.add_left_cancel hFinite hLifted
  have hCast : (2 : ℤ) ^ exponent ∣ count ↔ 2 ^ exponent ∣ count := by
    exact_mod_cast Int.natCast_dvd_natCast
  rw [← hCast, pow_dvd_iff_le_emultiplicity, pow_dvd_iff_le_emultiplicity, hSame]

theorem multiplier_eq : (multiplier.toNat : ℤ) = 6364136223846793005 := by
  simp [multiplier]

/-- The generator that draws leave does not depend on what is done with the numbers. -/
theorem snd_draws (count : ℕ) (g : Pcg) : (draws count g).2 = skip count g := by
  induction count generalizing g with
  | zero => rfl
  | succ count ih => exact ih g.next

/-- Draws add up. -/
theorem skip_add (count more : ℕ) (g : Pcg) : skip (count + more) g = skip more (skip count g) := by
  induction count generalizing g with
  | zero => rw [Nat.zero_add, skip]
  | succ count ih => rw [Nat.succ_add, skip, skip, ih]

theorem inc_skip (count : ℕ) (g : Pcg) : (skip count g).inc = g.inc := by
  induction count generalizing g with
  | zero => rfl
  | succ count ih => exact ih g.next

/-- How far the next draw leads, before what exceeds a word is dropped. -/
def distance (g : Pcg) : ℤ := (multiplier.toNat - 1) * g.state.toNat + g.inc.toNat

/-- A draw moves the state on by the distance. -/
theorem state_next_modEq (g : Pcg) : (g.next.state.toNat : ℤ) ≡ g.state.toNat + g.distance [ZMOD 2 ^ 64] := by
  have hWord : g.next.state.toNat = (multiplier.toNat * g.state.toNat + g.inc.toNat) % 2 ^ 64 := by
    rw [next, UInt64.toNat_add, UInt64.toNat_mul, Nat.mod_add_mod]
  have hSum : (g.state.toNat + g.distance : ℤ) = multiplier.toNat * g.state.toNat + g.inc.toNat := by
    rw [distance]
    ring
  rw [hWord, hSum]
  push_cast
  exact Int.mod_modEq _ _

/-- The next distance is the last one times the multiplier. -/
theorem distance_next_modEq (g : Pcg) : g.next.distance ≡ multiplier.toNat * g.distance [ZMOD 2 ^ 64] := by
  have hMoved : g.next.distance ≡
      (multiplier.toNat - 1) * (g.state.toNat + g.distance) + g.inc.toNat [ZMOD 2 ^ 64] :=
    ((state_next_modEq g).mul_left _).add_right _
  have hScaled : (multiplier.toNat - 1) * (g.state.toNat + g.distance) + g.inc.toNat =
      multiplier.toNat * g.distance := by
    rw [distance]
    ring
  rwa [hScaled] at hMoved

/-- A number of draws leads as far as the first of them, times a sum of powers of the multiplier. -/
theorem state_skip_modEq (count : ℕ) (g : Pcg) :
    ((skip count g).state.toNat : ℤ) ≡
      g.state.toNat + (∑ i ∈ Finset.range count, (multiplier.toNat : ℤ) ^ i) * g.distance [ZMOD 2 ^ 64] := by
  induction count generalizing g with
  | zero => simp [skip]
  | succ count ih =>
      let sum : ℤ := ∑ i ∈ Finset.range count, (multiplier.toNat : ℤ) ^ i
      have hFirst : (g.next.state.toNat + sum * g.next.distance : ℤ) ≡
          g.state.toNat + g.distance + sum * (multiplier.toNat * g.distance) [ZMOD 2 ^ 64] :=
        (state_next_modEq g).add ((distance_next_modEq g).mul_left sum)
      have hCollected : g.state.toNat + g.distance + sum * (multiplier.toNat * g.distance) =
          g.state.toNat + (multiplier.toNat * sum + 1) * g.distance := by ring
      rw [geom_sum_succ, ← hCollected]
      exact (ih g.next).trans hFirst

/-- Draws lead back to a state exactly after multiples of the number of all states. -/
theorem state_skip_eq_iff {g : Pcg} (hOdd : g.inc.toNat % 2 = 1) (count : ℕ) :
    (skip count g).state = g.state ↔ 2 ^ 64 ∣ count := by
  have hDistance : IsCoprime (2 ^ 64 : ℤ) g.distance := by
    apply IsCoprime.pow_left
    rw [Int.isCoprime_two_left, Int.odd_iff, distance, multiplier_eq]
    omega
  have hFour : 4 ∣ (multiplier.toNat : ℤ) - 1 := by
    rw [multiplier_eq]
    decide
  have hOne : (multiplier.toNat : ℤ) ≠ 1 := by
    rw [multiplier_eq]
    decide
  have hRun := state_skip_modEq count g
  generalize hSum : ∑ i ∈ Finset.range count, (multiplier.toNat : ℤ) ^ i = sum at hRun
  have hWords : (skip count g).state = g.state ↔
      g.state.toNat ≡ ((skip count g).state.toNat : ℤ) [ZMOD 2 ^ 64] := by
    have hAfter := (skip count g).state.toNat_lt
    have hBefore := g.state.toNat_lt
    rw [← UInt64.toNat_inj, Int.ModEq]
    omega
  calc
    (skip count g).state = g.state ↔ g.state.toNat ≡ g.state.toNat + sum * g.distance [ZMOD 2 ^ 64] :=
      hWords.trans ⟨fun h => h.trans hRun, fun h => h.trans hRun.symm⟩
    _ ↔ 2 ^ 64 ∣ sum * g.distance := by rw [Int.modEq_iff_dvd, add_sub_cancel_left]
    _ ↔ 2 ^ 64 ∣ sum := ⟨hDistance.dvd_of_dvd_mul_right, fun h => h.mul_right _⟩
    _ ↔ 2 ^ 64 ∣ count := hSum ▸ two_pow_dvd_geom_sum_iff hFour hOne 64 count

/-- The increment of every stream is odd. -/
theorem inc_seeded_odd (start stream : UInt64) : (seeded start stream).inc.toNat % 2 = 1 := by
  change ((stream <<< 1) ||| 1).toNat % 2 = 1
  rw [UInt64.toNat_or, Nat.or_mod_two_eq_one]
  exact Or.inr rfl

/-- Every generator has the full period. However it is seeded and however many numbers it has given, it is at
the same state again after as many draws as there are states, after multiples of them, and never else. -/
theorem state_draws_eq_iff (start stream : UInt64) (given count : ℕ) :
    let g := (draws given (seeded start stream)).2
    g.inc.toNat % 2 = 1 ∧ ((draws count g).2.state = g.state ↔ 2 ^ 64 ∣ count) := by
  intro g
  have hOdd : g.inc.toNat % 2 = 1 := by
    rw [show g = skip given (seeded start stream) from snd_draws given _, inc_skip]
    exact inc_seeded_odd start stream
  rw [snd_draws]
  exact ⟨hOdd, state_skip_eq_iff hOdd count⟩

end RayTracer.Pcg
