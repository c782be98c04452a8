import Mathlib
import RayTracer.Proofs.Random.Period

/-! The streams of generators. The multiplier has an inverse, so a draw can be undone and mixing a seed in loses
nothing of it. The stream is kept as an odd increment, for which its top bit has no room. So generators are told
apart by their seeds and by all bits of their streams but the top one, and generators on different streams never
come to be the same. -/

namespace RayTracer.Pcg

/-- What the multiplier is undone by. -/
def multiplierInverse : UInt64 := 13877824140714322085

/-- The multiplier can be divided by. -/
theorem multiplierInverse_mul : multiplierInverse * multiplier = 1 := by decide

/-- Draws of two generators that lead to the same one began at the same one. -/
theorem next_injective : Function.Injective next := by
  rintro ⟨state, inc⟩ ⟨other, track⟩ hSame
  obtain ⟨hState, hInc⟩ := Pcg.mk.inj hSame
  obtain rfl : inc = track := hInc
  have hScaled : multiplier * state = multiplier * other := (UInt64.add_left_inj inc).mp hState
  have hBack (x : UInt64) : multiplierInverse * (multiplier * x) = x := by
    rw [← UInt64.mul_assoc, multiplierInverse_mul, UInt64.one_mul]
  rw [← hBack state, hScaled, hBack]

/-- The increment that selects a stream. -/
def increment (stream : UInt64) : UInt64 := (stream <<< 1) ||| 1

/-- The seed leaves the stream as it is. -/
theorem inc_seeded (start stream : UInt64) : (seeded start stream).inc = increment stream := rfl

theorem seeded_eq (start stream : UInt64) :
    seeded start stream = next ⟨multiplier * 0 + increment stream + start, increment stream⟩ := rfl

/-- The increment is the odd number behind the bits of the stream that count. -/
theorem toNat_increment (stream : UInt64) : (increment stream).toNat = 2 * (stream.toNat % 2 ^ 63) + 1 := by
  have hDoubled : (stream <<< 1).toNat = (stream.toNat % 2 ^ 63) <<< 1 := by
    rw [UInt64.toNat_shiftLeft, Nat.shiftLeft_eq, Nat.shiftLeft_eq]
    change stream.toNat * 2 ^ 1 % 2 ^ 64 = _
    omega
  rw [increment, UInt64.toNat_or, hDoubled, UInt64.toNat_one, ← Nat.shiftLeft_add_eq_or_of_lt (by decide),
    Nat.shiftLeft_eq]
  omega

/-- The top bit of a stream has no room in its increment. -/
theorem increment_eq_iff {stream other : UInt64} :
    increment stream = increment other ↔ stream.toNat % 2 ^ 63 = other.toNat % 2 ^ 63 := by
  rw [← UInt64.toNat_inj, toNat_increment, toNat_increment]
  omega

/-- Seeding tells all seeds apart, and the streams by all of their bits but the top one. -/
theorem seeded_eq_iff {start other stream track : UInt64} :
    seeded start stream = seeded other track ↔ start = other ∧ stream.toNat % 2 ^ 63 = track.toNat % 2 ^ 63 := by
  rw [seeded_eq, seeded_eq, next_injective.eq_iff, Pcg.mk.injEq, ← increment_eq_iff]
  constructor
  · rintro ⟨hState, hInc⟩
    rw [hInc] at hState
    exact ⟨(UInt64.add_right_inj _).mp hState, hInc⟩
  · rintro ⟨rfl, hInc⟩
    exact ⟨by rw [hInc], hInc⟩

/-- However many numbers they give, generators with different increments do not become the same. -/
theorem draws_ne_of_inc {g other : Pcg} (hInc : g.inc ≠ other.inc) (given more : ℕ) :
    (draws given g).2 ≠ (draws more other).2 := by
  intro hSame
  have hKept := congrArg inc hSame
  rw [snd_draws, snd_draws, inc_skip, inc_skip] at hKept
  exact hInc hKept

end RayTracer.Pcg
