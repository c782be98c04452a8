import Mathlib
import RayTracer.Proofs.Random.Period

/-! The balance of the numbers that generators give. A state is determined by the number that it stands for, by
its top five bits, which say how far the number is rotated, and by the low bits that are dropped when the high
ones have been folded onto them. There are as many of the latter as there are numbers, so every number stands for
equally many states, and a generator that passes through all states gives every number equally often. -/

namespace RayTracer.Pcg

/-- The bits of a state with the high ones folded onto the others, before any are dropped. -/
def mixed (state : UInt64) : ℕ := state.toNat ^^^ state.toNat >>> 18

/-- Folding by eighteen, then by thirty-six bits leads back to the state: what is left over is shifted out. -/
theorem mixed_injective : Function.Injective mixed := by
  have hBack (state : UInt64) :
      (mixed state ^^^ mixed state >>> 18) ^^^ (mixed state ^^^ mixed state >>> 18) >>> 36 = state.toNat := by
    have hOnce : mixed state ^^^ mixed state >>> 18 = state.toNat ^^^ state.toNat >>> 36 := by
      rw [mixed, Nat.shiftRight_xor_distrib, ← Nat.shiftRight_add, Nat.xor_assoc, Nat.xor_xor_cancel_left]
    have hOut : state.toNat >>> 72 = 0 := by
      rw [Nat.shiftRight_eq_div_pow, Nat.div_eq_of_lt (state.toNat_lt.trans (by norm_num))]
    rw [hOnce, Nat.shiftRight_xor_distrib, ← Nat.shiftRight_add, Nat.xor_assoc, Nat.xor_xor_cancel_left, hOut,
      Nat.xor_zero]
  intro state other hSame
  rw [← UInt64.toNat_inj, ← hBack state, ← hBack other, hSame]

/-- Nothing is folded onto the top bits. -/
theorem mixed_div (state : UInt64) : mixed state / 2 ^ 59 = state.toNat / 2 ^ 59 := by
  have hOut : state.toNat >>> 77 = 0 := by
    rw [Nat.shiftRight_eq_div_pow, Nat.div_eq_of_lt (state.toNat_lt.trans (by norm_num))]
  rw [← Nat.shiftRight_eq_div_pow, mixed, Nat.shiftRight_xor_distrib, ← Nat.shiftRight_add, hOut, Nat.xor_zero,
    Nat.shiftRight_eq_div_pow]

/-- A word with its low bits moved to its top. -/
def rotated (word count : ℕ) : ℕ := word / 2 ^ count + word % 2 ^ count * 2 ^ (32 - count)

theorem two_pow_split {count : ℕ} (hCount : count ≤ 32) : 2 ^ 32 = 2 ^ count * 2 ^ (32 - count) := by
  rw [← Nat.pow_add, Nat.add_sub_cancel' hCount]

theorem div_two_pow_lt {word count : ℕ} (hCount : count ≤ 32) (hWord : word < 2 ^ 32) :
    word / 2 ^ count < 2 ^ (32 - count) :=
  Nat.div_lt_of_lt_mul (hWord.trans_eq (two_pow_split hCount))

/-- The two parts of a word are the digits of the rotated one. -/
theorem rotated_inj {word other count : ℕ} (hCount : count ≤ 32) (hWord : word < 2 ^ 32) (hOther : other < 2 ^ 32) :
    rotated word count = rotated other count ↔ word = other := by
  have hDigits {n : ℕ} (hn : n < 2 ^ 32) :
      rotated n count % 2 ^ (32 - count) = n / 2 ^ count ∧ rotated n count / 2 ^ (32 - count) = n % 2 ^ count := by
    have hHigh := div_two_pow_lt hCount hn
    rw [rotated, Nat.add_mul_mod_self_right, Nat.mod_eq_of_lt hHigh, Nat.add_mul_div_right _ _ (Nat.two_pow_pos _),
      Nat.div_eq_of_lt hHigh, Nat.zero_add]
    exact ⟨rfl, rfl⟩
  refine ⟨fun hSame => ?_, congrArg (rotated · count)⟩
  rw [← Nat.div_add_mod word (2 ^ count), ← Nat.div_add_mod other (2 ^ count), ← (hDigits hWord).1,
    ← (hDigits hWord).2, ← (hDigits hOther).1, ← (hDigits hOther).2, hSame]

/-- Shifting to both sides rotates. A count of zero leaves the word alone, since shifts by all bits are none. -/
theorem toNat_shifts (word : UInt32) {count : UInt32} (hCount : count.toNat < 32) :
    ((word >>> count) ||| (word <<< (32 - count))).toNat = rotated word.toNat count.toNat := by
  have hWord := word.toNat_lt
  rw [UInt32.toNat_or, UInt32.toNat_shiftRight, UInt32.toNat_shiftLeft, Nat.mod_eq_of_lt hCount]
  rcases Nat.eq_zero_or_pos count.toNat with hNone | hSome
  · have hAll : (32 - count).toNat % 32 = 0 := by
      rw [UInt32.toNat_sub, hNone]
      rfl
    rw [hAll, hNone, rotated, Nat.shiftRight_zero, Nat.shiftLeft_zero, Nat.mod_eq_of_lt hWord, Nat.or_self]
    omega
  · have hLeft : (32 - count).toNat % 32 = 32 - count.toNat := by
      rw [UInt32.toNat_sub]
      change (2 ^ 32 - count.toNat + 32) % 2 ^ 32 % 32 = _
      omega
    have hLow : word.toNat <<< (32 - count.toNat) % 2 ^ 32 =
        (word.toNat % 2 ^ count.toNat) <<< (32 - count.toNat) := by
      rw [Nat.shiftLeft_eq, two_pow_split hCount.le, Nat.mul_mod_mul_right, Nat.shiftLeft_eq]
    rw [hLeft, hLow, Nat.shiftRight_eq_div_pow, Nat.or_comm,
      ← Nat.shiftLeft_add_eq_or_of_lt (div_two_pow_lt hCount.le hWord), Nat.shiftLeft_eq, Nat.add_comm, rotated]

/-- A number is the middle of the folded state, rotated as far as the top of the state says. -/
theorem toNat_output (state : UInt64) :
    (output state).toNat = rotated (mixed state / 2 ^ 27 % 2 ^ 32) (state.toNat / 2 ^ 59) := by
  have hTop : state.toNat / 2 ^ 59 < 32 := by
    have hState := state.toNat_lt
    omega
  have hFolded : (((state >>> 18) ^^^ state) >>> 27).toUInt32.toNat = mixed state / 2 ^ 27 % 2 ^ 32 := by
    rw [UInt64.toNat_toUInt32, UInt64.toNat_shiftRight, UInt64.toNat_xor, UInt64.toNat_shiftRight, Nat.xor_comm,
      Nat.shiftRight_eq_div_pow]
    rfl
  have hRotation : (state >>> 59).toUInt32.toNat = state.toNat / 2 ^ 59 := by
    rw [UInt64.toNat_toUInt32, UInt64.toNat_shiftRight, Nat.shiftRight_eq_div_pow]
    change state.toNat / 2 ^ 59 % 2 ^ 32 = _
    omega
  rw [output, toNat_shifts _ (hRotation.trans_lt hTop), hFolded, hRotation]

/-- How far the number of a state is rotated, the number, and the bits of the folded state below it. -/
def parts (state : UInt64) : Fin 32 × UInt32 × Fin (2 ^ 27) :=
  (Fin.ofNat 32 (state.toNat / 2 ^ 59), output state, Fin.ofNat (2 ^ 27) (mixed state))

/-- A state is told by its parts. -/
theorem parts_injective : Function.Injective parts := by
  intro state other hSame
  simp only [parts, Prod.mk.injEq, Fin.ext_iff, Fin.val_ofNat, ← UInt32.toNat_inj, toNat_output] at hSame
  obtain ⟨hTop, hNumber, hLow⟩ := hSame
  have hState := state.toNat_lt
  have hOther := other.toNat_lt
  have hRotation : state.toNat / 2 ^ 59 = other.toNat / 2 ^ 59 := by omega
  rw [hRotation, rotated_inj (by omega) (Nat.mod_lt _ (by norm_num)) (Nat.mod_lt _ (by norm_num))] at hNumber
  have hMixed := hRotation
  rw [← mixed_div, ← mixed_div] at hMixed
  exact mixed_injective (by omega)

/-- There is a state for every rotation, number and low bits. -/
theorem parts_bijective : Function.Bijective parts := by
  refine (Fintype.bijective_iff_injective_and_card _).mpr ⟨parts_injective, ?_⟩
  rw [Fintype.card_prod, Fintype.card_prod, Fintype.card_fin, Fintype.card_fin, ← FinEnum.card_eq_fintypeCard,
    ← FinEnum.card_eq_fintypeCard, FinEnum.card_UInt64, FinEnum.card_UInt32]
  norm_num

/-- A number stands for as many states as there are rotations and low bits. -/
theorem card_output_eq (word : UInt32) :
    (Finset.univ.filter fun state => output state = word).card = 2 ^ 32 := by
  have hParts : (Finset.univ.filter fun state => output state = word).card =
      (Finset.univ ×ˢ ({word} ×ˢ Finset.univ) : Finset (Fin 32 × UInt32 × Fin (2 ^ 27))).card := by
    refine Finset.card_bijective parts parts_bijective fun state => ?_
    simp [parts, eq_comm]
  rw [hParts, Finset.card_product, Finset.card_product, Finset.card_singleton, Finset.card_univ, Finset.card_univ,
    Fintype.card_fin, Fintype.card_fin]
  norm_num

/-- The numbers that are drawn are the outputs of the states in turn. -/
theorem fst_draws (count : ℕ) (g : Pcg) :
    (draws count g).1 = (List.range count).map fun i => output (skip i g).state := by
  induction count generalizing g with
  | zero => rfl
  | succ count ih =>
      rw [List.range_succ_eq_map, List.map_cons, List.map_map]
      exact congrArg (output g.state :: ·) (ih g.next)

/-- Within the period no state comes back. -/
theorem state_skip_injOn {g : Pcg} (hOdd : g.inc.toNat % 2 = 1) :
    Set.InjOn (fun i => (skip i g).state) (Finset.range (2 ^ 64)) := by
  have hApart {i j : ℕ} (hLess : i < j) (hj : j < 2 ^ 64) : (skip j g).state ≠ (skip i g).state := by
    intro hSame
    rw [← Nat.add_sub_cancel' hLess.le, skip_add,
      state_skip_eq_iff (by rwa [inc_skip])] at hSame
    exact absurd (Nat.le_of_dvd (Nat.sub_pos_of_lt hLess) hSame) (by omega)
  intro i hi j hj hSame
  rcases lt_trichotomy i j with hLess | hEqual | hMore
  · exact absurd hSame.symm (hApart hLess (Finset.mem_range.mp hj))
  · exact hEqual
  · exact absurd hSame (hApart hMore (Finset.mem_range.mp hi))

/-- In a period every state is passed through. -/
theorem image_state_skip {g : Pcg} (hOdd : g.inc.toNat % 2 = 1) :
    (Finset.range (2 ^ 64)).image (fun i => (skip i g).state) = Finset.univ := by
  apply Finset.eq_univ_of_card
  rw [Finset.card_image_of_injOn (state_skip_injOn hOdd), Finset.card_range, ← FinEnum.card_eq_fintypeCard,
    FinEnum.card_UInt64]

/-- So the numbers of a period are those of all states. -/
theorem count_draws {g : Pcg} (hOdd : g.inc.toNat % 2 = 1) (word : UInt32) :
    (draws (2 ^ 64) g).1.count word = (Finset.univ.filter fun state => output state = word).card := by
  have hPlaces : (draws (2 ^ 64) g).1.count word =
      Nat.count (fun i => output (skip i g).state = word) (2 ^ 64) := by
    rw [fst_draws, List.count, List.countP_map]
    rfl
  rw [hPlaces, Nat.count_eq_card_filter_range, ← image_state_skip hOdd, Finset.filter_image,
    Finset.card_image_of_injOn ((state_skip_injOn hOdd).mono fun _ => ?_)]
  exact fun hPlace => (Finset.mem_filter.mp hPlace).1

/-- Every number is as likely as any other. Whatever stream a generator is on, there are as many states as there are
numbers from which it gives a number next. And however a generator is seeded and however many numbers it has
given, among those that it gives in the whole period to come each is found so many times. -/
theorem output_balanced (word : UInt32) :
    (∀ inc, (Finset.univ.filter fun state => (draw ⟨state, inc⟩).1 = word).card = 2 ^ 32) ∧
      ∀ (start stream : UInt64) (given : ℕ),
        (draws (2 ^ 64) (draws given (seeded start stream)).2).1.count word = 2 ^ 32 := by
  refine ⟨fun _ => card_output_eq word, fun start stream given => ?_⟩
  rw [count_draws ?_ word, card_output_eq]
  rw [snd_draws, inc_skip]
  exact inc_seeded_odd start stream

end RayTracer.Pcg
