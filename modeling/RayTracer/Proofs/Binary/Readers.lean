import Mathlib
import RayTracer.Binary.ByteReader

/-! What readers read. A reader satisfies a property if all that it can read has it, whatever the bytes. Steps
that fail satisfy anything, and of a chain of steps those count that the property is about. -/

namespace RayTracer

section Steps

variable {m : Type → Type} [Monad m] [LawfulMonad m] {β γ : Type}

/-- Where the result of a step does not matter, what comes after it decides. -/
theorem satisfiesM_next {P : γ → Prop} {step : m β} {next : β → m γ}
    (h : ∀ found, SatisfiesM P (next found)) : SatisfiesM P (step >>= next) :=
  SatisfiesM.trivial.bind fun found _ => h found

theorem satisfiesM_none {P : β → Prop} : SatisfiesM P (none : Option β) :=
  SatisfiesM_Option_eq.mpr fun _ hNone => nomatch hNone

/-- A loop over items gives as many results. -/
theorem satisfiesM_mapM (step : β → Option γ) (items : List β) :
    SatisfiesM (fun results => results.length = items.length) (items.mapM step) := by
  induction items with
  | nil => exact SatisfiesM.pure rfl
  | cons item items ih =>
      rw [List.mapM_cons]
      refine satisfiesM_next fun result => ih.bind fun results hLength => SatisfiesM.pure ?_
      rw [List.length_cons, List.length_cons, hLength]

end Steps

namespace ByteReader

variable {β : Type} {P : β → Prop}

/-- What a reader satisfies holds of everything that it reads. -/
theorem satisfiesM_iff {reader : ByteReader β} :
    SatisfiesM P reader ↔ ∀ bytes found rest, reader bytes = some (found, rest) → P found := by
  rw [SatisfiesM_StateT_eq]
  constructor
  · intro h bytes found rest hRead
    exact SatisfiesM_Option_eq.mp (h bytes) (found, rest) hRead
  · intro h bytes
    rw [SatisfiesM_Option_eq]
    exact fun read hRead => h bytes read.1 read.2 hRead

/-- What holds of a reader holds of what it makes of any bytes. -/
theorem satisfiesM_apply {reader : ByteReader β} (h : SatisfiesM P reader) (bytes : List UInt8) :
    SatisfiesM (fun read => P read.1) (reader bytes) := by
  rw [SatisfiesM_Option_eq]
  exact fun read hRead => satisfiesM_iff.mp h _ _ _ hRead

theorem satisfiesM_lift {found : Option β} (h : SatisfiesM P found) :
    SatisfiesM P (liftM found : ByteReader β) := by
  rw [satisfiesM_iff]
  intro bytes result rest hRead
  cases found with
  | none => cases hRead
  | some value =>
      obtain ⟨rfl, -⟩ := Prod.mk.inj (Option.some.inj hRead)
      exact SatisfiesM_Option_eq.mp h _ rfl

/-- A reader that always fails satisfies anything. -/
theorem satisfiesM_failure : SatisfiesM P (failure : ByteReader β) :=
  satisfiesM_iff.mpr fun _ _ _ hRead => nomatch hRead

/-- Behind a guard its condition holds. -/
theorem satisfiesM_guard (p : Prop) [Decidable p] : SatisfiesM (fun _ => p) (guard p : ByteReader Unit) := by
  unfold guard
  split
  next hHolds => exact SatisfiesM.pure hHolds
  next => exact satisfiesM_failure

/-- One byte tells a number of eight bits. -/
theorem satisfiesM_nat8 : SatisfiesM (· < UInt8.size) nat8 :=
  SatisfiesM.bind SatisfiesM.trivial fun byte _ => SatisfiesM.pure byte.toNat_lt

theorem satisfiesM_nat16 : SatisfiesM (· < UInt16.size) nat16 := by
  refine satisfiesM_nat8.bind fun low hLow => satisfiesM_nat8.bind fun high hHigh => SatisfiesM.pure ?_
  simp only [UInt8.size, UInt16.size] at hLow hHigh ⊢
  omega

theorem satisfiesM_nat32 (order : ByteOrder) : SatisfiesM (· < UInt32.size) (nat32 order) :=
  SatisfiesM.bind SatisfiesM.trivial fun word _ => SatisfiesM.pure word.toNat_lt

end ByteReader

end RayTracer
