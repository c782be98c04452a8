import Mathlib
import RayTracer.Proofs.Exact.Reals
import RayTracer.Proofs.Random.Period
import RayTracer.Scene.Material

/-! Computations that draw random numbers. Some of them end without a fault whatever is drawn, of others only
the results are known, or how many numbers were drawn for them. What the results have in common for all
generators is proved step by step, along the way the computations are put together. -/

namespace RayTracer.Sampling

variable {β γ : Type}

section Runs

variable {action : Sampling β} {next : β → Sampling γ} {generator rest : Pcg} {result : β} {fault : Fault}

theorem run_bind_of_ok (h : action.run generator = .ok (result, rest)) :
    (action >>= next).run generator = (next result).run rest := by
  rw [StateT.run_bind, h]
  rfl

theorem run_bind_of_error (h : action.run generator = .error fault) :
    (action >>= next).run generator = .error fault := by
  rw [StateT.run_bind, h]
  rfl

theorem run_lift_of_ok {outcome : Except Fault β} (h : outcome = .ok result) (generator : Pcg) :
    (outcome : Sampling β).run generator = .ok (result, generator) := by
  rw [h]
  rfl

theorem run_lift_of_error {outcome : Except Fault β} (h : outcome = .error fault) (generator : Pcg) :
    (outcome : Sampling β).run generator = .error fault := by
  rw [h]
  rfl

/-- A run that gives a result has given one at its first step. -/
theorem exists_of_run_bind {final : γ} {last : Pcg}
    (h : (action >>= next).run generator = .ok (final, last)) :
    ∃ result rest, action.run generator = .ok (result, rest) ∧ (next result).run rest = .ok (final, last) := by
  cases hAction : action.run generator with
  | error fault =>
      rw [run_bind_of_error hAction] at h
      cases h
  | ok outcome =>
      rw [run_bind_of_ok hAction] at h
      exact ⟨outcome.1, outcome.2, rfl, h⟩

theorem of_run_lift {outcome : Except Fault β}
    (h : (outcome : Sampling β).run generator = .ok (result, rest)) :
    outcome = .ok result ∧ rest = generator := by
  cases outcome with
  | error fault => cases h
  | ok given =>
      obtain ⟨rfl, rfl⟩ := Prod.mk.inj (Except.ok.inj h)
      exact ⟨rfl, rfl⟩

end Runs

/-- Whatever the generator, a result with a property is given. -/
def Gives (action : Sampling β) (P : β → Prop) : Prop :=
  ∀ generator, ∃ result rest, action.run generator = .ok (result, rest) ∧ P result

theorem gives_pure {P : β → Prop} {result : β} (h : P result) : Gives (pure result) P :=
  fun generator => ⟨result, generator, rfl, h⟩

theorem Gives.mono {action : Sampling β} {P Q : β → Prop} (h : action.Gives P)
    (hWeaker : ∀ result, P result → Q result) : action.Gives Q := by
  intro generator
  obtain ⟨result, rest, hRun, hResult⟩ := h generator
  exact ⟨result, rest, hRun, hWeaker result hResult⟩

/-- A chain gives a result if its steps do. -/
theorem Gives.bind {action : Sampling β} {next : β → Sampling γ} {P : β → Prop} {Q : γ → Prop}
    (hFirst : action.Gives P) (hNext : ∀ result, P result → (next result).Gives Q) :
    Gives (action >>= next) Q := by
  intro generator
  obtain ⟨result, rest, hRun, hResult⟩ := hFirst generator
  obtain ⟨final, last, hRunNext, hFinal⟩ := hNext result hResult rest
  exact ⟨final, last, (run_bind_of_ok hRun).trans hRunNext, hFinal⟩

theorem gives_of_eq_ok {action : Except Fault β} {result : β} (h : action = .ok result) :
    Gives (action : Sampling β) (· = result) :=
  fun generator => ⟨result, generator, run_lift_of_ok h generator, rfl⟩

/-- A step taken a number of times gives that number of results. -/
theorem Gives.mapM_replicate {step : β → Sampling γ} {item : β} {P : γ → Prop}
    (h : (step item).Gives P) (count : Nat) :
    Gives ((List.replicate count item).mapM step)
      fun results => results.length = count ∧ ∀ result ∈ results, P result := by
  induction count with
  | zero => exact gives_pure ⟨rfl, fun _ hMem => absurd hMem List.not_mem_nil⟩
  | succ count ih =>
      rw [List.replicate_succ, List.mapM_cons]
      refine h.bind fun first hFirst => ih.bind fun results hResults => gives_pure ⟨?_, ?_⟩
      · rw [List.length_cons, hResults.1]
      · intro result hMem
        rcases List.mem_cons.mp hMem with rfl | hMem
        · exact hFirst
        · exact hResults.2 result hMem

/-- Whatever the generator, a result has a property if there is one. -/
def OnlyGives (action : Sampling β) (P : β → Prop) : Prop :=
  ∀ generator result rest, action.run generator = .ok (result, rest) → P result

theorem onlyGives_pure {P : β → Prop} {result : β} (h : P result) : OnlyGives (pure result) P := by
  intro generator given rest hRun
  obtain ⟨rfl, rfl⟩ := Prod.mk.inj (Except.ok.inj hRun)
  exact h

theorem onlyGives_trivial (action : Sampling β) : OnlyGives action fun _ => True :=
  fun _ _ _ _ => trivial

theorem OnlyGives.mono {action : Sampling β} {P Q : β → Prop} (h : action.OnlyGives P)
    (hWeaker : ∀ result, P result → Q result) : action.OnlyGives Q :=
  fun generator result rest hRun => hWeaker result (h generator result rest hRun)

/-- What the steps of a chain give is all that the chain can give. -/
theorem OnlyGives.bind {action : Sampling β} {next : β → Sampling γ} {P : β → Prop} {Q : γ → Prop}
    (hFirst : action.OnlyGives P) (hNext : ∀ result, P result → (next result).OnlyGives Q) :
    OnlyGives (action >>= next) Q := by
  intro generator final last hRun
  obtain ⟨result, rest, hRun, hRunNext⟩ := exists_of_run_bind hRun
  exact hNext result (hFirst generator result rest hRun) rest final last hRunNext

theorem onlyGives_lift {outcome : Except Fault β} {P : β → Prop}
    (h : ∀ result, outcome = .ok result → P result) : OnlyGives (outcome : Sampling β) P :=
  fun _ result _ hRun => h result (of_run_lift hRun).1

/-- A step that is repeated gives as many results of its kind. -/
theorem OnlyGives.mapM_replicate {step : β → Sampling γ} {item : β} {P : γ → Prop}
    (h : (step item).OnlyGives P) (count : Nat) :
    OnlyGives ((List.replicate count item).mapM step)
      fun results => results.length = count ∧ ∀ result ∈ results, P result := by
  induction count with
  | zero => exact onlyGives_pure ⟨rfl, fun _ hMem => absurd hMem List.not_mem_nil⟩
  | succ count ih =>
      rw [List.replicate_succ, List.mapM_cons]
      refine h.bind fun first hFirst => ih.bind fun results hResults => onlyGives_pure ⟨?_, ?_⟩
      · rw [List.length_cons, hResults.1]
      · exact List.forall_mem_cons.mpr ⟨hFirst, hResults.2⟩

/-- What every step of a loop keeps is kept by the loop. -/
theorem OnlyGives.foldlM {step : β → γ → Sampling β} {P : β → Prop}
    (hStep : ∀ handed item, P handed → (step handed item).OnlyGives P) (items : List γ) {init : β} (hInit : P init) :
    OnlyGives (items.foldlM step init) P := by
  induction items generalizing init with
  | nil => exact onlyGives_pure hInit
  | cons item items ih =>
      rw [List.foldlM_cons]
      exact (hStep init item hInit).bind fun next hNext => ih hNext

/-- A word is taken as its share of the greatest word. -/
theorem unitOf_exact (word : UInt32) : (Pcg.unitOf word : ℝ) = word.toNat / 4294967295 := by
  rw [Pcg.unitOf]
  norm_num [Scalar.ofNat]

/-- The number of a draw is one of the unit interval, both ends included. -/
theorem unitOf_mem_Icc (word : UInt32) : (Pcg.unitOf word : ℝ) ∈ Set.Icc 0 1 := by
  have hWord : (word.toNat : ℝ) ≤ 4294967295 := by
    exact_mod_cast Nat.le_of_lt_succ word.toNat_lt
  rw [unitOf_exact]
  exact ⟨by positivity, div_le_one_of_le₀ hWord (by norm_num)⟩

/-- Samples are in the unit interval, its ends included. -/
theorem onlyGives_sampleUnit : OnlyGives (Pcg.sampleUnit : Sampling ℝ) (· ∈ Set.Icc 0 1) := by
  intro generator result rest hRun
  obtain ⟨rfl, rfl⟩ := Prod.mk.inj (Except.ok.inj hRun)
  exact unitOf_mem_Icc _

/-- Whatever the generator, a result and the number of draws that led to it are related. -/
def Spends (action : Sampling β) (P : β → ℕ → Prop) : Prop :=
  ∀ generator result rest, action.run generator = .ok (result, rest) →
    ∃ count, rest = Pcg.skip count generator ∧ P result count

theorem spends_pure {P : β → ℕ → Prop} {result : β} (h : P result 0) : Spends (pure result) P := by
  intro generator given rest hRun
  obtain ⟨rfl, rfl⟩ := Prod.mk.inj (Except.ok.inj hRun)
  exact ⟨0, rfl, h⟩

theorem spends_lift (outcome : Except Fault β) : Spends (outcome : Sampling β) fun _ count => count = 0 :=
  fun _ _ _ hRun => ⟨0, (of_run_lift hRun).2, rfl⟩

/-- A sample is one draw. -/
theorem spends_sampleUnit {α : Type} [Scalar α] :
    Spends (Pcg.sampleUnit : Sampling α) fun _ count => count = 1 := by
  intro generator result rest hRun
  obtain ⟨rfl, rfl⟩ := Prod.mk.inj (Except.ok.inj hRun)
  exact ⟨1, rfl, rfl⟩

theorem Spends.mono {action : Sampling β} {P Q : β → ℕ → Prop} (h : action.Spends P)
    (hWeaker : ∀ result count, P result count → Q result count) : action.Spends Q := by
  intro generator result rest hRun
  obtain ⟨count, hRest, hResult⟩ := h generator result rest hRun
  exact ⟨count, hRest, hWeaker result count hResult⟩

/-- The draws of two steps add up. -/
theorem Spends.bind {action : Sampling β} {next : β → Sampling γ} {P : β → ℕ → Prop} {Q : γ → ℕ → Prop}
    (hFirst : action.Spends P)
    (hNext : ∀ result count, P result count → (next result).Spends fun final more => Q final (count + more)) :
    Spends (action >>= next) Q := by
  intro generator final last hRun
  obtain ⟨result, rest, hRun, hRunNext⟩ := exists_of_run_bind hRun
  obtain ⟨count, hRest, hResult⟩ := hFirst generator result rest hRun
  obtain ⟨more, hLast, hFinal⟩ := hNext result count hResult rest final last hRunNext
  refine ⟨count + more, ?_, hFinal⟩
  rw [hLast, hRest, Pcg.skip_add]

/-- A step taken a number of times draws what its results say together. -/
theorem Spends.mapM_replicate {step : β → Sampling γ} {item : β} {cost : γ → ℕ}
    (h : (step item).Spends fun result count => count = cost result) (times : ℕ) :
    Spends ((List.replicate times item).mapM step)
      fun results count => count = (results.map cost).sum := by
  induction times with
  | zero => exact spends_pure rfl
  | succ times ih =>
      rw [List.replicate_succ, List.mapM_cons]
      refine h.bind ?_
      rintro first _ rfl
      refine ih.bind ?_
      rintro results _ rfl
      refine spends_pure ?_
      rw [List.map_cons, List.sum_cons, Nat.add_zero]

end RayTracer.Sampling
