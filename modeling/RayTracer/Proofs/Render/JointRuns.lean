import Mathlib
import RayTracer.Proofs.Render.SamplingRules
import RayTracer.Scene.Material

/-! Several computations run from one generator, side by side. They stay together as long as all of them draw
the same numbers: then all give results, which can be related, and leave one generator, or all stop at one
fault. That is proved step by step, along the way the computations are put together. -/

namespace RayTracer

variable {ι β γ : Type} {lone : Prop}

/-- Outcomes of several computations go together: all are results, and these are related, or all are one
fault. Where a computation may stop alone, there may also be some fault among them. -/
def Agree (lone : Prop) (R : (ι → β) → Prop) (outcomes : ι → Except Fault β) : Prop :=
  (∃ results, (∀ i, outcomes i = .ok (results i)) ∧ R results) ∨
    (∃ fault, ∀ i, outcomes i = .error fault) ∨ lone ∧ ∃ i fault, outcomes i = .error fault

/-- Nothing is asked of outcomes that need not be related and may be faults alone. -/
theorem agree_of_lone (hLone : lone) (outcomes : ι → Except Fault β) :
    Agree lone (fun _ => True) outcomes := by
  by_cases hFault : ∃ i fault, outcomes i = .error fault
  · exact Or.inr (Or.inr ⟨hLone, hFault⟩)
  · have hResult (i : ι) : ∃ result, outcomes i = .ok result := by
      cases hOutcome : outcomes i with
      | ok result => exact ⟨result, rfl⟩
      | error fault => exact absurd ⟨i, fault, hOutcome⟩ hFault
    choose results hResults using hResult
    exact Or.inl ⟨results, hResults, trivial⟩

theorem Agree.map {outcomes : ι → Except Fault β} {R : (ι → β) → Prop} {S : (ι → γ) → Prop} {f : ι → β → γ}
    (h : Agree lone R outcomes) (hKept : ∀ results, R results → S fun i => f i (results i)) :
    Agree lone S fun i => (outcomes i).map (f i) := by
  rcases h with ⟨results, hResults, hRelated⟩ | ⟨fault, hFault⟩ | ⟨hLone, i, fault, hFault⟩
  · exact Or.inl ⟨_, fun i => congrArg (Except.map (f i)) (hResults i), hKept results hRelated⟩
  · exact Or.inr (Or.inl ⟨fault, fun i => congrArg (Except.map (f i)) (hFault i)⟩)
  · exact Or.inr (Or.inr ⟨hLone, i, fault, congrArg (Except.map (f i)) hFault⟩)

namespace Sampling

/-- Whatever the generator that all start from, the outcomes go together and one generator is left. -/
def Together (lone : Prop) (R : (ι → β) → Prop) (actions : ι → Sampling β) : Prop :=
  ∀ generator, Agree lone
    (fun results => (∃ rest, ∀ i, (results i).2 = rest) ∧ R fun i => (results i).1)
    fun i => (actions i).run generator

theorem together_pure {R : (ι → β) → Prop} {results : ι → β} (h : R results) :
    Together lone R fun i => pure (results i) :=
  fun generator => Or.inl ⟨fun i => (results i, generator), fun _ => rfl, ⟨generator, fun _ => rfl⟩, h⟩

/-- A computation that is run several times gives one result. -/
theorem together_const (action : Sampling β) :
    Together lone (fun results => ∃ result, results = fun _ => result) fun _ : ι => action := by
  intro generator
  cases hRun : action.run generator with
  | ok outcome => exact Or.inl ⟨fun _ => outcome, fun _ => hRun, ⟨outcome.2, fun _ => rfl⟩, outcome.1, rfl⟩
  | error fault => exact Or.inr (Or.inl ⟨fault, fun _ => hRun⟩)

/-- Nothing is drawn for outcomes that are there already. -/
theorem together_of_agree {R : (ι → β) → Prop} {outcomes : ι → Except Fault β}
    (h : Agree lone R outcomes) : Together lone R fun i => (outcomes i : Sampling β) := by
  intro generator
  have hRun (i : ι) : (outcomes i : Sampling β).run generator = (outcomes i).map (·, generator) := by
    cases outcomes i <;> rfl
  simp only [hRun]
  exact h.map fun results hRelated => ⟨⟨generator, fun _ => rfl⟩, hRelated⟩

/-- Chains whose steps run together run together. -/
theorem Together.bind {actions : ι → Sampling β} {next : ι → β → Sampling γ} {R : (ι → β) → Prop}
    {S : (ι → γ) → Prop} (hFirst : Together lone R actions)
    (hNext : ∀ results, R results → Together lone S fun i => next i (results i)) :
    Together lone S fun i => actions i >>= next i := by
  intro generator
  rcases hFirst generator with ⟨results, hRun, ⟨rest, hRest⟩, hRelated⟩ | ⟨fault, hFault⟩ | hAlone
  -- All go on from the one generator that the first steps left.
  · have hThen (i : ι) : (actions i >>= next i).run generator = (next i (results i).1).run rest := by
      have hRunFirst : (actions i).run generator = .ok (results i) := hRun i
      rw [StateT.run_bind, hRunFirst, ← hRest i]
      rfl
    simpa only [hThen] using hNext _ hRelated rest
  · exact Or.inr (Or.inl ⟨fault, fun i => run_bind_of_error (hFault i)⟩)
  · obtain ⟨hLone, i, fault, hFault⟩ := hAlone
    exact Or.inr (Or.inr ⟨hLone, i, fault, run_bind_of_error hFault⟩)

/-- A step taken a number of times gives that number of results, each related to those at its place. -/
theorem Together.mapM_replicate {item : ι → β} {step : ι → β → Sampling γ} {R : (ι → γ) → Prop}
    (h : Together lone R fun i => step i (item i)) (count : Nat) :
    Together lone
      (fun results => ∃ places : List (ι → γ), (∀ place ∈ places, R place) ∧
        results = fun i => places.map (· i))
      fun i => (List.replicate count (item i)).mapM (step i) := by
  induction count with
  | zero => exact together_pure ⟨[], fun _ hMem => absurd hMem List.not_mem_nil, rfl⟩
  | succ count ih =>
      simp only [List.replicate_succ, List.mapM_cons]
      refine h.bind fun first hFirst => ih.bind ?_
      rintro _ ⟨places, hPlaces, rfl⟩
      exact together_pure ⟨first :: places, List.forall_mem_cons.mpr ⟨hFirst, hPlaces⟩, rfl⟩

end Sampling

end RayTracer
