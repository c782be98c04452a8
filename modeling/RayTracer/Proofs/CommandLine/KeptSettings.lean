import Mathlib
import RayTracer.CommandLine.Command
import RayTracer.Proofs.Outcomes

/-! What reading arguments keeps. Settings change by options only, one at a time, so a property of the settings that
no option takes away holds of whatever is read. -/

namespace RayTracer.CommandLine

variable {σ τ β : Type} {P : σ → Prop}

/-- An option that keeps a property of the settings, whatever its value is. -/
def Effect.Keeps (P : σ → Prop) : Effect σ → Prop
  | .flag set => ∀ settings, P settings → P (set settings)
  | .value read => ∀ text set, read text = some set → ∀ settings, P settings → P (set settings)

/-- An option keeps what setting any value that it reads keeps. -/
theorem keeps_option {name : String} {description : Description} {read : String → Option β} {set : β → σ → σ}
    (hSet : ∀ text value, read text = some value → ∀ settings, P settings → P (set value settings)) :
    (option name description read set).effect.Keeps P := by
  intro text change hRead
  obtain ⟨value, hValue, rfl⟩ := Option.map_eq_some_iff.mp hRead
  exact hSet text value hValue

/-- A rule on a part of the settings keeps what it kept of the part. -/
theorem Effect.Keeps.lift {rule : Rule σ} {modify : (σ → σ) → τ → τ} {part : τ → σ}
    (hModify : ∀ change whole, part (modify change whole) = change (part whole)) (h : rule.effect.Keeps P) :
    (rule.lift modify).effect.Keeps fun whole => P (part whole) := by
  obtain ⟨name, description, set | read⟩ := rule
  case flag =>
      intro whole hWhole
      rw [hModify]
      exact h _ hWhole
  case value =>
      intro text change hRead whole hWhole
      obtain ⟨set, hSet, rfl⟩ := Option.map_eq_some_iff.mp hRead
      rw [hModify]
      exact h text set hSet _ hWhole

variable {rules : List (Rule σ)} {limit : ℕ} {collected after : Collected σ}

/-- The rule that is found for a name is one of the rules. -/
theorem keeps_of_effect? (hRules : ∀ rule ∈ rules, rule.effect.Keeps P) {name : String} {effect : Effect σ}
    (h : effect? rules name = some effect) : effect.Keeps P := by
  obtain ⟨rule, hRule, rfl⟩ := Option.map_eq_some_iff.mp h
  exact hRules rule (List.mem_of_find?_eq_some hRule)

theorem keeps_use {name : String} {set : σ → σ} (hSet : ∀ settings, P settings → P (set settings))
    (hKept : P collected.settings) (h : collected.use name set = .ok after) : P after.settings := by
  unfold Collected.use at h
  split at h
  next => cases h
  next =>
      obtain rfl := Except.ok.inj h
      exact hSet _ hKept

theorem keeps_useValue {name value : String} {read : String → Option (σ → σ)} (hRead : (Effect.value read).Keeps P)
    (hKept : P collected.settings) (h : collected.useValue name read value = .ok after) : P after.settings := by
  unfold Collected.useValue at h
  split at h
  next set hSet => exact keeps_use (hRead value set hSet) hKept h
  next => cases h

/-- Arguments without a name change no settings. -/
theorem settings_addPositional {argument : String} (h : collected.addPositional limit argument = .ok after) :
    after.settings = collected.settings := by
  unfold Collected.addPositional at h
  split at h
  next =>
      obtain rfl := Except.ok.inj h
      rfl
  next => cases h

/-- One argument keeps what all options keep, and an option that still needs its value is one of them. -/
def Step.Keeps (P : σ → Prop) : Step σ → Prop
  | .done collected => P collected.settings
  | .needsValue _ read => (Effect.value read).Keeps P

/-- One argument keeps what every rule keeps. -/
theorem keeps_readOne (hRules : ∀ rule ∈ rules, rule.effect.Keeps P) (hKept : P collected.settings)
    {argument : String} {step : Step σ} (h : readOne rules limit collected argument = .ok step) : step.Keeps P := by
  unfold readOne at h
  split at h
  next =>
      dsimp only at h
      split at h
      next set hEffect _ =>
        obtain ⟨after, hUsed, rfl⟩ := map_eq_ok_iff.mp h
        exact keeps_use (keeps_of_effect? hRules hEffect) hKept hUsed
      next => cases h
      next read value hEffect _ =>
        obtain ⟨after, hUsed, rfl⟩ := map_eq_ok_iff.mp h
        exact keeps_useValue (keeps_of_effect? hRules hEffect) hKept hUsed
      next read hEffect _ =>
        obtain rfl := Except.ok.inj h
        exact keeps_of_effect? hRules hEffect
      next => cases h
      next => cases h
  next =>
      split at h
      next => cases h
      next =>
        obtain ⟨after, hAdded, rfl⟩ := map_eq_ok_iff.mp h
        change P after.settings
        rwa [settings_addPositional hAdded]

/-- Reading arguments keeps what all options keep. -/
theorem keeps_readArguments (hRules : ∀ rule ∈ rules, rule.effect.Keeps P) {arguments : List String}
    (hKept : P collected.settings) (h : readArguments rules limit arguments collected = .ok after) :
    P after.settings := by
  induction arguments, collected using readArguments.induct rules limit with
  | case1 collected =>
      obtain rfl := Except.ok.inj h
      exact hKept
  | case2 rest collected =>
      rw [readArguments, if_pos rfl] at h
      refine of_foldlM_eq_ok (P := fun handed => P handed.settings) (fun handed item next hHanded hNext => ?_) hKept h
      rwa [settings_addPositional hNext]
  | case3 argument rest collected hDashes stop hStop =>
      rw [readArguments, if_neg hDashes, hStop] at h
      cases h
  | case4 argument rest collected hDashes next hNext ih =>
      rw [readArguments, if_neg hDashes, hNext] at h
      exact ih (keeps_readOne hRules hKept hNext) h
  | case5 argument collected hDashes name read hNeeds =>
      rw [readArguments, if_neg hDashes, hNeeds] at h
      cases h
  | case6 argument collected hDashes name read hNeeds value others hOption =>
      rw [readArguments, if_neg hDashes, hNeeds] at h
      simp only [hOption, ↓reduceIte] at h
      cases h
  | case7 argument collected hDashes name read hNeeds value others hOption stop hStop =>
      rw [readArguments, if_neg hDashes, hNeeds] at h
      simp only [hOption, hStop] at h
      cases h
  | case8 argument collected hDashes name read hNeeds value others hOption next hNext ih =>
      rw [readArguments, if_neg hDashes, hNeeds] at h
      simp only [hOption, hNext] at h
      exact ih (keeps_useValue (keeps_readOne hRules hKept hNeeds) hKept hNext) h

end RayTracer.CommandLine
