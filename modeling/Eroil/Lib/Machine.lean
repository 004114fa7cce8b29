import Mathlib.Data.List.Basic

/-! # Runs of a deterministic machine under a step condition

A machine is a total step function on states; all nondeterminism (scheduling, results of the
operating system) lives in the action. `Reaches step ok` relates two states joined by finitely
many steps, each of which meets the condition `ok` in the state it is taken from. Taking
`ok := fun _ _ => True` gives plain reachability.
-/

namespace Eroil.Lib

variable {σ α : Type*}

/-- States joined by finitely many steps that each meet the condition. -/
inductive Reaches (step : σ → α → σ) (ok : σ → α → Prop) (source : σ) : σ → Prop
  | refl : Reaches step ok source source
  | tail {middle : σ} {action : α} (earlier : Reaches step ok source middle)
      (allowed : ok middle action) : Reaches step ok source (step middle action)

namespace Reaches

variable {step : σ → α → σ} {ok : σ → α → Prop} {source middle target : σ}

/-- One permitted step. -/
theorem single (action : α) (allowed : ok source action) :
    Reaches step ok source (step source action) := .tail .refl allowed

/-- Runs compose at their shared state. -/
theorem trans (first : Reaches step ok source middle) (second : Reaches step ok middle target) :
    Reaches step ok source target := by
  induction second with
  | refl => exact first
  | tail _ allowed ih => exact .tail ih allowed

/-- The induction rule: what every permitted step preserves holds along the whole run. -/
theorem invariant (good : σ → Prop) (initial : good source)
    (preserved : ∀ state action, good state → ok state action → good (step state action))
    (run : Reaches step ok source target) : good target := by
  induction run with
  | refl => exact initial
  | tail _ allowed ih => exact preserved _ _ ih allowed

/-- A weaker condition permits the same steps. -/
theorem mono {weaker : σ → α → Prop} (run : Reaches step ok source target)
    (weakens : ∀ state action, ok state action → weaker state action) :
    Reaches step weaker source target := by
  induction run with
  | refl => exact .refl
  | tail _ allowed ih => exact .tail ih (weakens _ _ allowed)

/-- The simulation rule: if another machine can follow every permitted step by some steps of its
own, it can follow the whole run. -/
theorem simulates {τ β : Type*} {follow : τ → β → τ} {may : τ → β → Prop} {image : τ}
    (related : σ → τ → Prop) (initial : related source image)
    (each : ∀ state image action, related state image → ok state action →
      ∃ next, Reaches follow may image next ∧ related (step state action) next)
    (run : Reaches step ok source target) :
    ∃ last, Reaches follow may image last ∧ related target last := by
  induction run with
  | refl => exact ⟨image, .refl, initial⟩
  | tail _ allowed ih =>
    obtain ⟨middle, before, holds⟩ := ih
    obtain ⟨next, after, related⟩ := each _ middle _ holds allowed
    exact ⟨next, before.trans after, related⟩

/-- A list of actions that are permitted in every state is a run. -/
theorem foldl (actions : List α) (allowed : ∀ action ∈ actions, ∀ state, ok state action)
    (source : σ) : Reaches step ok source (actions.foldl step source) := by
  induction actions generalizing source with
  | nil => exact .refl
  | cons action rest ih =>
    exact (single action (allowed action List.mem_cons_self source)).trans
      (ih (fun later member => allowed later (List.mem_cons_of_mem _ member)) _)

end Reaches

/-- Every action of the list passes an executable check in the state it is taken from. -/
def allSteps (step : σ → α → σ) (check : σ → α → Bool) : σ → List α → Bool
  | _, [] => true
  | state, action :: rest => check state action && allSteps step check (step state action) rest

/-- A list of actions that passes a sound check is a run. -/
theorem Reaches.of_allSteps {step : σ → α → σ} {ok : σ → α → Prop} {check : σ → α → Bool}
    (sound : ∀ state action, check state action = true → ok state action) (actions : List α)
    (source : σ) (passes : allSteps step check source actions = true) :
    Reaches step ok source (actions.foldl step source) := by
  induction actions generalizing source with
  | nil => exact .refl
  | cons action rest ih =>
    obtain ⟨here, later⟩ := Bool.and_eq_true_iff.mp passes
    exact (Reaches.single action (sound source action here)).trans (ih _ later)

end Eroil.Lib
