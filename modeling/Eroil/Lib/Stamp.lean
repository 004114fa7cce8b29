import Mathlib.Data.Nat.Count

/-! # Counting the changes of a value along a sequence

A counter that advances exactly when a value changes is a stamp for the value: equal counts mean
that nothing changed in between. The sequence is arbitrary; the counter may be kept modulo a
number that it does not reach.
-/

namespace Eroil.Lib

variable {ι : Type*} [DecidableEq ι] {value : ℕ → ι} {first middle last : ℕ}

/-- How often the value changed in the first steps. -/
def changes (value : ℕ → ι) (steps : ℕ) : ℕ := Nat.count (fun n => value (n + 1) ≠ value n) steps

theorem changes_succ_of_eq (same : value (last + 1) = value last) :
    changes value (last + 1) = changes value last := by
  simp [changes, Nat.count_succ, same]

theorem changes_succ_of_ne (different : value (last + 1) ≠ value last) :
    changes value (last + 1) = changes value last + 1 := by
  simp [changes, Nat.count_succ, different]

theorem changes_mono (value : ℕ → ι) (ordered : first ≤ last) :
    changes value first ≤ changes value last := Nat.count_monotone _ ordered

theorem changes_le (value : ℕ → ι) (steps : ℕ) : changes value steps ≤ steps := Nat.count_le _

/-- Between points with equal counts no step changes the value. -/
private theorem step_of_changes_eq (same : changes value first = changes value last)
    (after : first ≤ middle)
    (before : middle < last) : value (middle + 1) = value middle := by
  by_contra different
  have lower := changes_mono value after
  have upper := changes_mono value (Nat.succ_le_of_lt before)
  rw [Nat.succ_eq_add_one, changes_succ_of_ne different] at upper
  omega

/-- What steps without a change preserve is the same at points with equal counts. -/
theorem invariant_of_changes_eq (good : ℕ → Prop) (ordered : first ≤ last)
    (same : changes value first = changes value last) (start : good first)
    (kept : ∀ n, n < last → value (n + 1) = value n → good n → good (n + 1)) : good last := by
  suffices along : ∀ steps, first + steps ≤ last → good (first + steps) by
    have whole := along (last - first) (by omega)
    rwa [Nat.add_sub_cancel' ordered] at whole
  intro steps
  induction steps with
  | zero => exact fun _ => start
  | succ steps ih =>
    intro within
    exact kept _ within (step_of_changes_eq same (Nat.le_add_right ..) within) (ih (by omega))

private theorem value_of_changes_eq (ordered : first ≤ last)
    (same : changes value first = changes value last) : value last = value first :=
  invariant_of_changes_eq (fun n => value n = value first) ordered same rfl
    fun _ _ step before => step.trans before

/-- A value seen in between that differs from the first one costs a change. -/
theorem changes_lt (after : first ≤ middle) (before : middle ≤ last)
    (different : value middle ≠ value first) : changes value first < changes value last := by
  refine lt_of_lt_of_le ?_ (changes_mono value before)
  refine lt_of_le_of_ne (changes_mono value after) fun same => ?_
  exact different (value_of_changes_eq after same)

end Eroil.Lib
