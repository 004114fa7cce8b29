import Mathlib.Data.List.Pairwise
import Mathlib.Tactic.Ring

/-! # Contiguous allocations in a ring

Absolute positions grow without bound and are mapped into a block of `capacity` bytes by the
remainder. `Tiles` says that a list of allocations covers an interval of absolute positions
without gap or overlap. Two allocations inside a window no longer than the block start at
offsets at least the first one's size apart, so they share no byte of the block.
-/

namespace Eroil.Lib

variable {α : Type*} (pos size : α → ℕ)

/-- The allocations cover `[lower, upper)` in order, without gap or overlap. -/
def Tiles : ℕ → List α → ℕ → Prop
  | lower, [], upper => lower = upper
  | lower, item :: rest, upper =>
      pos item = lower ∧ 0 < size item ∧ Tiles (lower + size item) rest upper

namespace Tiles

variable {pos size} {lower middle upper : ℕ} {items first second : List α}

theorem le (tiles : Tiles pos size lower items upper) : lower ≤ upper := by
  induction items generalizing lower with
  | nil => exact tiles.le
  | cons item rest ih =>
    have := ih tiles.2.2
    omega

/-- A tiling determines where it ends. -/
theorem upper_unique {upper' : ℕ} (tiles : Tiles pos size lower items upper)
    (tiles' : Tiles pos size lower items upper') : upper = upper' := by
  induction items generalizing lower with
  | nil => exact tiles.symm.trans tiles'
  | cons item rest ih => exact ih tiles.2.2 tiles'.2.2

/-- A tiling determines where it begins. -/
theorem lower_unique {lower' : ℕ} (tiles : Tiles pos size lower items upper)
    (tiles' : Tiles pos size lower' items upper) : lower = lower' := by
  cases items with
  | nil => exact tiles.trans tiles'.symm
  | cons item rest => exact tiles.1.symm.trans tiles'.1

theorem append_iff : Tiles pos size lower (first ++ second) upper ↔
    ∃ middle, Tiles pos size lower first middle ∧ Tiles pos size middle second upper := by
  induction first generalizing lower with
  | nil =>
    constructor
    · intro tiles
      exact ⟨lower, rfl, tiles⟩
    · rintro ⟨middle, rfl, tiles⟩
      exact tiles
  | cons item rest ih =>
    constructor
    · rintro ⟨here, positive, tail⟩
      obtain ⟨middle, left, right⟩ := ih.mp tail
      exact ⟨middle, ⟨here, positive, left⟩, right⟩
    · rintro ⟨middle, ⟨here, positive, left⟩, right⟩
      exact ⟨here, positive, ih.mpr ⟨middle, left, right⟩⟩

/-- Appending one allocation at the upper end. -/
theorem snoc (tiles : Tiles pos size lower items upper) {item : α} (here : pos item = upper)
    (positive : 0 < size item) : Tiles pos size lower (items ++ [item]) (upper + size item) :=
  append_iff.mpr ⟨upper, tiles, here, positive, rfl⟩

theorem mem_bounds (tiles : Tiles pos size lower items upper) {item : α} (member : item ∈ items) :
    lower ≤ pos item ∧ pos item + size item ≤ upper ∧ 0 < size item := by
  induction items generalizing lower with
  | nil => cases member
  | cons head rest ih =>
    obtain ⟨here, positive, tail⟩ := tiles
    rcases List.mem_cons.mp member with rfl | later
    · have := tail.le
      omega
    · have := ih tail later
      omega

theorem length_le (tiles : Tiles pos size lower items upper) : lower + items.length ≤ upper := by
  induction items generalizing lower with
  | nil => exact tiles.le
  | cons item rest ih =>
    have := ih tiles.2.2
    have := tiles.2.1
    simp only [List.length_cons]
    omega

theorem pairwise (tiles : Tiles pos size lower items upper) :
    items.Pairwise (fun left right => pos left + size left ≤ pos right) := by
  induction items generalizing lower with
  | nil => exact .nil
  | cons item rest ih =>
    obtain ⟨here, _, tail⟩ := tiles
    refine List.pairwise_cons.mpr ⟨?_, ih tail⟩
    intro other member
    have := (tail.mem_bounds member).1
    omega

/-- Positions identify the allocations of a tiling. -/
theorem eq_of_pos (tiles : Tiles pos size lower items upper) {left right : α}
    (leftMem : left ∈ items) (rightMem : right ∈ items) (same : pos left = pos right) :
    left = right := by
  induction items generalizing lower with
  | nil => cases leftMem
  | cons item rest ih =>
    obtain ⟨here, positive, tail⟩ := tiles
    rcases List.mem_cons.mp leftMem with rfl | leftLater <;>
      rcases List.mem_cons.mp rightMem with rfl | rightLater
    · rfl
    · have := (tail.mem_bounds rightLater).1
      omega
    · have := (tail.mem_bounds leftLater).1
      omega
    · exact ih tail leftLater rightLater

/-- Distinct allocations of a tiling are disjoint intervals. -/
theorem disjoint (tiles : Tiles pos size lower items upper) {left right : α}
    (leftMem : left ∈ items) (rightMem : right ∈ items) (distinct : pos left ≠ pos right) :
    pos left + size left ≤ pos right ∨ pos right + size right ≤ pos left := by
  induction items generalizing lower with
  | nil => cases leftMem
  | cons item rest ih =>
    obtain ⟨here, positive, tail⟩ := tiles
    rcases List.mem_cons.mp leftMem with rfl | leftLater <;>
      rcases List.mem_cons.mp rightMem with rfl | rightLater
    · exact absurd rfl distinct
    · have := (tail.mem_bounds rightLater).1
      omega
    · have := (tail.mem_bounds leftLater).1
      omega
    · exact ih tail leftLater rightLater

end Tiles

/-- Two intervals of a window no longer than the block start at offsets that keep them apart. -/
theorem ring_disjoint {capacity p m q n : ℕ} (before : p + m ≤ q) (window : q + n ≤ p + capacity)
    (positive : 0 < m) :
    p % capacity + m ≤ q % capacity ∨ q % capacity + n ≤ p % capacity := by
  have capacityPos : 0 < capacity := by omega
  have splitP := Nat.div_add_mod p capacity
  have splitQ := Nat.div_add_mod q capacity
  have boundP := Nat.mod_lt p capacityPos
  have boundQ := Nat.mod_lt q capacityPos
  have lapLe : p / capacity ≤ q / capacity := Nat.div_le_div_right (by omega)
  have lapBound : q / capacity ≤ p / capacity + 1 := by
    by_contra beyond
    have twoLaps : capacity * (p / capacity + 2) ≤ capacity * (q / capacity) :=
      Nat.mul_le_mul_left _ (by omega)
    have : capacity * (p / capacity + 2) = capacity * (p / capacity) + 2 * capacity := by ring
    omega
  rcases Nat.lt_or_ge (p / capacity) (q / capacity) with nextLap | sameLap
  · -- The later interval lies in the next lap and ends at or before the earlier one's offset.
    have lap : q / capacity = p / capacity + 1 := by omega
    have : capacity * (q / capacity) = capacity * (p / capacity) + capacity := by rw [lap]; ring
    right
    omega
  · have lap : q / capacity = p / capacity := by omega
    rw [lap] at splitQ
    left
    omega

end Eroil.Lib
