import Mathlib.Data.List.Basic
import Mathlib.Data.Nat.ModEq

/-! # Bounded queues in an array of slots

A bounded queue, and the same queue kept in an array of slots that is written cyclically. The array
does not record where the queue begins: the oldest item is found by stepping back from the slot
that is written next by as many slots as there are items. `Holds` says that an array carries a
queue this way; each operation of the queue has one lemma about it.
-/

namespace Eroil.Lib

/-- A queue, oldest item first, that never outgrows its capacity. -/
structure BoundedQueue (α : Type*) (capacity : ℕ) where
  items : List α
  bounded : items.length ≤ capacity

namespace BoundedQueue

variable {α : Type*} {capacity : ℕ}

def empty : BoundedQueue α capacity := ⟨[], Nat.zero_le _⟩

def length (queue : BoundedQueue α capacity) : ℕ := queue.items.length

/-- A full queue refuses the item. -/
def push (queue : BoundedQueue α capacity) (item : α) : BoundedQueue α capacity :=
  if room : queue.length < capacity then
    ⟨queue.items ++ [item], by rw [List.length_append, List.length_singleton]; exact room⟩
  else queue

/-- Remove the oldest items, all of them if there are no more than that. -/
def drop (queue : BoundedQueue α capacity) (count : ℕ) : BoundedQueue α capacity :=
  ⟨queue.items.drop count, by rw [List.length_drop]; exact (Nat.sub_le _ _).trans queue.bounded⟩

theorem length_le (queue : BoundedQueue α capacity) : queue.length ≤ capacity := queue.bounded

@[simp] theorem length_drop (queue : BoundedQueue α capacity) (count : ℕ) :
    (queue.drop count).length = queue.length - count := List.length_drop

theorem push_full (queue : BoundedQueue α capacity) (item : α) (full : queue.length = capacity) :
    queue.push item = queue := by
  rw [push, dif_neg (by omega)]

theorem items_push (queue : BoundedQueue α capacity) (item : α) (room : queue.length < capacity) :
    (queue.push item).items = queue.items ++ [item] := by
  rw [push, dif_pos room]

theorem length_push (queue : BoundedQueue α capacity) (item : α) (room : queue.length < capacity) :
    (queue.push item).length = queue.length + 1 := by
  rw [length, items_push queue item room, List.length_append, List.length_singleton]
  rfl

theorem eq_of_items {first second : BoundedQueue α capacity} (same : first.items = second.items) :
    first = second := by
  cases first
  cases second
  cases same
  rfl

/-- The youngest items of a list, as many as fit. -/
def last (capacity : ℕ) (items : List α) : BoundedQueue α capacity :=
  ⟨items.drop (items.length - capacity), by rw [List.length_drop]; omega⟩

theorem length_last (items : List α) :
    (last capacity items).length = min items.length capacity := by
  simp only [last, length, List.length_drop]
  omega

/-- One more item pushes the oldest out of a queue that is full. -/
private theorem last_concat (positive : 0 < capacity) (items : List α) (item : α) :
    last capacity (items ++ [item]) =
      ((last capacity items).drop (items.length + 1 - capacity - (items.length - capacity))).push
        item := by
  have room : ((last capacity items).drop
      (items.length + 1 - capacity - (items.length - capacity))).length < capacity := by
    rw [length_drop, length_last]
    omega
  apply eq_of_items
  rw [items_push _ _ room]
  simp only [last, drop, List.drop_drop, List.length_append, List.length_singleton]
  rw [List.drop_append_of_le_length (by omega)]
  congr 2
  omega

end BoundedQueue

namespace SlotRing

variable {α : Type*}

/-- Slot of the item with the given age rank, the oldest having rank zero. -/
def slotOf (capacity next count rank : ℕ) : ℕ := (next + capacity - count + rank) % capacity

theorem slotOf_lt {capacity next count rank : ℕ} (positive : 0 < capacity) :
    slotOf capacity next count rank < capacity := Nat.mod_lt _ positive

/-- Items and slots correspond until the ring is full. -/
private theorem slotOf_ne_next {capacity next count rank : ℕ} (room : count < capacity)
    (inside : next < capacity) (present : rank < count) :
    slotOf capacity next count rank ≠ next := by
  unfold slotOf
  intro same
  rcases Nat.lt_or_ge (next + capacity - count + rank) capacity with early | late
  · rw [Nat.mod_eq_of_lt early] at same
    omega
  · rw [Nat.mod_eq_sub_mod late, Nat.mod_eq_of_lt (by omega)] at same
    omega

/-- Writing a slot leaves the earlier items where they are. -/
private theorem slotOf_push {capacity next count rank : ℕ} (room : count < capacity)
    (inside : next < capacity) :
    slotOf capacity ((next + 1) % capacity) (count + 1) rank = slotOf capacity next count rank := by
  unfold slotOf
  rcases Nat.lt_or_ge (next + 1) capacity with early | late
  · rw [Nat.mod_eq_of_lt early]
    congr 1
    omega
  · have wrapped : next + 1 = capacity := by omega
    rw [wrapped, Nat.mod_self]
    have shifted : next + capacity - count + rank = 0 + capacity - (count + 1) + rank + capacity := by
      omega
    rw [shifted, Nat.add_mod_right]

/-- The youngest item is in the slot that was written next. -/
private theorem slotOf_last {capacity next count : ℕ} (room : count ≤ capacity)
    (inside : next < capacity) :
    slotOf capacity next count count = next := by
  unfold slotOf
  have shifted : next + capacity - count + count = next + capacity := by omega
  rw [shifted, Nat.add_mod_right, Nat.mod_eq_of_lt inside]

/-- Removing the oldest items shifts the rank of the others. -/
private theorem slotOf_drop {capacity next count removed rank : ℕ} (room : count ≤ capacity)
    (present : removed ≤ count) :
    slotOf capacity next (count - removed) rank = slotOf capacity next count (removed + rank) := by
  unfold slotOf
  congr 1
  omega

variable {capacity next : ℕ} {queue : BoundedQueue α capacity} {slot other : ℕ → α}

/-- The slots carry the queue, and `next` is the slot that is written next. -/
structure Holds (slot : ℕ → α) (next : ℕ) (queue : BoundedQueue α capacity) : Prop where
  inside : next < capacity
  stored : ∀ rank, rank < queue.length →
    queue.items[rank]? = some (slot (slotOf capacity next queue.length rank))

namespace Holds

/-- Any array carries the empty queue. -/
theorem empty (slot : ℕ → α) (inside : next < capacity) :
    Holds slot next (BoundedQueue.empty : BoundedQueue α capacity) where
  inside := inside
  stored _ present := (Nat.not_lt_zero _ present).elim

/-- A value written to the next slot of a ring with room is appended to the queue. -/
theorem push (holds : Holds slot next queue) (room : queue.length < capacity) (value : α)
    (written : other next = value)
    (frame : ∀ index, index < capacity → index ≠ next → other index = slot index) :
    Holds other ((next + 1) % capacity) (queue.push value) where
  inside := Nat.mod_lt _ (Nat.zero_lt_of_lt room)
  stored rank present := by
    rw [queue.length_push value room] at present
    rw [queue.length_push value room, slotOf_push room holds.inside, queue.items_push value room]
    rcases Nat.lt_or_ge rank queue.length with old | new
    · rw [List.getElem?_append_left old, holds.stored rank old,
        frame _ (slotOf_lt (Nat.zero_lt_of_lt room)) (slotOf_ne_next room holds.inside old)]
    · have last : rank = queue.length := by omega
      subst last
      rw [slotOf_last queue.length_le holds.inside, written]
      exact List.getElem?_concat_length

/-- Forgetting the oldest items needs no write. -/
theorem drop (holds : Holds slot next queue) (count : ℕ) : Holds slot next (queue.drop count) where
  inside := holds.inside
  stored rank present := by
    rw [queue.length_drop] at present ⊢
    have stored := holds.stored (count + rank) (by omega)
    rw [slotOf_drop queue.length_le (by omega)]
    exact (List.getElem?_drop ..).trans stored

/-- Any array shows the youngest items of an empty list. -/
theorem last_nil (slot : ℕ → α) (inside : next < capacity) :
    Holds slot next (BoundedQueue.last capacity ([] : List α)) := by
  have none : BoundedQueue.last capacity ([] : List α) = .empty :=
    BoundedQueue.eq_of_items List.drop_nil
  rw [none]
  exact .empty slot inside

/-- Going back from the slot written next, the slots show the youngest items. -/
theorem youngest {items : List α} (holds : Holds slot next (BoundedQueue.last capacity items))
    {age : ℕ} (present : age < min items.length capacity) :
    items.reverse[age]? = some (slot ((next + capacity - 1 - age) % capacity)) := by
  have length : (BoundedQueue.last capacity items).length = min items.length capacity :=
    BoundedQueue.length_last items
  have inside := holds.inside
  have stored := holds.stored (min items.length capacity - 1 - age) (by omega)
  have position : next + capacity - min items.length capacity +
      (min items.length capacity - 1 - age) = next + capacity - 1 - age := by omega
  rw [length, slotOf, position] at stored
  rw [← stored, List.getElem?_reverse (by omega)]
  simp only [BoundedQueue.last, List.getElem?_drop]
  congr 1
  omega

/-- A value written to the next slot, whether the ring has room or not, leaves the youngest items
in the slots. -/
theorem shift {items : List α} (holds : Holds slot next (BoundedQueue.last capacity items))
    (value : α) (written : other next = value)
    (frame : ∀ index, index < capacity → index ≠ next → other index = slot index) :
    Holds other ((next + 1) % capacity) (BoundedQueue.last capacity (items ++ [value])) := by
  have positive := Nat.zero_lt_of_lt holds.inside
  rw [BoundedQueue.last_concat positive]
  refine (holds.drop _).push ?_ value written frame
  rw [BoundedQueue.length_drop, BoundedQueue.length_last]
  omega

end Holds

end SlotRing

end Eroil.Lib
