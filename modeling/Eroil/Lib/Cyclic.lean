import Mathlib.Data.List.Nodup
import Mathlib.Data.List.Perm.Subperm
import Mathlib.Data.Nat.ModEq
import Mathlib.Logic.Function.Basic

/-! # Arrays written cyclically

A writer that takes one position of an array after the other and starts again at the front. The
positions follow from the first one and their number; what the array keeps is the latest item of
each position.
-/

namespace Eroil.Lib.Cyclic

/-- The positions that a cyclic writer takes, in order. -/
def positions (size start count : ℕ) : List ℕ :=
  (List.range count).map fun rank => (start + rank) % size

@[simp] theorem positions_zero (size start : ℕ) : positions size start 0 = [] := rfl

@[simp] theorem length_positions (size start count : ℕ) :
    (positions size start count).length = count := by
  simp [positions]

/-- The first position is taken, and the writer goes on from the next one. -/
theorem positions_succ {size start : ℕ} (count : ℕ) (inside : start < size) :
    positions size start (count + 1) = start :: positions size ((start + 1) % size) count := by
  simp only [positions, List.range_succ_eq_map, List.map_cons, List.map_map, Nat.add_zero,
    Nat.mod_eq_of_lt inside, List.cons.injEq, true_and]
  apply List.map_congr_left
  intro rank _
  simp only [Function.comp_apply, Nat.mod_add_mod]
  congr 1
  omega

private theorem positions_inside {size start count position : ℕ} (room : 0 < size)
    (taken : position ∈ positions size start count) : position < size := by
  obtain ⟨rank, -, rfl⟩ := List.mem_map.mp taken
  exact Nat.mod_lt _ room

/-- A writer that goes round at most once takes no position twice. -/
private theorem positions_nodup {size count : ℕ} (start : ℕ) (once : count ≤ size) :
    (positions size start count).Nodup := by
  apply List.Nodup.map_on _ List.nodup_range
  intro left inLeft right inRight same
  have low := List.mem_range.mp inLeft
  have high := List.mem_range.mp inRight
  have ranks : left ≡ right [MOD size] := Nat.ModEq.add_left_cancel' start same
  exact ranks.eq_of_lt_of_lt (by omega) (by omega)

/-- Going round exactly once takes every position. -/
private theorem positions_perm {size : ℕ} (start : ℕ) (room : 0 < size) :
    (positions size start size).Perm (List.range size) := by
  apply ((positions_nodup start le_rfl).subperm _).perm_of_length_le
  · simp
  · intro position taken
    exact List.mem_range.mpr (positions_inside room taken)

/-- Looking at enough positions of a list, one after the other, gives the list. -/
private theorem filterMap_getElem? {α : Type*} (items : List α) {size : ℕ}
    (enough : items.length ≤ size) :
    (List.range size).filterMap (fun position => items[position]?) = items := by
  induction items generalizing size with
  | nil => simp
  | cons item items ih =>
    obtain ⟨rest, rfl⟩ := Nat.exists_eq_add_of_lt (Nat.lt_of_lt_of_le (Nat.succ_pos _) enough)
    rw [List.length_cons] at enough
    rw [Nat.zero_add, List.range_succ_eq_map, List.filterMap_cons, List.filterMap_map]
    simp only [List.getElem?_cons_zero, Function.comp_def, Nat.succ_eq_add_one,
      List.getElem?_cons_succ]
    rw [ih (by omega)]

/-- The array keeps the latest items and nothing else. -/
structure Keeps {α : Type*} (size : ℕ) (items : List α) (array : ℕ → Option α) : Prop where
  recent : ∀ rank < items.length, items.length ≤ rank + size → array (rank % size) = items[rank]?
  free : ∀ position, items.length ≤ position → position < size → array position = none

namespace Keeps

variable {α : Type*} {size : ℕ} {items : List α} {array : ℕ → Option α}

theorem empty (size : ℕ) : Keeps (α := α) size [] fun _ => none where
  recent _ below := absurd below (Nat.not_lt_zero _)
  free _ _ _ := rfl

/-- Writing the next item at the next position. -/
theorem push (keeps : Keeps size items array) (item : α) :
    Keeps size (items ++ [item]) (Function.update array (items.length % size) (some item)) where
  recent rank below close := by
    rw [List.length_append, List.length_singleton] at below close
    by_cases last : rank = items.length
    · subst last
      simp
    · have other : rank % size ≠ items.length % size := by
        intro same
        have equal : items.length ≡ rank [MOD size] := same.symm
        have divides := (Nat.modEq_iff_dvd' (by omega)).mp equal.symm
        exact absurd (Nat.le_of_dvd (by omega) divides) (by omega)
      rw [Function.update_of_ne other, keeps.recent rank (by omega) (by omega),
        List.getElem?_append_left (by omega)]
  free position above inside := by
    rw [List.length_append, List.length_singleton] at above
    have other : position ≠ items.length % size := by
      rw [Nat.mod_eq_of_lt (by omega)]
      omega
    rw [Function.update_of_ne other]
    exact keeps.free position (by omega) inside

/-- What the array holds is a rearrangement of the latest items. -/
theorem perm (keeps : Keeps size items array) :
    ((List.range size).filterMap array).Perm (items.drop (items.length - size)) := by
  have latest (rank : ℕ) (below : rank < size) :
      array ((items.length - size + rank) % size) =
        (items.drop (items.length - size))[rank]? := by
    rw [List.getElem?_drop]
    by_cases written : items.length - size + rank < items.length
    · exact keeps.recent _ written (by omega)
    · have short : items.length - size + rank = rank := by omega
      rw [short, Nat.mod_eq_of_lt below, keeps.free rank (by omega) below,
        List.getElem?_eq_none (by omega)]
  rcases Nat.eq_zero_or_pos size with rfl | room
  · simp
  · apply ((positions_perm (items.length - size) room).symm.filterMap array).trans
    rw [positions, List.filterMap_map]
    have same :
        (List.range size).filterMap (array ∘ fun rank => (items.length - size + rank) % size) =
        (List.range size).filterMap fun rank => (items.drop (items.length - size))[rank]? :=
      List.filterMap_congr fun rank member => latest rank (List.mem_range.mp member)
    rw [same, filterMap_getElem? _ (by rw [List.length_drop]; omega)]

end Keeps

end Eroil.Lib.Cyclic
