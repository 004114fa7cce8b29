import Mathlib.Data.List.Basic

/-! # Loops whose rounds each touch one key

A loop over items with distinct keys, where the round for an item rewrites what the state holds at
the item's key, as a function of what it held there and of a part of the state that no round
changes. Such a loop is a map over the keys, whatever the order of the items.
-/

namespace Eroil.Lib

variable {σ ι κ β φ : Type*}

/-- The round for an item rewrites the value at the key of the item and nothing else. -/
structure Keyed (step : σ → ι → σ) (get : σ → κ → β) (frame : σ → φ) (key : ι → κ)
    (update : φ → ι → β → β) : Prop where
  own : ∀ state item, get (step state item) (key item) =
    update (frame state) item (get state (key item))
  other : ∀ state item query, query ≠ key item → get (step state item) query = get state query
  kept : ∀ state item, frame (step state item) = frame state

namespace Keyed

variable {step : σ → ι → σ} {get : σ → κ → β} {frame : σ → φ} {key : ι → κ} {update : φ → ι → β → β}

theorem frame_foldl (keyed : Keyed step get frame key update) (items : List ι) (state : σ) :
    frame (items.foldl step state) = frame state := by
  induction items generalizing state with
  | nil => rfl
  | cons item rest ih => rw [List.foldl_cons, ih, keyed.kept]

theorem get_foldl_of_not_mem (keyed : Keyed step get frame key update) {items : List ι} {query : κ}
    (absent : query ∉ items.map key) (state : σ) :
    get (items.foldl step state) query = get state query := by
  induction items generalizing state with
  | nil => rfl
  | cons item rest ih =>
    rw [List.map_cons, List.mem_cons, not_or] at absent
    rw [List.foldl_cons, ih absent.2, keyed.other _ _ _ absent.1]

theorem get_foldl_of_mem (keyed : Keyed step get frame key update) {items : List ι} {item : ι}
    (nodup : (items.map key).Nodup) (member : item ∈ items) (state : σ) :
    get (items.foldl step state) (key item) = update (frame state) item (get state (key item)) := by
  induction items generalizing state with
  | nil => cases member
  | cons first rest ih =>
    obtain ⟨fresh, nodup⟩ := List.nodup_cons.mp nodup
    rw [List.foldl_cons]
    rcases List.mem_cons.mp member with rfl | later
    · rw [keyed.get_foldl_of_not_mem fresh, keyed.own]
    · have different : key item ≠ key first := by
        intro same
        exact fresh (same ▸ List.mem_map_of_mem later)
      rw [ih nodup later, keyed.kept, keyed.other _ _ _ different]

end Keyed

end Eroil.Lib
