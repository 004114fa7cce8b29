import Mathlib.Data.Set.Lattice
import Mathlib.Order.CompletePartialOrder

/-! # Components that share a world

Several components work on one world. Each owns some places of it, and an operation of a component
reads and changes only places that the component owns. As long as the places of the others are
apart from its own, a component cannot tell whether it is alone: it runs beside them as it runs in
a world of its own.
-/

namespace Eroil.Lib

variable {World Component Place : Type*} {Value : Place → Type*}

/-- Two worlds hold the same at every one of these places. -/
def AgreeOn (view : World → (place : Place) → Value place) (places : Set Place)
    (left right : World) : Prop :=
  ∀ place ∈ places, view left place = view right place

/-- An operation of a component stays on the places that the component owns: it changes no others,
it keeps the places, and what it does depends on them alone. -/
structure IsLocal (view : World → (place : Place) → Value place) (owns : Component → Set Place)
    (op : World × Component → World × Component) (component : Component) : Prop where
  frame : ∀ world, ∀ place ∉ owns component, view (op (world, component)).1 place = view world place
  keeps : ∀ world, owns (op (world, component)).2 = owns component
  sees : ∀ left right, AgreeOn view (owns component) left right →
    (op (left, component)).2 = (op (right, component)).2 ∧
      AgreeOn view (owns component) (op (left, component)).1 (op (right, component)).1

/-- A component among others looks like one that is alone. -/
structure Tracks (view : World → (place : Place) → Value place) (owns : Component → Set Place)
    (shared alone : World × Component) : Prop where
  component : shared.2 = alone.2
  places : AgreeOn view (owns alone.2) shared.1 alone.1

namespace Tracks

variable {view : World → (place : Place) → Value place} {owns : Component → Set Place}
  {op : World × Component → World × Component} {shared alone : World × Component}

theorem refl (state : World × Component) : Tracks view owns state state := ⟨rfl, fun _ _ => rfl⟩

/-- Its own operations are the same in both worlds. -/
theorem own (tracks : Tracks view owns shared alone) (isLocal : IsLocal view owns op alone.2) :
    Tracks view owns (op shared) (op alone) := by
  obtain ⟨world, component⟩ := shared
  obtain rfl : component = alone.2 := tracks.component
  obtain ⟨same, agree⟩ := isLocal.sees world alone.1 tracks.places
  refine ⟨same, ?_⟩
  rw [isLocal.keeps]
  exact agree

/-- An operation of another component whose places are apart goes unnoticed. -/
theorem foreign (tracks : Tracks view owns shared alone) {other : Component}
    (isLocal : IsLocal view owns op other) (apart : ∀ place ∈ owns alone.2, place ∉ owns other) :
    Tracks view owns ((op (shared.1, other)).1, shared.2) alone where
  component := tracks.component
  places place mine :=
    (isLocal.frame shared.1 place (apart place mine)).trans (tracks.places place mine)

end Tracks

end Eroil.Lib
