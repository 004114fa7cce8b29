import Mathlib.Data.Set.Finite.Basic
import Mathlib.Data.Fintype.EquivFin

/-! # Following links

A partial successor function is followed from an optional first item. Where only finitely many
items can be reached, the links come to an end exactly when no item is reached twice.
-/

namespace Eroil.Lib

variable {α : Type*} {next : α → Option α} {start : Option α}

/-- The item reached after following a number of links. -/
def follow (next : α → Option α) (start : Option α) : ℕ → Option α
  | 0 => start
  | n + 1 => (follow next start n).bind next

theorem follow_succ_eq_some {n : ℕ} {item : α} :
    follow next start (n + 1) = some item ↔
      ∃ before, follow next start n = some before ∧ next before = some item := by
  simp only [follow, Option.bind_eq_some_iff]

/-- Links are followed in two stages. -/
theorem follow_add (m n : ℕ) :
    follow next start (m + n) = follow next (follow next start m) n := by
  induction n with
  | zero => rfl
  | succ n ih =>
    rw [← Nat.add_assoc, follow, follow, ih]

/-- Nothing is reached behind the end. -/
private theorem follow_none_of_le {m n : ℕ} (ended : follow next start m = none) (le : m ≤ n) :
    follow next start n = none := by
  induction n, le using Nat.le_induction with
  | base => exact ended
  | succ n _ ih => rw [follow, ih, Option.bind_none]

/-- Everything in front of a reached item is reached. -/
theorem follow_some_of_le {m n : ℕ} {item : α} (reached : follow next start n = some item)
    (le : m ≤ n) : ∃ before, follow next start m = some before := by
  apply Option.ne_none_iff_exists'.mp
  intro ended
  rw [follow_none_of_le ended le] at reached
  cases reached

/-- Links that begin and come to an end have a last item. -/
theorem exists_last {first : α} {n : ℕ} (begins : start = some first)
    (ended : follow next start n = none) :
    ∃ m item, follow next start m = some item ∧ next item = none := by
  induction n with
  | zero => exact absurd (begins.symm.trans ended) (Option.some_ne_none first)
  | succ n ih =>
    cases before : follow next start n with
    | none => exact ih before
    | some item =>
      rw [follow, before] at ended
      exact ⟨n, item, before, ended⟩

/-- No item is reached twice. -/
def NeverRepeats (next : α → Option α) (start : Option α) : Prop :=
  ∀ i j item, follow next start i = some item → follow next start j = some item → i = j

/-- Links that come to an end never reach an item twice: from the first visit on they would have
to come to an end as many links earlier. -/
theorem neverRepeats_of_ends {n : ℕ} (ended : follow next start n = none) :
    NeverRepeats next start := by
  classical
  have ends : ∃ m, follow next start m = none := ⟨n, ended⟩
  obtain ⟨last, least, minimal⟩ : ∃ last, follow next start last = none ∧
      ∀ m, follow next start m = none → last ≤ m :=
    ⟨Nat.find ends, Nat.find_spec ends, fun _ none => Nat.find_min' ends none⟩
  have shorter (i j : ℕ) (item : α) (first : follow next start i = some item)
      (second : follow next start j = some item) : ¬ i < j := by
    intro before
    have beforeEnd : j < last := by
      by_contra behind
      obtain ⟨_, reached⟩ := follow_some_of_le second (Nat.not_lt.mp behind)
      rw [least] at reached
      cases reached
    have remaining : follow next start (j + (last - j)) = none := by
      rw [Nat.add_sub_cancel' beforeEnd.le]
      exact least
    rw [follow_add, second, ← first, ← follow_add] at remaining
    have := minimal _ remaining
    omega
  intro i j item first second
  exact Nat.le_antisymm (Nat.not_lt.mp (shorter j i item second first))
    (Nat.not_lt.mp (shorter i j item first second))

/-- Where finitely many items lie behind the first one, links without repetition come to an end. -/
theorem ends_of_neverRepeats {reach : Set α} (finite : reach.Finite)
    (reached : ∀ n item, follow next start (n + 1) = some item → item ∈ reach)
    (fresh : NeverRepeats next start) : ∃ n, follow next start n = none := by
  by_contra endless
  have found (n : ℕ) : ∃ item, follow next start n = some item :=
    Option.ne_none_iff_exists'.mp fun none => endless ⟨n, none⟩
  choose item visits using found
  have := finite.to_subtype
  apply not_injective_infinite_finite fun n => (⟨item (n + 1), reached n _ (visits _)⟩ : reach)
  intro i j same
  have equal : item (i + 1) = item (j + 1) := congrArg Subtype.val same
  have index := fresh (i + 1) (j + 1) _ (visits _) (by rw [visits, equal])
  omega

end Eroil.Lib
