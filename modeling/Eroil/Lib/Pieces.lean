import Mathlib.Algebra.BigOperators.Group.List.Basic
import Mathlib.Algebra.Order.Ring.Nat

/-! # Transfers in pieces

A loop asks for the rest of a transfer until it is complete. Each answer is a piece, or one that
ends the loop. So the loop uses the shortest part of the answers after which it stops, and is still
waiting if it has used all of them without stopping.
-/

namespace Eroil.Lib.Pieces

variable {α : Type*}

/-- The shortest beginning of a list after which something stops, or all of it. -/
structure Consumes (stops : List α → Prop) (all used : List α) : Prop where
  begins : used <+: all
  first : ∀ before, before <+: used → stops before → before = used
  complete : stops used ∨ used = all

namespace Consumes

variable {stops : List α → Prop} {all used : List α}

theorem nil (stopped : stops [] ∨ all = []) : Consumes stops all [] where
  begins := List.nil_prefix
  first := fun _ begins _ => List.prefix_nil.mp begins
  complete := stopped.imp_right Eq.symm

theorem cons {answer : α} {later : List α → Prop} (waiting : ¬ stops [])
    (goesOn : ∀ before, stops (answer :: before) ↔ later before)
    (rest : Consumes later all used) : Consumes stops (answer :: all) (answer :: used) where
  begins := List.cons_prefix_cons.mpr ⟨rfl, rest.begins⟩
  first := by
    intro before begins stopped
    cases before with
    | nil => exact absurd stopped waiting
    | cons other before =>
      obtain ⟨rfl, short⟩ := List.cons_prefix_cons.mp begins
      rw [rest.first before short ((goesOn before).mp stopped)]
  complete := rest.complete.imp (goesOn used).mpr (congrArg (answer :: ·))

theorem singleton {answer : α} (waiting : ¬ stops []) (stopped : stops [answer]) (all : List α) :
    Consumes stops (answer :: all) [answer] where
  begins := List.cons_prefix_cons.mpr ⟨rfl, List.nil_prefix⟩
  first := by
    intro before begins early
    rcases List.prefix_cons_iff.mp begins with rfl | ⟨more, rfl, nothing⟩
    · exact absurd early waiting
    · rw [List.prefix_nil.mp nothing]
  complete := .inl stopped

end Consumes

variable (count : α → ℕ) (Ends : α → Prop)

/-- A transfer of which `total` is done stops when these answers complete it or one of them
ends it. -/
def Stops (size total : ℕ) (answers : List α) : Prop :=
  size ≤ total + (answers.map count).sum ∨ ∃ answer ∈ answers, Ends answer

variable {count Ends} {size total : ℕ}

@[simp] theorem stops_nil : Stops count Ends size total [] ↔ size ≤ total := by
  simp [Stops]

theorem stops_cons {answer : α} (goesOn : ¬ Ends answer) (before : List α) :
    Stops count Ends size total (answer :: before) ↔
      Stops count Ends size (total + count answer) before := by
  simp only [Stops, List.map_cons, List.sum_cons, List.mem_cons, exists_eq_or_imp, goesOn, false_or,
    Nat.add_assoc]

theorem stops_singleton {answer : α} (ends : Ends answer) :
    Stops count Ends size total [answer] := .inr ⟨answer, List.mem_singleton_self _, ends⟩

end Eroil.Lib.Pieces
