import Mathlib.Data.List.AList

/-! # Assignments one after the other

Of several assignments to one key the last one counts.
-/

namespace Eroil.Lib

variable {κ β : Type*} [DecidableEq κ]

/-- What the last assignment to a key says. -/
def lastValue (key : κ) (assignments : List (κ × β)) : Option β :=
  (assignments.reverse.find? fun assignment => assignment.1 = key).map Prod.snd

private theorem lastValue_cons (key : κ) (first : κ × β) (rest : List (κ × β)) :
    lastValue key (first :: rest) =
      (lastValue key rest).or (if first.1 = key then some first.2 else none) := by
  rw [lastValue, List.reverse_cons, List.find?_append, List.find?_singleton, lastValue]
  cases rest.reverse.find? fun assignment => decide (assignment.1 = key) with
  | some found => rfl
  | none => by_cases same : first.1 = key <;> simp [same]

theorem lastValue_append (key : κ) (early late : List (κ × β)) :
    lastValue key (early ++ late) = (lastValue key late).or (lastValue key early) := by
  rw [lastValue, List.reverse_append, List.find?_append, Option.map_or, lastValue, lastValue]

/-- A table that takes the assignments in turn knows the last of each key. -/
theorem lookup_foldl_insert (assignments : List (κ × β)) (table : AList fun _ : κ => β) (key : κ) :
    (assignments.foldl (fun table assignment =>
      table.insert assignment.1 assignment.2) table).lookup key =
      (lastValue key assignments).or (table.lookup key) := by
  induction assignments generalizing table with
  | nil => rfl
  | cons first rest ih =>
    rw [List.foldl_cons, ih, lastValue_cons, Option.or_assoc]
    congr 1
    by_cases same : first.1 = key
    · subst same
      rw [AList.lookup_insert, if_pos rfl, Option.some_or]
    · rw [AList.lookup_insert_ne (Ne.symm same), if_neg same, Option.none_or]

end Eroil.Lib
