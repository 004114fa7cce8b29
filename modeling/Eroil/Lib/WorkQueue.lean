import Mathlib.Data.List.Nodup

/-! # A queue with one worker

A worker takes the items of a queue one at a time. The items that it has finished, the one it works
on and the ones that wait are, in this order, the items that were ever pushed: the history of a
queue is never reordered, and an item that was begun has all earlier ones behind it.
-/

namespace Eroil.Lib

/-- The items finished so far, the item in work, and the items that wait, oldest first. -/
structure WorkQueue (α : Type*) where
  done : List α
  current : Option α
  waiting : List α

namespace WorkQueue

variable {α : Type*} {queue : WorkQueue α} {first second : α}

def empty : WorkQueue α := ⟨[], none, []⟩

def push (queue : WorkQueue α) (item : α) : WorkQueue α :=
  { queue with waiting := queue.waiting ++ [item] }

/-- An idle worker takes the item that waits longest. -/
def take (queue : WorkQueue α) : WorkQueue α :=
  match queue.current, queue.waiting with
  | none, item :: rest => { queue with current := some item, waiting := rest }
  | _, _ => queue

/-- The item in work is finished. -/
def finish (queue : WorkQueue α) : WorkQueue α :=
  { queue with done := queue.done ++ queue.current.toList, current := none }

/-- The items that the worker has begun. -/
def started (queue : WorkQueue α) : List α := queue.done ++ queue.current.toList

/-- The items that were ever pushed, in order. -/
def queued (queue : WorkQueue α) : List α := queue.started ++ queue.waiting

@[simp] theorem queued_empty : (empty : WorkQueue α).queued = [] := rfl

@[simp] theorem queued_push (queue : WorkQueue α) (item : α) :
    (queue.push item).queued = queue.queued ++ [item] :=
  (List.append_assoc ..).symm

@[simp] theorem queued_take (queue : WorkQueue α) : queue.take.queued = queue.queued := by
  unfold take
  split
  · next item rest idle waits => simp [queued, started, idle, waits]
  · rfl

@[simp] theorem queued_finish (queue : WorkQueue α) : queue.finish.queued = queue.queued := by
  simp [queued, started, finish]

@[simp] theorem started_push (queue : WorkQueue α) (item : α) :
    (queue.push item).started = queue.started := rfl

@[simp] theorem started_finish (queue : WorkQueue α) : queue.finish.started = queue.started := by
  simp [started, finish]

@[simp] theorem done_push (queue : WorkQueue α) (item : α) :
    (queue.push item).done = queue.done := rfl

@[simp] theorem done_take (queue : WorkQueue α) : queue.take.done = queue.done := by
  unfold take
  split <;> rfl

theorem mem_queued_of_started {item : α} (begun : item ∈ queue.started) : item ∈ queue.queued :=
  List.mem_append_left _ begun

theorem mem_started_of_done {item : α} (finished : item ∈ queue.done) : item ∈ queue.started :=
  List.mem_append_left _ finished

theorem mem_started_of_current {item : α} (here : queue.current = some item) :
    item ∈ queue.started := by
  simp [started, here]

theorem mem_started_take {item : α} (begun : item ∈ queue.started) : item ∈ queue.take.started := by
  unfold take
  split
  · next other rest idle _ =>
    rw [started, idle, Option.toList_none, List.append_nil] at begun
    exact mem_started_of_done begun
  · exact begun

/-- In a history without repetition the item in work is not finished. -/
theorem not_done_of_current {item : α} (once : queue.queued.Nodup)
    (here : queue.current = some item) :
    item ∉ queue.done := by
  rw [queued, started, here] at once
  have apart := List.disjoint_of_nodup_append (List.nodup_append.mp once).1
  exact fun finished => apart finished (by simp)

/-- What stands before an item in a list without repetition stands in front of it. -/
theorem mem_front {front back : List α} (once : (front ++ second :: back).Nodup)
    (order : [first, second].Sublist (front ++ second :: back)) : first ∈ front := by
  obtain ⟨head, tail, split, left, right⟩ := List.sublist_append_iff.mp order
  have late : second ∉ back := (List.nodup_cons.mp (List.nodup_append.mp once).2.1).1
  cases head with
  | nil =>
    rw [List.nil_append] at split
    subst split
    cases right with
    | cons _ later => exact absurd (later.subset (by simp)) late
    | cons_cons _ later => exact absurd (later.subset (by simp)) late
  | cons item others =>
    have same : item = first := by
      have heads := congrArg List.head? split
      simpa using heads.symm
    exact same ▸ left.subset List.mem_cons_self

/-- When the worker has begun an item, it has finished every item that was pushed earlier. -/
theorem done_of_order (once : queue.queued.Nodup) (order : [first, second].Sublist queue.queued)
    (begun : second ∈ queue.started) : first ∈ queue.done := by
  rcases List.mem_append.mp begun with finished | current
  · obtain ⟨front, back, split⟩ := List.append_of_mem finished
    have whole :
        queue.queued = front ++ second :: (back ++ queue.current.toList ++ queue.waiting) := by
      simp [queued, started, split]
    rw [whole] at once order
    rw [split]
    exact List.mem_append_left _ (mem_front once order)
  · have here : queue.current = some second := by simpa using current
    have whole : queue.queued = queue.done ++ second :: queue.waiting := by
      simp [queued, started, here]
    rw [whole] at once order
    exact mem_front once order

end WorkQueue

end Eroil.Lib
