import Eroil.Proofs.Shm.Forward

/-! # The order of the calls

A `send` that has returned before another one is called is handed on before it, whichever processes
made the two calls. So what one thread sends arrives in the order in which the thread sent it.
-/

namespace Eroil.Shm

open Lib

namespace Sys

variable {ι : Type*} {sys : Sys ι}

/-- The calls that have a place in the ring, oldest place first. -/
def owners (sys : Sys ι) : List ι := sys.reservations.map Reservation.owner

/-- A longer log keeps the places that there are. -/
theorem owners_prefix {later : Sys ι} (longer : sys.log <+: later.log) :
    sys.owners <+: later.owners :=
  (longer.filter _).map _

private theorem log_receive (sys : Sys ι) : sys.receive.log = sys.log := by
  unfold receive
  split <;> rfl

variable [DecidableEq ι]

private theorem log_begin (sys : Sys ι) (c : ι) (message : Message) :
    (sys.begin c message).log = sys.log := by
  unfold begin
  split <;> rfl

private theorem log_prefix_advanceMarked (sys : Sys ι) (c : ι) (spurious : Bool) :
    sys.log <+: (sys.advanceMarked c spurious).log := by
  have one (state : Sys ι) (spurious : Bool) : state.log <+: (state.advance c spurious).log :=
    List.prefix_append _ _
  unfold advanceMarked
  split
  · exact one sys spurious
  · split
    · exact (one _ _).trans ((one _ _).trans ((one _ _).trans (one _ _)))
    · exact (one _ _).trans ((one _ _).trans (one _ _))

end Sys

namespace ShmRecvWorker

variable {ι : Type*}

@[simp] theorem again_sys (worker : ShmRecvWorker ι) : worker.again.sys = worker.sys := rfl

@[simp] theorem take_sys (worker : ShmRecvWorker ι) (run : RecvRun) :
    (worker.take run).sys = worker.sys := by
  unfold take
  split <;> rfl

variable [DecidableEq ι] {worker middle : ShmRecvWorker ι}

/-- As long as every sender sends labels, the worker never starts the block anew. -/
private theorem Forwards.log_poll (forwards : worker.Forwards)
    (bound : worker.sys.reservedBytes < 2 ^ 64) :
    (worker.poll false).sys.log = worker.sys.log := by
  obtain ⟨run, returned, _, _, codes, _⟩ := (forwards.awake.sound.isFifo bound).recv
  unfold ShmRecvWorker.poll
  split
  · rfl
  rw [returned]
  rcases codes with code | code | code <;>
    simp only [getNextRecord, code, take_sys, again_sys, Bool.false_eq_true, if_false,
      Sys.log_receive]

theorem Forwards.log_prefix (forwards : worker.Forwards) {action : Action ι}
    (carries : worker.Carries action) (bound : worker.sys.reservedBytes < 2 ^ 64) :
    worker.sys.log <+: (worker.step action).sys.log := by
  cases action with
  | begin c message => exact (Sys.log_begin worker.sys c message) ▸ List.prefix_rfl
  | advanceMarked c spurious => exact Sys.log_prefix_advanceMarked worker.sys c spurious
  | wake =>
    simp only [ShmRecvWorker.step, ShmRecvWorker.wake]
    split <;> exact List.prefix_rfl
  | waitError =>
    simp only [ShmRecvWorker.step, ShmRecvWorker.waitError]
    split
    · exact List.prefix_rfl
    · split <;> exact List.prefix_rfl
  | poll expired =>
    obtain rfl : expired = false := carries
    rw [ShmRecvWorker.step, forwards.log_poll bound]
  | requestStop => exact List.prefix_rfl

/-- The places of a state stand first among those of every later state. -/
theorem Forwards.owners_prefix (forwards : middle.sys.reservedBytes < 2 ^ 64 → middle.Forwards)
    (later : Reaches ShmRecvWorker.step Carries middle worker)
    (bound : worker.sys.reservedBytes < 2 ^ 64) : middle.sys.owners <+: worker.sys.owners := by
  have kept := later.invariant
    (fun state => state.sys.reservedBytes < 2 ^ 64 →
      state.Forwards ∧ middle.sys.log <+: state.sys.log)
    (fun small => ⟨forwards small, List.prefix_rfl⟩) fun state action holds carries small => by
      have before := (state.reservedBytes_le_step action).trans_lt small
      obtain ⟨good, longer⟩ := holds before
      exact ⟨good.step carries small, longer.trans (good.log_prefix carries before)⟩
  exact Sys.owners_prefix (kept bound).2

/-- A call that returned success before another one began is handed on before that one: the worker
has dispatched the label of the first when it has dispatched that of the second. -/
theorem dispatch_respects_time {id : NodeId} {opened : OpenedBlock} {block : ShmBlock}
    (success : createOrOpen id opened = (true, block)) {buf : ByteMemory} {semaphore : ℕ}
    (earlier : Reaches ShmRecvWorker.step Carries
      (ShmRecvWorker.start id (Sys.initial block buf semaphore)) middle)
    (later : Reaches ShmRecvWorker.step Carries middle worker)
    (bound : worker.sys.reservedBytes < 2 ^ 64) {first second : ι}
    (returned : (middle.sys.calls first).pc = .done .none)
    (uncalled : (middle.sys.calls second).pc = .idle) {after : ℕ}
    (place : worker.sys.owners[after]? = some second) (reached : after < worker.dispatched.length) :
    ∃ before < after, worker.sys.owners[before]? = some first ∧
      worker.dispatched[before]? = some (labelAt (worker.sys.calls first).message.buf) ∧
      worker.dispatched[after]? = some (labelAt (worker.sys.calls second).message.buf) := by
  have fresh := createOrOpen_fresh success
  have whole := Forwards.run fresh (earlier.trans later) bound
  have small : middle.sys.reservedBytes < 2 ^ 64 := by
    refine Nat.lt_of_le_of_lt (later.invariant
      (fun state => middle.sys.reservedBytes ≤ state.sys.reservedBytes) le_rfl ?_) bound
    exact fun state action least _ => least.trans (state.reservedBytes_le_step action)
  have forwards := Forwards.run fresh earlier small
  obtain ⟨more, split⟩ := Forwards.owners_prefix (fun _ => forwards) later bound
  -- The second call has no place yet when the first one has.
  have behind : middle.sys.owners.length ≤ after := by
    by_contra early
    rw [← split, List.getElem?_append_left (Nat.lt_of_not_le early)] at place
    obtain ⟨r, member, rfl⟩ := List.mem_map.mp (List.mem_of_getElem? place)
    exact forwards.awake.sound.inv.reserved_begun member uncalled
  have mine : first ∈ middle.sys.owners :=
    (forwards.awake.sound.isFifo small).returned first returned
  obtain ⟨before, inside, owner⟩ := List.getElem_of_mem mine
  have early : before < after := Nat.lt_of_lt_of_le inside behind
  have entry : worker.sys.owners[before]? = some first := by
    rw [← split, List.getElem?_append_left inside, List.getElem?_eq_getElem inside, owner]
  have length : worker.dispatched.length = worker.sys.delivered.length := by
    rw [whole.forwarded, List.length_map]
  have dispatched {index : ℕ} {c : ι} (known : worker.sys.owners[index]? = some c)
      (handed : index < worker.dispatched.length) :
      worker.dispatched[index]? = some (labelAt (worker.sys.calls c).message.buf) := by
    rw [Sys.owners, List.getElem?_map] at known
    obtain ⟨r, entry, rfl⟩ := Option.map_eq_some_iff.mp known
    rw [whole.dispatched_eq bound, List.getElem?_map, List.getElem?_take_of_lt (length ▸ handed),
      entry]
    rfl
  exact ⟨before, early, entry, dispatched entry (early.trans reached), dispatched place reached⟩

/-- A call that sends the label, from its start to its end. -/
def labelCall (c : Bool) : List (Action Bool) :=
  .begin c ⟨3, 7, 9, shortLabel.frame⟩ :: List.replicate 10 (.advanceMarked c false)

def afterFirst : ShmRecvWorker Bool :=
  (labelCall true).foldl step (.start 0 (Sys.initial (createOrOpen 0 .created).2 (fun _ => 0) 0))

def afterSecond : ShmRecvWorker Bool :=
  (labelCall false ++ [Action.wake, .poll false, .poll false]).foldl step afterFirst

theorem dispatch_respects_time_two : ∃ before < 1, afterSecond.sys.owners[before]? = some true ∧
    afterSecond.dispatched[before]? = some shortLabel := by
  have carries (c : Bool) : ∀ action ∈ labelCall c ++ [Action.wake, .poll false, .poll false],
      ∀ state : ShmRecvWorker Bool, state.Carries action := by
    intro action member state
    simp only [labelCall, List.cons_append, List.mem_cons, List.mem_append, List.mem_replicate,
      List.not_mem_nil, or_false] at member
    rcases member with rfl | ⟨_, rfl⟩ | rfl | rfl | rfl
    · exact ⟨shortLabel, shortLabel_sendable, rfl⟩
    · trivial
    · trivial
    · rfl
    · rfl
  have first : Reaches step Carries
      (.start 0 (Sys.initial (createOrOpen 0 .created).2 (fun _ => 0) 0)) afterFirst :=
    .foldl _ (fun action member => carries true action (List.mem_append_left _ member)) _
  have second : Reaches step Carries afterFirst afterSecond := .foldl _ (carries false) _
  have place : afterSecond.sys.owners[1]? = some false := by decide +kernel
  obtain ⟨before, early, owner, label, _⟩ := dispatch_respects_time (createOrOpen_created 0) first
    second (by decide +kernel) (show (afterFirst.sys.calls true).pc = _ by decide +kernel)
    (show (afterFirst.sys.calls false).pc = _ by decide +kernel) place (by decide +kernel)
  refine ⟨before, early, owner, label.trans ?_⟩
  decide +kernel

end ShmRecvWorker

end Eroil.Shm
