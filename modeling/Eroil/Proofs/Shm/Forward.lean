import Eroil.Proofs.Send.Frames
import Eroil.Proofs.Shm.Wakeup

/-! # From the senders to the subscribers' side of a block

The ring hands records on in the order in which they were reserved, and the worker makes one call of
`distribute_recvd_label` for each of them. Nothing in between looks at more than the record: the
labels that are dispatched are the labels that were sent, each one once.
-/

namespace Eroil.Shm

open Lib

/-- The message of a call is the frame of a label. -/
def Message.IsFrame (message : Message) : Prop :=
  ∃ dispatch : Dispatch, dispatch.Sendable ∧ message.buf = dispatch.frame

theorem Message.IsFrame.labelAt {message : Message} (frame : message.IsFrame) :
    ∃ dispatch : Dispatch, dispatch.Sendable ∧ message.buf = dispatch.frame ∧
      labelAt message.buf = dispatch := by
  obtain ⟨dispatch, sendable, buf⟩ := frame
  have label := sendable.labelAt_frame []
  rw [List.append_nil, ← buf] at label
  exact ⟨dispatch, sendable, buf, label⟩

/-- A record that holds a frame is dispatched as its label. -/
theorem Message.IsFrame.handleRecord {message : Message} (frame : message.IsFrame)
    {buf : ByteMemory} (loaded : buf.load 0 message.buf.length = message.buf) :
    handleRecord message.buf.length buf = .dispatched (Eroil.labelAt message.buf) := by
  obtain ⟨dispatch, sendable, same⟩ := frame
  have passes : ¬ RefusedByBoth message.buf := same ▸ sendable.passes
  have holds : HoldsLabel message.buf := same ▸ sendable.holdsLabel
  have handled := handleRecord_label loaded passes
  rw [labelIn_eq loaded holds.2.2] at handled
  cases result : Shm.handleRecord message.buf.length buf with
  | skipped =>
    rw [result] at handled
    cases handled
  | abandoned =>
    rw [result] at handled
    cases handled
  | dispatched dispatch =>
    rw [result] at handled
    cases handled
    rfl

namespace Sys

variable {ι : Type*} {sys : Sys ι}

/-- A `recv` that succeeds returns the message of a call that has a place in the ring. -/
theorem IsFifo.found (fifo : sys.IsFifo) {run : RecvRun}
    (returned : Shm.recv (recvFuel sys.block) sys.block sys.recvBuf recvBufSize = .returned run)
    (found : run.data.code = .none) : ∃ r ∈ sys.reservations,
      run.data.bufSize = (sys.calls r.owner).message.buf.length ∧
        run.buf.load 0 (sys.calls r.owner).message.buf.length =
          (sys.calls r.owner).message.buf := by
  obtain ⟨run', again, answer, _, _, _⟩ := fifo.recv
  cases returned.symm.trans again
  have front : ∀ r rest, sys.outstanding = r :: rest → r ∈ sys.reservations := by
    intro r rest split
    exact List.mem_of_mem_drop (show r ∈ sys.outstanding from split ▸ List.mem_cons_self)
  unfold queue at answer
  cases split : sys.outstanding with
  | nil =>
    rw [split] at answer
    have none_left : run.data.code = .noRecords := answer
    rw [found] at none_left
    cases none_left
  | cons r rest =>
    rw [split, List.map_cons, Ticket.recv] at answer
    split at answer
    · obtain ⟨data, payload⟩ := answer
      exact ⟨r, front r rest split, congrArg ShmRecvData.bufSize data, payload⟩
    · have pending : run.data.code = .notYetPublished := answer
      rw [found] at pending
      cases pending

/-- The owner of a place in the ring has begun. -/
theorem Inv.reserved_begun (inv : sys.Inv) {r : Reservation ι} (member : r ∈ sys.reservations) :
    (sys.calls r.owner).pc ≠ .idle := by
  obtain ⟨inLog, isData⟩ := List.mem_filter.mp member
  intro idle
  have owner := ((inv.owned r inLog).data (by simpa using isData)).2
  rw [idle] at owner
  exact SendPc.not_ownsData (show SendPc.idle.dataAt = none from rfl) (by rintro ⟨⟩) _ owner

end Sys

namespace ShmRecvWorker

variable {ι : Type*} [DecidableEq ι] {worker : ShmRecvWorker ι}

/-- Schedules of senders of labels and of a worker that never loses patience with a sender. -/
def Carries (_ : ShmRecvWorker ι) : Action ι → Prop
  | .begin _ message => message.IsFrame
  | .poll expired => expired = false
  | _ => True

/-- Such a schedule needs no re-initialisation. -/
theorem Awake.calm (awake : worker.Awake) (bound : worker.sys.reservedBytes < 2 ^ 64)
    {action : Action ι} (carries : worker.Carries action) : worker.Calm action := by
  cases action with
  | begin c message =>
    obtain ⟨dispatch, sendable, same⟩ := carries
    exact sendable.inRange same
  | poll expired =>
    refine ⟨carries, ?_⟩
    rintro ⟨run, returned, bad⟩
    obtain ⟨run', again, _, _, codes, _⟩ := (awake.sound.isFifo bound).recv
    cases returned.symm.trans again
    rcases codes with code | code | code <;> rw [code] at bad <;> simp at bad
  | advanceMarked | wake | waitError | requestStop => trivial

/-- The calls carry labels, and the worker has dispatched the labels of the records it was given. -/
structure Forwards (worker : ShmRecvWorker ι) : Prop where
  awake : worker.Awake
  frames : ∀ c, (worker.sys.calls c).pc ≠ .idle → (worker.sys.calls c).message.IsFrame
  forwarded : worker.dispatched =
    worker.sys.delivered.map fun delivery => labelAt delivery.payload

/-- What one `recv` of the worker does to what it was given and to what it dispatched. -/
theorem Forwards.poll (forwards : worker.Forwards) (bound : worker.sys.reservedBytes < 2 ^ 64) :
    (worker.poll false).sys.calls = worker.sys.calls ∧
      (worker.poll false).dispatched =
        (worker.poll false).sys.delivered.map fun delivery => labelAt delivery.payload := by
  have fifo := forwards.awake.sound.isFifo bound
  obtain ⟨run, returned, _, _, codes, _⟩ := fifo.recv
  have received := Sys.receive_eq returned
  have kept := forwards.forwarded
  unfold ShmRecvWorker.poll
  split
  · exact ⟨rfl, kept⟩
  rw [returned]
  rcases codes with found | empty | unfinished
  · obtain ⟨r, member, size, loaded⟩ := fifo.found returned found
    have frame := forwards.frames r.owner (forwards.awake.sound.inv.reserved_begun member)
    have handled := frame.handleRecord loaded
    simp only [getNextRecord, found, take, size, handled, received, Sys.deliveryOf, ↓reduceIte,
      List.map_append, List.map_cons, List.map_nil, loaded, kept, and_self]
  · simp only [getNextRecord, empty, again, received, Sys.deliveryOf, reduceCtorEq, ↓reduceIte,
      List.append_nil, kept, and_self]
  · simp only [getNextRecord, unfinished, received, Sys.deliveryOf, reduceCtorEq, ↓reduceIte,
      Bool.false_eq_true, List.append_nil, kept, and_self]

/-- No step of a call makes another call begin, or changes a message. -/
theorem frames_advance {sys : Sys ι}
    (frames : ∀ c, (sys.calls c).pc ≠ .idle → (sys.calls c).message.IsFrame) (c : ι)
    (spurious : Bool) : ∀ d, ((sys.advance c spurious).calls d).pc ≠ .idle →
      ((sys.advance c spurious).calls d).message.IsFrame := by
  have moved := sys.advance_moved c spurious
  intro d begun
  by_cases mine : d = c
  · subst mine
    rw [moved.self] at begun ⊢
    refine frames d fun idle => begun ?_
    rw [idle]
    rfl
  · rw [moved.other mine] at begun ⊢
    exact frames d begun

private theorem frames_advanceMarked {sys : Sys ι}
    (frames : ∀ c, (sys.calls c).pc ≠ .idle → (sys.calls c).message.IsFrame) (c : ι)
    (spurious : Bool) : ∀ d, ((sys.advanceMarked c spurious).calls d).pc ≠ .idle →
      ((sys.advanceMarked c spurious).calls d).message.IsFrame := by
  have first := frames_advance frames c spurious
  unfold Sys.advanceMarked
  split
  · exact first
  · have third := frames_advance (frames_advance first c false) c false
    split
    · exact frames_advance third c false
    · exact third

private theorem advanceMarked_delivered (sys : Sys ι) (c : ι) (spurious : Bool) :
    (sys.advanceMarked c spurious).delivered = sys.delivered := by
  unfold Sys.advanceMarked
  split
  · rfl
  · split <;> rfl

theorem Forwards.step (forwards : worker.Forwards) {action : Action ι}
    (carries : worker.Carries action) (bound : (worker.step action).sys.reservedBytes < 2 ^ 64) :
    (worker.step action).Forwards := by
  have before := (worker.reservedBytes_le_step action).trans_lt bound
  have awake := forwards.awake.step (forwards.awake.calm before carries) bound
  obtain ⟨_, frames, forwarded⟩ := forwards
  cases action with
  | begin c message =>
    have delivered : (worker.sys.begin c message).delivered = worker.sys.delivered := by
      unfold Sys.begin
      split <;> rfl
    refine ⟨awake, ?_, forwarded.trans (congrArg _ delivered).symm⟩
    simp only [ShmRecvWorker.step, Sys.begin]
    split
    · intro d begun
      dsimp only at begun ⊢
      by_cases mine : d = c
      · subst mine
        rw [Function.update_self]
        exact carries
      · rw [Function.update_of_ne mine] at begun ⊢
        exact frames d begun
    · exact frames
  | advanceMarked c spurious =>
    exact ⟨awake, frames_advanceMarked frames c spurious,
      forwarded.trans (congrArg _ (advanceMarked_delivered worker.sys c spurious)).symm⟩
  | wake =>
    refine ⟨awake, ?_, ?_⟩ <;> simp only [ShmRecvWorker.step, ShmRecvWorker.wake]
    · split <;> exact frames
    · split <;> exact forwarded
  | waitError =>
    refine ⟨awake, ?_, ?_⟩ <;> simp only [ShmRecvWorker.step, ShmRecvWorker.waitError]
    · split
      · exact frames
      · split <;> exact frames
    · split
      · exact forwarded
      · split <;> exact forwarded
  | poll expired =>
    obtain rfl : expired = false := carries
    obtain ⟨calls, forwarded⟩ := Forwards.poll ⟨‹_›, frames, forwarded⟩ before
    refine ⟨awake, ?_, forwarded⟩
    simp only [ShmRecvWorker.step, calls]
    exact frames
  | requestStop => exact ⟨awake, frames, forwarded⟩

theorem Forwards.start {id : NodeId} {block : ShmBlock} (fresh : block.Fresh) (buf : ByteMemory)
    (semaphore : ℕ) : (start id (Sys.initial block buf semaphore : Sys ι)).Forwards where
  awake := by
    refine ⟨Sys.fused_sound fresh .refl (Nat.two_pow_pos 64), ?_⟩
    change (Sys.initial block buf semaphore : Sys ι).posted.card ≤ _
    simp [Sys.posted, Sys.initial]
  frames c begun := by cases begun rfl
  forwarded := rfl

theorem Forwards.run {id : NodeId} {block : ShmBlock} (fresh : block.Fresh) {buf : ByteMemory}
    {semaphore : ℕ}
    (run : Reaches ShmRecvWorker.step Carries
      (ShmRecvWorker.start id (Sys.initial block buf semaphore))
      worker) (bound : worker.sys.reservedBytes < 2 ^ 64) : worker.Forwards := by
  refine run.invariant (fun state => state.sys.reservedBytes < 2 ^ 64 → state.Forwards) ?_ ?_ bound
  · exact fun _ => .start fresh buf semaphore
  · intro state action holds carries small
    exact (holds ((state.reservedBytes_le_step action).trans_lt small)).step carries small

/-- The label that a place in the ring was reserved for. -/
def labelOf (worker : ShmRecvWorker ι) (r : Reservation ι) : Dispatch :=
  labelAt (worker.sys.calls r.owner).message.buf

/-- What was dispatched is what the oldest places of the ring were reserved for. -/
theorem Forwards.dispatched_eq (forwards : worker.Forwards)
    (bound : worker.sys.reservedBytes < 2 ^ 64) :
    worker.dispatched =
      (worker.sys.reservations.take worker.sys.delivered.length).map worker.labelOf := by
  have ordered := (forwards.awake.sound.isFifo bound).ordered
  have payloads := congrArg (List.map fun entry => labelAt entry.2) ordered
  rw [List.map_map, List.map_map] at payloads
  rw [forwards.forwarded]
  exact payloads

/-- With every call at its end and the worker blocked, no place of the ring is left. -/
theorem Awake.drained (awake : worker.Awake) (waiting : worker.pc = .waiting)
    (blocked : worker.sys.semaphore = 0)
    (quiet : ∀ c, (worker.sys.calls c).pc = .idle ∨ ∃ code, (worker.sys.calls c).pc = .done code) :
    worker.sys.reservations.length ≤ worker.sys.delivered.length := by
  have inv := awake.sound.inv
  have answered := awake.answered
  rw [if_pos waiting, blocked] at answered
  have posted (c : ι) : (worker.sys.calls c).pc.awaitsPost = false := by
    rcases quiet c with idle | ⟨code, done⟩
    · rw [idle]
      rfl
    · rw [done]
      rfl
  have none_left := awake.sound.not_committedRemains (by omega) posted
  by_contra more
  have outstanding : worker.sys.outstanding ≠ [] := by
    rw [Sys.outstanding, ne_eq, List.drop_eq_nil_iff]
    exact more
  obtain ⟨r, member⟩ := List.exists_mem_of_ne_nil _ outstanding
  rw [(awake.sound.account.outstanding_eq inv).1] at member
  obtain ⟨unread, isData⟩ := List.mem_filter.mp member
  have isData : r.wrap = false := by simpa using isData
  obtain ⟨inLog, lower⟩ := Sys.mem_unread.mp unread
  have owner := ((inv.owned r inLog).data isData).2
  have committed : (worker.sys.calls r.owner).pc.hasCommitted = true := by
    rcases owner with ⟨gen, writing⟩ | finished
    · rcases quiet r.owner with idle | ⟨code, done⟩
      · rw [idle] at writing
        cases writing
      · rw [done] at writing
        cases writing
    · rw [finished]
      rfl
  have header := (inv.read_committed unread isData committed).1
  have bounds := inv.tiles.mem_bounds inLog
  exact none_left ⟨r, inLog, isData, lower, by omega, congrArg RecordHeader.state header⟩

/-- The shared-memory path from `send` to `distribute_recvd_label`, with any number of senders in
any interleaving: the worker dispatches the labels of the records in the order in which the ring
reserved them, and no call has two records. When every call is at its end and the worker is blocked
again, the labels dispatched are those of all calls that returned success, and of no others. -/
theorem shm_path_exact {id : NodeId} {opened : OpenedBlock} {block : ShmBlock}
    (success : createOrOpen id opened = (true, block)) {buf : ByteMemory} {semaphore : ℕ}
    (run : Reaches ShmRecvWorker.step Carries
      (ShmRecvWorker.start id (Sys.initial block buf semaphore))
      worker) (bound : worker.sys.reservedBytes < 2 ^ 64) :
    worker.dispatched =
        (worker.sys.reservations.take worker.dispatched.length).map worker.labelOf ∧
      (worker.sys.reservations.map Reservation.owner).Nodup ∧
      (∀ r ∈ worker.sys.reservations, ∀ dispatch : Dispatch, dispatch.Sendable →
        (worker.sys.calls r.owner).message.buf = dispatch.frame → worker.labelOf r = dispatch) ∧
      (worker.pc = .waiting → worker.sys.semaphore = 0 →
        (∀ c, (worker.sys.calls c).pc = .idle ∨ ∃ code, (worker.sys.calls c).pc = .done code) →
        worker.dispatched = worker.sys.reservations.map worker.labelOf ∧
          ∀ c, (worker.sys.calls c).pc = .done .none ↔
            c ∈ worker.sys.reservations.map Reservation.owner) := by
  have forwards := Forwards.run (createOrOpen_fresh success) run bound
  have fifo := forwards.awake.sound.isFifo bound
  have dispatched := forwards.dispatched_eq bound
  have length : worker.dispatched.length = worker.sys.delivered.length := by
    rw [forwards.forwarded, List.length_map]
  refine ⟨length ▸ dispatched, fifo.once, ?_,
    fun waiting blocked quiet => ⟨?_, fun c => ⟨fifo.returned c, ?_⟩⟩⟩
  · intro r _ dispatch sendable same
    have label := sendable.labelAt_frame []
    rwa [List.append_nil, ← same] at label
  · rw [dispatched, List.take_of_length_le (forwards.awake.drained waiting blocked quiet)]
  · intro place
    obtain ⟨r, member, rfl⟩ := List.mem_map.mp place
    rcases quiet r.owner with idle | ⟨code, done⟩
    · exact absurd idle (forwards.awake.sound.inv.reserved_begun member)
    · by_cases succeeded : code = .none
      · rw [done, succeeded]
      · exact absurd place (fifo.failed r.owner code done succeeded)

/-- A label of three bytes. -/
def shortLabel : Dispatch := ⟨3, 7, [1, 2, 3], 0⟩

theorem shortLabel_sendable : shortLabel.Sendable := ⟨by decide, by decide, by decide⟩

/-- One call sends the label, and the worker drains the block and waits again. -/
def labelAndDrain : List (Action Unit) :=
  .begin () ⟨3, 7, 9, shortLabel.frame⟩ :: List.replicate 10 (.advanceMarked () false) ++
    [.wake, .poll false, .poll false]

def afterLabel : ShmRecvWorker Unit :=
  labelAndDrain.foldl step (.start 0 (Sys.initial (createOrOpen 0 .created).2 (fun _ => 0) 0))

theorem shm_path_exact_label : afterLabel.dispatched = [shortLabel] := by
  have run : Reaches step Carries
      (.start 0 (Sys.initial (createOrOpen 0 .created).2 (fun _ => 0) 0)) afterLabel := by
    apply Reaches.foldl
    intro action member state
    simp only [labelAndDrain, List.cons_append, List.mem_cons, List.mem_append, List.mem_replicate,
      List.not_mem_nil, or_false] at member
    rcases member with rfl | ⟨_, rfl⟩ | rfl | rfl | rfl
    · exact ⟨shortLabel, shortLabel_sendable, rfl⟩
    · trivial
    · trivial
    · rfl
    · rfl
  obtain ⟨dispatched, _, labels, _⟩ :=
    shm_path_exact (createOrOpen_created 0) run (by decide +kernel)
  have places : afterLabel.sys.reservations = [⟨0, 80, (), false⟩] := by decide +kernel
  have one : afterLabel.dispatched.length = 1 := by decide +kernel
  rw [places] at labels dispatched
  rw [dispatched, one]
  have label := labels ⟨0, 80, (), false⟩ (List.mem_singleton.mpr rfl) shortLabel
    shortLabel_sendable (by decide +kernel)
  simp only [List.take_succ_cons, List.take_zero, List.map_cons, List.map_nil, label]

end ShmRecvWorker

end Eroil.Shm
