import Eroil.Proofs.Router.RecvIosb

/-! # When a delivery signals

The semaphore of a handle is signalled from the branches of the signal mode, at most once for a
delivery. A delivery therefore has three effects that are decided before it starts: whether it
copies, whether it reports and whether it signals.
-/

namespace Eroil

open Lib

namespace RecvHandle

variable {handle : RecvHandle} {arrival : Arrival} {world : RecvWorld}

/-- The branch of the signal mode calls `try_signal_sem`. -/
def signals (handle : RecvHandle) : Bool :=
  match handle.data.signalMode with
  | .overwrite => false
  | .bufferFull =>
      handle.data.recvCount == handle.data.bufSlots ||
        wrap32 (handle.data.recvCount + 1) == handle.data.bufSlots
  | .everyMessage => true
  | .signalAllWriteAll => true

/-- The delivery signals the semaphore. -/
def wakes (handle : RecvHandle) (arrival : Arrival) : Bool :=
  handle.admits arrival.recvOffset && handle.signals

private theorem trySignalSem_semaphores {left right : RecvWorld}
    (same : left.semaphores = right.semaphores)
    (sem : Option ℕ) :
    (left.trySignalSem sem).semaphores = (right.trySignalSem sem).semaphores := by
  cases sem with
  | none => exact same
  | some id => simp only [RecvWorld.trySignalSem, same]

theorem writeRecvIosb_semaphores (handle : RecvHandle) (world : RecvWorld) (arrival : Arrival)
    (slot dst : ℕ) : (handle.writeRecvIosb world arrival slot dst).1.semaphores =
      world.semaphores := by
  unfold writeRecvIosb
  split
  · rfl
  · split <;> rfl

/-- A signal after an IOSB was written goes to the same semaphore. -/
theorem signal_after_report (filled : RecvWorld × RecvHandle) (arrival : Arrival) (slot dst : ℕ)
    (sem : Option ℕ) (same : filled.1.semaphores = world.semaphores)
    (kept : filled.2.data.sem = sem) :
    ((filled.2.writeRecvIosb filled.1 arrival slot dst).1.trySignalSem
        (filled.2.writeRecvIosb filled.1 arrival slot dst).2.data.sem).semaphores =
      (world.trySignalSem sem).semaphores := by
  have reported : (filled.2.writeRecvIosb filled.1 arrival slot dst).2.data.sem = sem := by
    have slots := writeRecvIosb_slots filled.2 filled.1 arrival slot dst
    exact (congrArg (·.data.sem) slots).trans kept
  rw [reported]
  exact trySignalSem_semaphores ((writeRecvIosb_semaphores ..).trans same) sem

/-- Under the lock the semaphores change in the signalling branches only. -/
private theorem semaphores_deliverLocked (handle : RecvHandle) (arrival : Arrival) (world : RecvWorld)
    (base : ℕ) :
    (handle.deliverLocked arrival world base).1.semaphores =
      if handle.signals then (world.trySignalSem handle.data.sem).semaphores
      else world.semaphores := by
  unfold deliverLocked signals
  cases mode : handle.data.signalMode with
  | overwrite => exact writeRecvIosb_semaphores ..
  | bufferFull =>
    by_cases full : handle.data.recvCount = handle.data.bufSlots
    · simp only [full, ↓reduceIte, BEq.rfl, Bool.true_or]
    · have notFull : (handle.data.recvCount == handle.data.bufSlots) = false := by simpa using full
      simp only [full, ↓reduceIte, notFull, Bool.false_or]
      by_cases last : wrap32 (handle.data.recvCount + 1) = handle.data.bufSlots
      · have fills : (handle.fillSlot world arrival (handle.slotAddress base)).2.data.recvCount =
            (handle.fillSlot world arrival (handle.slotAddress base)).2.data.bufSlots := last
        simp only [fills, ↓reduceIte, last, BEq.rfl]
        exact signal_after_report _ arrival _ _ _ rfl rfl
      · have room : ¬ (handle.fillSlot world arrival (handle.slotAddress base)).2.data.recvCount =
            (handle.fillSlot world arrival (handle.slotAddress base)).2.data.bufSlots := last
        have notLast : (wrap32 (handle.data.recvCount + 1) == handle.data.bufSlots) = false := by
          simpa using last
        simp only [room, ↓reduceIte, notLast, Bool.false_eq_true]
        rfl
  | everyMessage =>
    by_cases room : handle.data.recvCount < handle.data.bufSlots
    · simp only [room, ↓reduceIte]
      exact signal_after_report _ arrival _ _ _ rfl rfl
    · simp only [room, ↓reduceIte]
      exact signal_after_report (world, handle) arrival _ _ _ rfl rfl
  | signalAllWriteAll => exact signal_after_report _ arrival _ _ _ rfl rfl

/-- A delivery signals the handle's semaphore once, or leaves the semaphores alone. -/
theorem semaphores_deliver (handle : RecvHandle) (arrival : Arrival) (world : RecvWorld) :
    (handle.deliver arrival world).1.semaphores =
      if handle.wakes arrival then (world.trySignalSem handle.data.sem).semaphores
      else world.semaphores := by
  unfold wakes
  cases admitted : handle.admits arrival.recvOffset with
  | false =>
    rw [deliver_rejected admitted]
    rfl
  | true =>
    cases buffer : handle.data.buf with
    | none => simp [admits, buffer] at admitted
    | some base =>
      rw [deliver_admitted buffer admitted, semaphores_deliverLocked]
      simp only [Bool.true_and]

end RecvHandle

namespace Mailbox

variable {capacity : ℕ}

/-- An operation makes the semaphore ring: a delivery to a handle that is not idle, in mode
`BUFFER_FULL` only if the buffer is full afterwards, and in mode `OVERWRITE` never. -/
def rings (mode : SignalMode) (mailbox : Mailbox capacity) : RecvHandle.Op → Bool
  | .deliver arrival =>
      !mailbox.idle &&
        match mode with
        | .overwrite => false
        | .bufferFull => (mailbox.queue.push arrival.buf).length == capacity
        | .everyMessage => true
        | .signalAllWriteAll => true
  | .call _ => false

/-- How often the semaphore rings in a run. -/
def ringCount (mode : SignalMode) : Mailbox capacity → List RecvHandle.Op → ℕ
  | _, [] => 0
  | mailbox, op :: rest => (mailbox.rings mode op).toNat + ringCount mode (mailbox.step op) rest

end Mailbox

namespace RecvHandle

variable {handle : RecvHandle} {world : RecvWorld} {capacity size : ℕ} {mailbox : Mailbox capacity}
  {mode : SignalMode} {sem : Option ℕ}

/-- The handle with a mailbox that is idle when it is; only in mode `BUFFER_FULL` does a signal
depend on the queue. -/
structure Listens (mode : SignalMode) (sem : Option ℕ) (world : RecvWorld) (handle : RecvHandle)
    (size : ℕ) (mailbox : Mailbox capacity) : Prop where
  valid : Valid handle
  signalMode : handle.data.signalMode = mode
  semaphore : handle.data.sem = sem
  idle : handle.isIdle = mailbox.idle
  filled : mode = .bufferFull → Represents world handle size mailbox

/-- A delivery signals exactly if the mailbox rings. -/
private theorem Listens.wakes_eq (listens : Listens mode sem world handle size mailbox)
    {arrival : Arrival}
    (start : arrival.recvOffset = 0) :
    handle.wakes arrival = mailbox.rings mode (.deliver arrival) := by
  have admits : handle.admits arrival.recvOffset = !mailbox.idle := by
    obtain ⟨base, buffer⟩ := listens.valid.buffer
    simp [RecvHandle.admits, buffer, listens.valid.bufSlots_ne_zero, listens.valid.bufSize_ne_zero,
      start, listens.idle]
  simp only [wakes, admits, Mailbox.rings]
  congr 1
  rw [signals, listens.signalMode]
  cases known : mode with
  | overwrite => rfl
  | bufferFull =>
    have represents := listens.filled known
    have count := represents.count
    have slots := represents.bufSlots
    have bounded := mailbox.queue.length_le
    rw [Bool.eq_iff_iff]
    simp only [Bool.or_eq_true, beq_iff_eq]
    rcases Nat.lt_or_ge mailbox.queue.length capacity with room | full
    · rw [BoundedQueue.length_push _ _ room, wrap32_of_lt (by omega)]
      omega
    · rw [BoundedQueue.push_full _ _ (by omega)]
      omega
  | everyMessage => rfl
  | signalAllWriteAll => rfl

private theorem step_idle (state : RecvWorld × RecvHandle) (mailbox : Mailbox capacity) (op : Op)
    (same : state.2.isIdle = mailbox.idle) :
    (step state op).2.isIdle = (mailbox.step op).idle := by
  cases op with
  | deliver arrival =>
    refine (congrArg (·.isIdle) (state.2.deliver_static arrival state.1)).trans (same.trans ?_)
    simp only [Mailbox.step]
    split <;> rfl
  | call call =>
    cases call with
    | recvDismiss count =>
      refine Eq.trans ?_ same
      simp only [step, call, recvDismiss]
      split <;> rfl
    | recvReset => exact same
    | recvRedirect =>
      have kept : (step state (.call .recvRedirect)).2.isIdle = state.2.isIdle := by
        simp only [step, call, recvRedirect]
        split <;> rfl
      refine kept.trans (same.trans ?_)
      simp only [Mailbox.step]
      split <;> rfl
    | recvIdle => rfl
    | recvResume => rfl

theorem call_mode_sem (handle : RecvHandle) (call : Call) :
    (handle.call call).data.signalMode = handle.data.signalMode ∧
      (handle.call call).data.sem = handle.data.sem := by
  cases call with
  | recvDismiss count =>
    simp only [RecvHandle.call, recvDismiss]
    split <;> exact ⟨rfl, rfl⟩
  | recvRedirect =>
    simp only [RecvHandle.call, recvRedirect]
    split <;> exact ⟨rfl, rfl⟩
  | recvReset => exact ⟨rfl, rfl⟩
  | recvIdle => exact ⟨rfl, rfl⟩
  | recvResume => exact ⟨rfl, rfl⟩

theorem Listens.step (listens : Listens mode sem world handle size mailbox) (op : Op)
    (whole : Whole size op) :
    Listens mode sem (step (world, handle) op).1 (step (world, handle) op).2 size
      (mailbox.step op) where
  valid := by
    have valid : Valid (world, handle).2 := listens.valid
    exact valid.step op
  signalMode := by
    refine Eq.trans ?_ listens.signalMode
    cases op with
    | deliver arrival => exact congrArg (·.data.signalMode) (handle.deliver_static arrival world)
    | call call => exact (handle.call_mode_sem call).1
  semaphore := by
    refine Eq.trans ?_ listens.semaphore
    cases op with
    | deliver arrival => exact congrArg (·.data.sem) (handle.deliver_static arrival world)
    | call call => exact (handle.call_mode_sem call).2
  idle := step_idle (world, handle) mailbox op listens.idle
  filled known := (listens.filled known).step op whole

/-- A semaphore changes by the rings of its own handle. -/
private theorem Listens.step_semaphore
    (listens : Listens mode sem world handle size mailbox) (op : Op)
    (whole : Whole size op) (id : ℕ) :
    (RecvHandle.step (world, handle) op).1.semaphores id =
      world.semaphores id + if sem = some id then (mailbox.rings mode op).toNat else 0 := by
  cases op with
  | deliver arrival =>
    refine (congrFun (handle.semaphores_deliver arrival world) id).trans ?_
    rw [listens.wakes_eq whole.1, listens.semaphore]
    cases rings : mailbox.rings mode (.deliver arrival) with
    | false => simp
    | true =>
      cases sem with
      | none => simp [RecvWorld.trySignalSem]
      | some own =>
        simp only [RecvWorld.trySignalSem, ↓reduceIte, Option.some.injEq, Bool.toNat_true]
        by_cases here : id = own
        · simp [here]
        · simp [here, Ne.symm here]
  | call call => simp [RecvHandle.step, Mailbox.rings]

theorem Listens.run (ops : List Op) (whole : ∀ op ∈ ops, Whole size op)
    (listens : Listens mode sem world handle size mailbox) (id : ℕ) :
    (ops.foldl RecvHandle.step (world, handle)).1.semaphores id =
      world.semaphores id + if sem = some id then mailbox.ringCount mode ops else 0 := by
  induction ops generalizing world handle mailbox with
  | nil => simp [Mailbox.ringCount]
  | cons op rest ih =>
    have here := whole op List.mem_cons_self
    have later := ih (fun op member => whole op (List.mem_cons_of_mem _ member))
      (listens.step op here)
    rw [List.foldl_cons, later, listens.step_semaphore op here id]
    split
    · rw [Mailbox.ringCount]
      omega
    · rfl

/-- Whatever is delivered and called, the semaphore of a handle counts the deliveries that the
signal mode reports: all that reach a handle that is not idle, in mode `BUFFER_FULL` those after
which the buffer is full, and none in mode `OVERWRITE`. No other semaphore changes. -/
theorem semaphore_counts_reports (world : RecvWorld) (uid : HandleUid) (request : RecvRequest)
    (ops : List Op) (accepted : (openRecvLabel request).accepted = true)
    (whole : ∀ op ∈ ops, Whole request.size op) (id : ℕ) :
    (ops.foldl RecvHandle.step (world, .new uid (openRecvLabel request))).1.semaphores id =
      world.semaphores id +
        if request.sem = some id then (Mailbox.opened request).ringCount request.signalMode ops
        else 0 :=
  Listens.run ops whole
    { valid := .new uid request accepted
      signalMode := rfl
      semaphore := rfl
      idle := rfl
      filled := fun known => .opened world uid request accepted (.inl known) } id

/-- The second message fills the buffer, the third finds it full and the fourth fills it again. -/
theorem semaphore_counts_reports_pair :
    (pairOps.foldl RecvHandle.step (blank, .new 1 (openRecvLabel pairRequest))).1.semaphores 1 = 3 :=
  (semaphore_counts_reports blank 1 pairRequest pairOps (by decide)
    (by simp [pairOps, arrivalOf, Whole, pairRequest]) 1).trans (by decide +kernel)

end RecvHandle

end Eroil
