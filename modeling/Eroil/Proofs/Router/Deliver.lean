import Eroil.Model.Router.RecvHandle

/-! # What one delivery does to a subscriber

A delivery either copies the message into the next slot and advances, or it leaves message memory
and the slot counters alone; which of the two is decided before anything is written. The position
in the IOSB array moves independently, so handles are compared without it.
-/

namespace Eroil.RecvHandle

open Lib

/-- The handle with its IOSB position erased. -/
def slots (handle : RecvHandle) : RecvHandle := { handle with data.iosbIndex := 0 }

/-- The counters after a copy. -/
def advance (handle : RecvHandle) : RecvHandle :=
  { handle with
    data.recvCount := wrap32 (handle.data.recvCount + 1)
    data.bufIndex := (handle.data.bufIndex + 1) % handle.data.bufSlots }

/-- The signal mode allows another copy. -/
def hasRoom (handle : RecvHandle) : Bool :=
  match handle.data.signalMode with
  | .overwrite => true
  | .bufferFull => handle.data.recvCount != handle.data.bufSlots
  | .everyMessage => handle.data.recvCount < handle.data.bufSlots
  | .signalAllWriteAll => true

/-- The checks before the lock let the delivery pass. -/
def admits (handle : RecvHandle) (recvOffset : ℕ) : Bool :=
  handle.data.buf.isSome && handle.data.bufSlots != 0 && handle.data.bufSize != 0 &&
    recvOffset ≤ handle.data.bufSize && !handle.isIdle

/-- The delivery copies its message into the subscriber's buffer. -/
def copies (handle : RecvHandle) (recvOffset : ℕ) : Bool :=
  handle.admits recvOffset && handle.hasRoom

variable {handle : RecvHandle} {arrival : Arrival} {world : RecvWorld}

@[simp] theorem trySignalSem_memory (world : RecvWorld) (sem : Option ℕ) :
    (world.trySignalSem sem).memory = world.memory := by
  cases sem <;> rfl

@[simp] theorem writeRecvIosb_memory (handle : RecvHandle) (world : RecvWorld) (arrival : Arrival)
    (slot dst : ℕ) : (handle.writeRecvIosb world arrival slot dst).1.memory = world.memory := by
  unfold writeRecvIosb
  split
  · rfl
  · split <;> rfl

@[simp] theorem writeRecvIosb_slots (handle : RecvHandle) (world : RecvWorld) (arrival : Arrival)
    (slot dst : ℕ) : (handle.writeRecvIosb world arrival slot dst).2.slots = handle.slots := by
  unfold writeRecvIosb
  split
  · rfl
  · split <;> rfl

@[simp] theorem fillSlot_memory (handle : RecvHandle) (world : RecvWorld) (arrival : Arrival)
    (dst : ℕ) : (handle.fillSlot world arrival dst).1.memory =
      world.memory.store (dst + arrival.recvOffset) arrival.buf := rfl

@[simp] theorem fillSlot_slots (handle : RecvHandle) (world : RecvWorld) (arrival : Arrival)
    (dst : ℕ) : (handle.fillSlot world arrival dst).2.slots = handle.advance.slots := rfl

private theorem deliverLocked_refused (base : ℕ) (noRoom : handle.hasRoom = false) :
    (handle.deliverLocked arrival world base).1.memory = world.memory ∧
      (handle.deliverLocked arrival world base).2.slots = handle.slots := by
  unfold deliverLocked
  cases mode : handle.data.signalMode with
  | overwrite => simp [hasRoom, mode] at noRoom
  | bufferFull =>
    have full : handle.data.recvCount = handle.data.bufSlots := by simpa [hasRoom, mode] using noRoom
    simp [full]
  | everyMessage =>
    have full : ¬ handle.data.recvCount < handle.data.bufSlots := by
      simpa [hasRoom, mode] using noRoom
    simp [full]
  | signalAllWriteAll => simp [hasRoom, mode] at noRoom

private theorem deliverLocked_copied (base : ℕ) (room : handle.hasRoom = true) :
    (handle.deliverLocked arrival world base).1.memory =
        world.memory.store (handle.slotAddress base + arrival.recvOffset) arrival.buf ∧
      (handle.deliverLocked arrival world base).2.slots = handle.advance.slots := by
  unfold deliverLocked
  cases mode : handle.data.signalMode with
  | overwrite => simp
  | bufferFull =>
    have notFull : ¬ handle.data.recvCount = handle.data.bufSlots := by
      simpa [hasRoom, mode] using room
    simp only [notFull, ↓reduceIte]
    split <;> simp
  | everyMessage =>
    have notFull : handle.data.recvCount < handle.data.bufSlots := by simpa [hasRoom, mode] using room
    simp [notFull]
  | signalAllWriteAll => simp

theorem deliver_rejected (rejected : handle.admits arrival.recvOffset = false) :
    handle.deliver arrival world = (world, handle) := by
  unfold deliver
  split
  · rfl
  · next base buffer =>
    split_ifs with noSlots noSize offset idle
    any_goals rfl
    simp [admits, buffer, noSlots, noSize, idle, Nat.not_lt.mp offset] at rejected

theorem deliver_admitted {base : ℕ} (buffer : handle.data.buf = some base)
    (admitted : handle.admits arrival.recvOffset = true) :
    handle.deliver arrival world = handle.deliverLocked arrival world base := by
  simp only [admits, buffer, Option.isSome_some, Bool.true_and, Bool.and_eq_true, bne_iff_ne, ne_eq,
    decide_eq_true_eq, Bool.not_eq_true'] at admitted
  obtain ⟨⟨⟨noSlots, noSize⟩, offset⟩, idle⟩ := admitted
  simp only [deliver, buffer, noSlots, noSize, idle, Nat.not_lt.mpr offset, ↓reduceIte,
    Bool.false_eq_true]

/-- A delivery that does not copy changes neither message memory nor the slot counters. -/
theorem deliver_refused (world : RecvWorld) (refused : handle.copies arrival.recvOffset = false) :
    (handle.deliver arrival world).1.memory = world.memory ∧
      (handle.deliver arrival world).2.slots = handle.slots := by
  cases admitted : handle.admits arrival.recvOffset with
  | false =>
    rw [deliver_rejected admitted]
    exact ⟨rfl, rfl⟩
  | true =>
    have noRoom : handle.hasRoom = false := by simpa [copies, admitted] using refused
    cases buffer : handle.data.buf with
    | none => simp [admits, buffer] at admitted
    | some base =>
      rw [deliver_admitted buffer admitted]
      exact deliverLocked_refused base noRoom

/-- A delivery that copies stores the whole message at its offset in the next slot. -/
theorem deliver_copied {base : ℕ} (world : RecvWorld) (buffer : handle.data.buf = some base)
    (copied : handle.copies arrival.recvOffset = true) :
    (handle.deliver arrival world).1.memory =
        world.memory.store (handle.slotAddress base + arrival.recvOffset) arrival.buf ∧
      (handle.deliver arrival world).2.slots = handle.advance.slots := by
  obtain ⟨admitted, room⟩ := Bool.and_eq_true_iff.mp copied
  rw [deliver_admitted buffer admitted]
  exact deliverLocked_copied base room

/-- The handle without any of its counters. -/
def static (handle : RecvHandle) : RecvHandle :=
  { handle with data.iosbIndex := 0, data.bufIndex := 0, data.recvCount := 0 }

theorem static_slots (handle : RecvHandle) : handle.slots.static = handle.static := rfl

private theorem static_advance (handle : RecvHandle) : handle.advance.static = handle.static := rfl

/-- A delivery changes nothing but the counters of the handle. -/
theorem deliver_static (handle : RecvHandle) (arrival : Arrival) (world : RecvWorld) :
    (handle.deliver arrival world).2.static = handle.static := by
  cases copied : handle.copies arrival.recvOffset with
  | false => rw [← static_slots, (deliver_refused world copied).2, static_slots]
  | true =>
    cases buffer : handle.data.buf with
    | none => simp [copies, admits, buffer] at copied
    | some base =>
      rw [← static_slots, (deliver_copied world buffer copied).2, static_slots, static_advance]

/-- What `Manager::open_recv` checks, and the bound on the slot index. -/
structure Valid (handle : RecvHandle) : Prop where
  accepted : handle.data.accepted = true
  inside : handle.data.bufIndex < handle.data.bufSlots

namespace Valid

theorem new (uid : HandleUid) (request : RecvRequest)
    (accepted : (openRecvLabel request).accepted = true) :
    Valid (.new uid (openRecvLabel request)) where
  accepted := accepted
  inside := by
    simp only [OpenReceiveData.accepted, Bool.and_eq_true, bne_iff_ne] at accepted
    exact Nat.pos_of_ne_zero accepted.2

theorem buffer (valid : Valid handle) : ∃ base, handle.data.buf = some base := by
  have accepted := valid.accepted
  simp only [OpenReceiveData.accepted, Bool.and_eq_true] at accepted
  exact Option.isSome_iff_exists.mp accepted.1.1.1.2

theorem bufSize_ne_zero (valid : Valid handle) : handle.data.bufSize ≠ 0 := by
  have accepted := valid.accepted
  simp only [OpenReceiveData.accepted, Bool.and_eq_true, bne_iff_ne] at accepted
  exact accepted.1.1.2

theorem bufSlots_ne_zero (valid : Valid handle) : handle.data.bufSlots ≠ 0 :=
  Nat.ne_zero_of_lt valid.inside

theorem deliver (valid : Valid handle) (arrival : Arrival) (world : RecvWorld) :
    Valid (handle.deliver arrival world).2 where
  accepted := by
    have same := congrArg (fun other => other.data.accepted) (deliver_static handle arrival world)
    exact same.trans valid.accepted
  inside := by
    cases copied : handle.copies arrival.recvOffset with
    | false =>
      have same := (deliver_refused world copied).2
      have index := congrArg (fun other => other.data.bufIndex) same
      have slots := congrArg (fun other => other.data.bufSlots) same
      exact index ▸ slots ▸ valid.inside
    | true =>
      obtain ⟨base, buffer⟩ := valid.buffer
      have same := (deliver_copied world buffer copied).2
      have index : _ = (handle.data.bufIndex + 1) % handle.data.bufSlots :=
        congrArg (fun other => other.data.bufIndex) same
      have slots : _ = handle.data.bufSlots := congrArg (fun other => other.data.bufSlots) same
      have bound := Nat.mod_lt (handle.data.bufIndex + 1) (Nat.pos_of_ne_zero valid.bufSlots_ne_zero)
      exact index ▸ slots ▸ bound

theorem call (valid : Valid handle) (call : Call) : Valid (handle.call call) := by
  have positive := Nat.pos_of_ne_zero valid.bufSlots_ne_zero
  cases call with
  | recvDismiss count =>
    simp only [RecvHandle.call, recvDismiss]
    split <;> exact ⟨valid.accepted, valid.inside⟩
  | recvReset => exact ⟨valid.accepted, positive⟩
  | recvRedirect =>
    obtain ⟨base, buffer⟩ := valid.buffer
    have accepted := valid.accepted
    cases auxiliary : handle.data.auxBuf with
    | none =>
      simp only [RecvHandle.call, recvRedirect, buffer, auxiliary]
      exact valid
    | some other =>
      simp only [RecvHandle.call, recvRedirect, buffer, auxiliary]
      refine ⟨?_, positive⟩
      simpa [OpenReceiveData.accepted, buffer] using accepted
  | recvIdle => exact ⟨valid.accepted, valid.inside⟩
  | recvResume => exact ⟨valid.accepted, valid.inside⟩

end Valid

end Eroil.RecvHandle
