import Eroil.Proofs.Router.Isolation

/-! # A receive handle that may overwrite shows the latest messages

In the modes that always copy, nothing is refused and nothing is ever too much: the buffer shows as
many of the latest messages as it has slots. `recv_count` goes on counting past the number of slots,
so it says how many messages arrived and not how many are there.
-/

namespace Eroil

open Lib

/-- What a handle of these modes is for: all messages since the last reset, and how many of them
the owner has not dismissed. -/
structure Journal where
  idle : Bool
  redirectable : Bool
  messages : List (List UInt8)
  unread : ℕ

namespace Journal

def step (journal : Journal) : RecvHandle.Op → Journal
  | .deliver arrival =>
      if journal.idle then journal
      else
        { journal with
          messages := journal.messages ++ [arrival.buf]
          unread := wrap32 (journal.unread + 1) }
  | .call (.recvDismiss count) => { journal with unread := journal.unread - count }
  | .call .recvReset => { journal with messages := [], unread := 0 }
  | .call .recvRedirect =>
      if journal.redirectable then { journal with messages := [], unread := 0 } else journal
  | .call .recvIdle => { journal with idle := true }
  | .call .recvResume => { journal with idle := false }

/-- The journal of a handle that was just opened. -/
def opened (request : RecvRequest) : Journal :=
  { idle := false, redirectable := request.auxBuf.isSome, messages := [], unread := 0 }

end Journal

namespace RecvHandle

variable {handle : RecvHandle} {world : RecvWorld} {journal : Journal} {capacity size : ℕ}

/-- The mode copies every message. -/
def overwrites (mode : SignalMode) : Prop := mode = .overwrite ∨ mode = .signalAllWriteAll

/-- The buffer that the handle currently writes shows the latest messages of the journal. -/
structure Displays (capacity : ℕ) (world : RecvWorld) (handle : RecvHandle) (size : ℕ)
    (journal : Journal) : Prop where
  mode : overwrites handle.data.signalMode
  bufSize : handle.data.bufSize = size ∧ size ≠ 0
  bufSlots : handle.data.bufSlots = capacity
  idle : handle.isIdle = journal.idle
  redirectable : handle.data.auxBuf.isSome = journal.redirectable
  count : handle.data.recvCount = journal.unread
  stored : ∃ base, handle.data.buf = some base ∧
    SlotRing.Holds (slotAt world.memory base size) handle.data.bufIndex
      (BoundedQueue.last capacity journal.messages)

namespace Displays

/-- The IOSB position plays no part. -/
theorem of_slots {other : RecvHandle} {after : RecvWorld}
    (displays : Displays capacity world handle size journal) (same : other.slots = handle.slots)
    (memory : after.memory = world.memory) : Displays capacity after other size journal := by
  have erased : Displays capacity after other.slots size journal := by
    rw [same]
    exact ⟨displays.mode, displays.bufSize, displays.bufSlots, displays.idle, displays.redirectable,
      displays.count, memory ▸ displays.stored⟩
  exact ⟨erased.mode, erased.bufSize, erased.bufSlots, erased.idle, erased.redirectable,
    erased.count, erased.stored⟩

/-- Room is never an issue. -/
private theorem copies_eq (displays : Displays capacity world handle size journal) :
    handle.copies 0 = !journal.idle := by
  obtain ⟨base, buffer, holds⟩ := displays.stored
  have positive : capacity ≠ 0 := Nat.ne_zero_of_lt holds.inside
  have room : handle.hasRoom = true := by
    rcases displays.mode with mode | mode <;> simp only [hasRoom, mode]
  simp [copies, admits, buffer, room, displays.bufSize, displays.bufSlots, positive, displays.idle]

/-- A handle that advances over a slot holding the message displays the longer journal. -/
theorem advance {base : ℕ} {bytes : List UInt8} {after : RecvWorld}
    (displays : Displays capacity world handle size journal) (buffer : handle.data.buf = some base)
    (holds : SlotRing.Holds (slotAt world.memory base size) handle.data.bufIndex
      (BoundedQueue.last capacity journal.messages)) (whole : bytes.length = size)
    (memory : after.memory = world.memory.store (handle.slotAddress base) bytes) :
    Displays capacity after handle.advance size
      { journal with
        messages := journal.messages ++ [bytes]
        unread := wrap32 (journal.unread + 1) } where
  mode := displays.mode
  bufSize := displays.bufSize
  bufSlots := displays.bufSlots
  idle := displays.idle
  redirectable := displays.redirectable
  count := by rw [← displays.count]; rfl
  stored := by
    have address : handle.slotAddress base = base + handle.data.bufIndex * size := by
      rw [slotAddress, displays.bufSize.1]
    refine ⟨base, buffer, ?_⟩
    show SlotRing.Holds _ ((handle.data.bufIndex + 1) % handle.data.bufSlots) _
    rw [displays.bufSlots, memory, address]
    apply holds.shift
    · exact slotAt_store_same _ _ _ _ _ whole
    · intro index _ different
      exact slotAt_store_other _ _ _ _ _ _ whole different

theorem deliver (displays : Displays capacity world handle size journal) (arrival : Arrival)
    (offset : arrival.recvOffset = 0) (whole : arrival.buf.length = size) :
    Displays capacity (handle.deliver arrival world).1 (handle.deliver arrival world).2 size
      (journal.step (.deliver arrival)) := by
  have decides := displays.copies_eq
  rw [← offset] at decides
  cases idle : journal.idle with
  | true =>
    have refused : handle.copies arrival.recvOffset = false := by simp [decides, idle]
    obtain ⟨memory, same⟩ := deliver_refused world refused
    simp only [Journal.step, idle, ↓reduceIte]
    exact displays.of_slots same memory
  | false =>
    have copied : handle.copies arrival.recvOffset = true := by simp [decides, idle]
    obtain ⟨base, buffer, holds⟩ := displays.stored
    obtain ⟨memory, same⟩ := deliver_copied world buffer copied
    rw [offset, Nat.add_zero] at memory
    have longer : journal.step (.deliver arrival) =
        { journal with
          messages := journal.messages ++ [arrival.buf]
          unread := wrap32 (journal.unread + 1) } := by
      simp only [Journal.step, idle, Bool.false_eq_true, ↓reduceIte]
    rw [longer]
    exact (displays.advance buffer holds whole memory).of_slots same rfl

theorem recvDismiss (displays : Displays capacity world handle size journal) (count : ℕ) :
    Displays capacity world (handle.recvDismiss count) size
      (journal.step (.call (.recvDismiss count))) := by
  have counted := displays.count
  unfold RecvHandle.recvDismiss
  split
  · next more =>
    refine ⟨displays.mode, displays.bufSize, displays.bufSlots, displays.idle,
      displays.redirectable, ?_, displays.stored⟩
    show 0 = journal.unread - count
    omega
  · refine ⟨displays.mode, displays.bufSize, displays.bufSlots, displays.idle,
      displays.redirectable, ?_, displays.stored⟩
    show handle.data.recvCount - count = journal.unread - count
    rw [counted]

theorem recvReset (displays : Displays capacity world handle size journal) :
    Displays capacity world handle.recvReset size (journal.step (.call .recvReset)) := by
  obtain ⟨base, buffer, holds⟩ := displays.stored
  exact ⟨displays.mode, displays.bufSize, displays.bufSlots, displays.idle,
    displays.redirectable, rfl, base, buffer, .last_nil _ (Nat.zero_lt_of_lt holds.inside)⟩

theorem recvRedirect (displays : Displays capacity world handle size journal) :
    Displays capacity world handle.recvRedirect size (journal.step (.call .recvRedirect)) := by
  obtain ⟨base, buffer, holds⟩ := displays.stored
  have redirectable := displays.redirectable
  cases auxiliary : handle.data.auxBuf with
  | none =>
    rw [auxiliary] at redirectable
    simp only [RecvHandle.recvRedirect, buffer, auxiliary, Journal.step, ← redirectable,
      Option.isSome_none, Bool.false_eq_true, ↓reduceIte]
    exact displays
  | some other =>
    rw [auxiliary] at redirectable
    simp only [RecvHandle.recvRedirect, buffer, auxiliary, Journal.step, ← redirectable,
      Option.isSome_some, ↓reduceIte]
    exact ⟨displays.mode, displays.bufSize, displays.bufSlots, displays.idle, rfl, rfl,
      other, rfl, .last_nil _ (Nat.zero_lt_of_lt holds.inside)⟩

/-- One call on the handle is the same call on the journal. -/
theorem step (displays : Displays capacity world handle size journal) (op : Op)
    (whole : Whole size op) :
    Displays capacity (RecvHandle.step (world, handle) op).1 (RecvHandle.step (world, handle) op).2
      size (journal.step op) := by
  cases op with
  | deliver arrival => exact displays.deliver arrival whole.1 whole.2
  | call call =>
    cases call with
    | recvDismiss count => exact displays.recvDismiss count
    | recvReset => exact displays.recvReset
    | recvRedirect => exact displays.recvRedirect
    | recvIdle => exact { displays with idle := rfl }
    | recvResume => exact { displays with idle := rfl }

/-- Every sequence of calls on the handle is the same sequence on the journal. -/
theorem run (ops : List Op) (whole : ∀ op ∈ ops, Whole size op)
    (displays : Displays capacity world handle size journal) :
    Displays capacity (ops.foldl RecvHandle.step (world, handle)).1
      (ops.foldl RecvHandle.step (world, handle)).2 size (ops.foldl Journal.step journal) := by
  induction ops generalizing world handle journal with
  | nil => exact displays
  | cons op rest ih =>
    exact ih (fun later member => whole later (List.mem_cons_of_mem _ member))
      (displays.step op (whole op List.mem_cons_self))

/-- A handle that was just opened displays an empty journal. -/
theorem opened (world : RecvWorld) (uid : HandleUid) (request : RecvRequest)
    (accepted : (openRecvLabel request).accepted = true) (mode : overwrites request.signalMode) :
    Displays request.numSlots.toNat world (.new uid (openRecvLabel request)) request.size
      (Journal.opened request) := by
  simp only [OpenReceiveData.accepted, openRecvLabel, Bool.and_eq_true, bne_iff_ne, ne_eq] at accepted
  obtain ⟨⟨⟨⟨_, buffer⟩, size⟩, _⟩, slots⟩ := accepted
  obtain ⟨base, buffer⟩ := Option.isSome_iff_exists.mp buffer
  exact ⟨mode, ⟨rfl, size⟩, rfl, rfl, rfl, rfl, base, buffer,
    .last_nil _ (Nat.pos_of_ne_zero slots)⟩

end Displays

end RecvHandle

namespace Traffic

variable {book : AddressBook} {traffic : Traffic} {ref : HandleRef} {request : RecvRequest}

/-- A handle that displays a journal when alone displays it among the others. -/
theorem Follows.journal {alone : RecvWorld × RecvHandle} {capacity size : ℕ} {journal : Journal}
    (follows : Follows traffic ref alone)
    (displays : RecvHandle.Displays capacity alone.1 alone.2 size journal) :
    ∃ handle base, traffic.node.recvObjects[ref]? = some handle ∧ handle.data.buf = some base ∧
      handle.isIdle = journal.idle ∧ handle.data.recvCount = journal.unread ∧
      handle.data.bufIndex < capacity ∧
      ∀ age < min journal.messages.length capacity, journal.messages.reverse[age]? =
        some (traffic.node.world.memory.load
          (base + (handle.data.bufIndex + capacity - 1 - age) % capacity * size) size) := by
  obtain ⟨world, handle⟩ := alone
  obtain ⟨mine, object, tracks⟩ := follows
  obtain rfl : mine = handle := tracks.component
  obtain ⟨base, buffer, holds⟩ := displays.stored
  refine ⟨mine, base, object, buffer, displays.idle, displays.count, holds.inside, ?_⟩
  intro age present
  rw [holds.youngest present]
  have slots : mine.data.bufSlots = capacity := displays.bufSlots
  have bufSize : mine.data.bufSize = size := displays.bufSize.1
  have inside : (mine.data.bufIndex + capacity - 1 - age) % capacity < mine.data.bufSlots := by
    rw [slots]
    exact Nat.mod_lt _ (Nat.zero_lt_of_lt holds.inside)
  have same := RecvHandle.slotAt_agree tracks.places buffer inside
  rw [bufSize] at same
  exact congrArg some same.symm

end Traffic

end Eroil
