import Eroil.Lib.SlotRing
import Eroil.Proofs.Router.Deliver

/-! # A receive handle that must not overwrite is a bounded queue

In the modes that may not overwrite, an open handle behaves as a mailbox: a bounded queue of
messages that refuses a delivery when it is full or idle, and that its owner empties from the
front. The handle stores only a count and the slot written next; the messages are in the buffer.
-/

namespace Eroil

open Lib

/-- What a handle is for: a bounded queue of whole messages that can be switched off. -/
structure Mailbox (capacity : ℕ) where
  idle : Bool
  redirectable : Bool
  queue : BoundedQueue (List UInt8) capacity

namespace Mailbox

variable {capacity : ℕ}

def step (mailbox : Mailbox capacity) : RecvHandle.Op → Mailbox capacity
  | .deliver arrival =>
      if mailbox.idle then mailbox
      else { mailbox with queue := mailbox.queue.push arrival.buf }
  | .call (.recvDismiss count) => { mailbox with queue := mailbox.queue.drop count }
  | .call .recvReset => { mailbox with queue := .empty }
  | .call .recvRedirect =>
      if mailbox.redirectable then { mailbox with queue := .empty } else mailbox
  | .call .recvIdle => { mailbox with idle := true }
  | .call .recvResume => { mailbox with idle := false }

/-- The mailbox of a handle that was just opened. -/
def opened (request : RecvRequest) : Mailbox request.numSlots.toNat :=
  { idle := false, redirectable := request.auxBuf.isSome, queue := .empty }

end Mailbox

namespace RecvHandle

variable {handle : RecvHandle} {world : RecvWorld} {capacity size : ℕ} {mailbox : Mailbox capacity}

/-- The mode refuses a delivery to a full buffer. -/
def keepsUnread (mode : SignalMode) : Prop := mode = .bufferFull ∨ mode = .everyMessage

/-- Contents of one slot of the buffer at `base`. -/
def slotAt (memory : ByteMemory) (base size index : ℕ) : List UInt8 :=
  memory.load (base + index * size) size

/-- The handle and the buffer it currently writes represent a mailbox of whole messages. -/
structure Represents (world : RecvWorld) (handle : RecvHandle) (size : ℕ)
    (mailbox : Mailbox capacity) : Prop where
  mode : keepsUnread handle.data.signalMode
  bufSize : handle.data.bufSize = size ∧ size ≠ 0
  bufSlots : handle.data.bufSlots = capacity ∧ capacity < 2 ^ 32
  idle : handle.isIdle = mailbox.idle
  redirectable : handle.data.auxBuf.isSome = mailbox.redirectable
  count : handle.data.recvCount = mailbox.queue.length
  stored : ∃ base, handle.data.buf = some base ∧
    SlotRing.Holds (slotAt world.memory base size) handle.data.bufIndex mailbox.queue

/-- A delivery of one whole message. -/
def Whole (size : ℕ) : Op → Prop
  | .deliver arrival => arrival.recvOffset = 0 ∧ arrival.buf.length = size
  | _ => True

/-- Room in the mailbox is what the signal mode tests. -/
private theorem Represents.hasRoom_iff (represents : Represents world handle size mailbox) :
    handle.hasRoom = true ↔ mailbox.queue.length < capacity := by
  have bounded := mailbox.queue.length_le
  have count := represents.count
  have slots := represents.bufSlots.1
  rcases represents.mode with mode | mode
  · simp only [hasRoom, mode, bne_iff_ne, ne_eq]
    omega
  · simp only [hasRoom, mode, decide_eq_true_eq]
    omega

/-- The checks before the lock only look at the idle flag of a represented handle. -/
theorem Represents.copies_iff (represents : Represents world handle size mailbox) :
    handle.copies 0 = true ↔ mailbox.idle = false ∧ mailbox.queue.length < capacity := by
  obtain ⟨base, buffer, holds⟩ := represents.stored
  have positive : capacity ≠ 0 := Nat.ne_zero_of_lt holds.inside
  rw [copies, Bool.and_eq_true, represents.hasRoom_iff]
  simp [admits, buffer, represents.bufSize, represents.bufSlots.1, positive, represents.idle]

/-- Storing a whole message in one slot leaves the other slots alone. -/
theorem slotAt_store_other (memory : ByteMemory) (base size index other : ℕ) (bytes : List UInt8)
    (whole : bytes.length = size) (different : other ≠ index) :
    slotAt (memory.store (base + index * size) bytes) base size other =
      slotAt memory base size other := by
  apply ByteMemory.load_store_disjoint
  rw [whole]
  rcases Nat.lt_or_gt_of_ne different with before | after
  · have below : (other + 1) * size ≤ index * size := Nat.mul_le_mul_right _ before
    rw [Nat.add_mul, Nat.one_mul] at below
    omega
  · have above : (index + 1) * size ≤ other * size := Nat.mul_le_mul_right _ after
    rw [Nat.add_mul, Nat.one_mul] at above
    omega

theorem slotAt_store_same (memory : ByteMemory) (base size index : ℕ) (bytes : List UInt8)
    (whole : bytes.length = size) :
    slotAt (memory.store (base + index * size) bytes) base size index = bytes := by
  subst whole
  exact ByteMemory.load_store_same _ _ _

/-- The IOSB position plays no part in the representation. -/
theorem Represents.of_slots {other : RecvHandle} {after : RecvWorld}
    (represents : Represents world handle size mailbox) (same : other.slots = handle.slots)
    (memory : after.memory = world.memory) : Represents after other size mailbox := by
  have erased : Represents after other.slots size mailbox := by
    rw [same]
    exact ⟨represents.mode, represents.bufSize, represents.bufSlots, represents.idle,
      represents.redirectable, represents.count, memory ▸ represents.stored⟩
  exact ⟨erased.mode, erased.bufSize, erased.bufSlots, erased.idle, erased.redirectable,
    erased.count, erased.stored⟩

/-- A handle that advances over a slot holding the message represents the longer queue. -/
theorem Represents.advance {base : ℕ} {bytes : List UInt8} {after : RecvWorld}
    (represents : Represents world handle size mailbox) (buffer : handle.data.buf = some base)
    (holds : SlotRing.Holds (slotAt world.memory base size) handle.data.bufIndex mailbox.queue)
    (room : mailbox.queue.length < capacity) (whole : bytes.length = size)
    (memory : after.memory = world.memory.store (handle.slotAddress base) bytes) :
    Represents after handle.advance size { mailbox with queue := mailbox.queue.push bytes } where
  mode := represents.mode
  bufSize := represents.bufSize
  bufSlots := represents.bufSlots
  idle := represents.idle
  redirectable := represents.redirectable
  count := by
    -- The 32-bit count cannot wrap: it is below a 32-bit number of slots.
    have small := represents.bufSlots.2
    rw [BoundedQueue.length_push _ _ room, ← represents.count]
    exact wrap32_of_lt (by rw [represents.count]; omega)
  stored := by
    have address : handle.slotAddress base = base + handle.data.bufIndex * size := by
      rw [slotAddress, represents.bufSize.1]
    refine ⟨base, buffer, ?_⟩
    show SlotRing.Holds _ ((handle.data.bufIndex + 1) % handle.data.bufSlots) _
    rw [represents.bufSlots.1, memory, address]
    apply holds.push room
    · exact slotAt_store_same _ _ _ _ _ whole
    · intro index _ different
      exact slotAt_store_other _ _ _ _ _ _ whole different

theorem Represents.deliver (represents : Represents world handle size mailbox) (arrival : Arrival)
    (offset : arrival.recvOffset = 0) (whole : arrival.buf.length = size) :
    Represents (handle.deliver arrival world).1 (handle.deliver arrival world).2 size
      (mailbox.step (.deliver arrival)) := by
  have decides := represents.copies_iff
  rw [← offset] at decides
  cases copied : handle.copies arrival.recvOffset with
  | false =>
    obtain ⟨memory, same⟩ := deliver_refused world copied
    have unchanged : mailbox.step (.deliver arrival) = mailbox := by
      rw [copied] at decides
      simp only [Mailbox.step]
      split
      · rfl
      · next awake =>
        have bounded := mailbox.queue.length_le
        have full : ¬ mailbox.queue.length < capacity := by simpa [awake] using decides
        rw [BoundedQueue.push_full _ _ (by omega)]
    rw [unchanged]
    exact represents.of_slots same memory
  | true =>
    obtain ⟨awake, room⟩ := decides.mp copied
    obtain ⟨base, buffer, holds⟩ := represents.stored
    obtain ⟨memory, same⟩ := deliver_copied world buffer copied
    rw [offset, Nat.add_zero] at memory
    have pushed : mailbox.step (.deliver arrival) =
        { mailbox with queue := mailbox.queue.push arrival.buf } := by
      simp only [Mailbox.step, awake, Bool.false_eq_true, ↓reduceIte]
    rw [pushed]
    exact (represents.advance buffer holds room whole memory).of_slots same rfl

theorem Represents.recvDismiss (represents : Represents world handle size mailbox) (count : ℕ) :
    Represents world (handle.recvDismiss count) size (mailbox.step (.call (.recvDismiss count))) := by
  obtain ⟨base, buffer, holds⟩ := represents.stored
  have counted := represents.count
  unfold RecvHandle.recvDismiss
  split
  · next more =>
    refine ⟨represents.mode, represents.bufSize, represents.bufSlots, represents.idle,
      represents.redirectable, ?_, base, buffer, holds.drop count⟩
    show 0 = (mailbox.queue.drop count).length
    rw [BoundedQueue.length_drop]
    omega
  · refine ⟨represents.mode, represents.bufSize, represents.bufSlots, represents.idle,
      represents.redirectable, ?_, base, buffer, holds.drop count⟩
    show handle.data.recvCount - count = (mailbox.queue.drop count).length
    rw [BoundedQueue.length_drop, counted]

theorem Represents.recvReset (represents : Represents world handle size mailbox) :
    Represents world handle.recvReset size (mailbox.step (.call .recvReset)) := by
  obtain ⟨base, buffer, holds⟩ := represents.stored
  exact ⟨represents.mode, represents.bufSize, represents.bufSlots, represents.idle,
    represents.redirectable, rfl, base, buffer, .empty _ (Nat.zero_lt_of_lt holds.inside)⟩

theorem Represents.recvRedirect (represents : Represents world handle size mailbox) :
    Represents world handle.recvRedirect size (mailbox.step (.call .recvRedirect)) := by
  obtain ⟨base, buffer, holds⟩ := represents.stored
  have redirectable := represents.redirectable
  cases auxiliary : handle.data.auxBuf with
  | none =>
    rw [auxiliary] at redirectable
    simp only [RecvHandle.recvRedirect, buffer, auxiliary, Mailbox.step, ← redirectable,
      Option.isSome_none, Bool.false_eq_true, ↓reduceIte]
    exact represents
  | some other =>
    rw [auxiliary] at redirectable
    simp only [RecvHandle.recvRedirect, buffer, auxiliary, Mailbox.step, ← redirectable,
      Option.isSome_some, ↓reduceIte]
    exact ⟨represents.mode, represents.bufSize, represents.bufSlots, represents.idle, rfl, rfl,
      other, rfl, .empty _ (Nat.zero_lt_of_lt holds.inside)⟩

/-- One call on the handle is the same call on the mailbox. -/
theorem Represents.step (represents : Represents world handle size mailbox) (op : Op)
    (whole : Whole size op) :
    Represents (RecvHandle.step (world, handle) op).1 (RecvHandle.step (world, handle) op).2 size
      (mailbox.step op) := by
  cases op with
  | deliver arrival => exact represents.deliver arrival whole.1 whole.2
  | call call =>
    cases call with
    | recvDismiss count => exact represents.recvDismiss count
    | recvReset => exact represents.recvReset
    | recvRedirect => exact represents.recvRedirect
    | recvIdle => exact { represents with idle := rfl }
    | recvResume => exact { represents with idle := rfl }

/-- Every sequence of calls on the handle is the same sequence on the mailbox. -/
theorem Represents.run (ops : List Op) (whole : ∀ op ∈ ops, Whole size op)
    (represents : Represents world handle size mailbox) :
    Represents (ops.foldl RecvHandle.step (world, handle)).1
      (ops.foldl RecvHandle.step (world, handle)).2 size (ops.foldl Mailbox.step mailbox) := by
  induction ops generalizing world handle mailbox with
  | nil => exact represents
  | cons op rest ih =>
    exact ih (fun later member => whole later (List.mem_cons_of_mem _ member))
      (represents.step op (whole op List.mem_cons_self))

/-- A handle that was just opened represents an empty mailbox. -/
theorem Represents.opened (world : RecvWorld) (uid : HandleUid) (request : RecvRequest)
    (accepted : (openRecvLabel request).accepted = true)
    (mode : keepsUnread request.signalMode) :
    Represents world (.new uid (openRecvLabel request)) request.size (Mailbox.opened request) := by
  simp only [OpenReceiveData.accepted, openRecvLabel, Bool.and_eq_true, bne_iff_ne, ne_eq] at accepted
  obtain ⟨⟨⟨⟨_, buffer⟩, size⟩, _⟩, slots⟩ := accepted
  obtain ⟨base, buffer⟩ := Option.isSome_iff_exists.mp buffer
  exact ⟨mode, ⟨rfl, size⟩, ⟨rfl, request.numSlots.toNat_lt⟩, rfl, rfl, rfl, base, buffer,
    .empty _ (Nat.pos_of_ne_zero slots)⟩

/-- A represented handle that is full or idle keeps its messages and its counters. -/
theorem Represents.deliver_frame (represents : Represents world handle size mailbox)
    (arrival : Arrival) (offset : arrival.recvOffset = 0)
    (closed : handle.isIdle = true ∨ handle.data.recvCount = capacity) :
    (handle.deliver arrival world).1.memory = world.memory ∧
      (handle.deliver arrival world).2.slots = handle.slots := by
  apply deliver_refused world
  rw [offset]
  have decides := represents.copies_iff
  have idle := represents.idle
  have count := represents.count
  by_contra copied
  obtain ⟨awake, room⟩ := decides.mp ((Bool.not_eq_false _).mp copied)
  rcases closed with sleeping | full
  · rw [idle, awake] at sleeping
    exact Bool.false_ne_true sleeping
  · omega

/-- Whatever the order of calls, the handle is a bounded queue of the messages delivered to it:
the count is the length of the queue, the queue lies in the slots before the one written next,
oldest first, and a delivery to a full or idle handle changes nothing that is stored. -/
theorem handle_is_bounded_fifo (world : RecvWorld) (uid : HandleUid) (request : RecvRequest)
    (ops : List Op) (accepted : (openRecvLabel request).accepted = true)
    (mode : request.signalMode = .bufferFull ∨ request.signalMode = .everyMessage)
    (whole : ∀ op ∈ ops, Whole request.size op) :
    let state := ops.foldl RecvHandle.step (world, .new uid (openRecvLabel request))
    let data := state.2.data
    let fifo := ops.foldl Mailbox.step (Mailbox.opened request)
    let slots := request.numSlots.toNat
    state.2.isIdle = fifo.idle ∧ data.bufSlots = slots ∧
      data.recvCount = fifo.queue.items.length ∧ data.recvCount ≤ slots ∧ data.bufIndex < slots ∧
      (∃ base, data.buf = some base ∧ ∀ rank, rank < data.recvCount →
        fifo.queue.items[rank]? = some (state.1.memory.load
          (base + (data.bufIndex + slots - data.recvCount + rank) % slots * request.size)
          request.size)) ∧
      (∀ arrival, Whole request.size (.deliver arrival) →
        state.2.isIdle = true ∨ data.recvCount = slots →
        (state.2.deliver arrival state.1).1.memory = state.1.memory ∧
          (state.2.deliver arrival state.1).2.data.recvCount = data.recvCount ∧
          (state.2.deliver arrival state.1).2.data.bufIndex = data.bufIndex ∧
          (state.2.deliver arrival state.1).2.data.buf = data.buf) := by
  intro state data fifo slots
  have represents : Represents state.1 state.2 request.size fifo :=
    (Represents.opened world uid request accepted mode).run ops whole
  obtain ⟨base, buffer, holds⟩ := represents.stored
  have count : data.recvCount = fifo.queue.length := represents.count
  refine ⟨represents.idle, represents.bufSlots.1, count, ?_, holds.inside, ⟨base, buffer, ?_⟩, ?_⟩
  · rw [count]
    exact fifo.queue.length_le
  · intro rank present
    rw [count] at present ⊢
    exact holds.stored rank present
  · intro arrival whole closed
    obtain ⟨memory, same⟩ := represents.deliver_frame arrival whole.1 closed
    exact ⟨memory, congrArg (·.data.recvCount) same, congrArg (·.data.bufIndex) same,
      congrArg (·.data.buf) same⟩

/-- Two slots of two bytes and a second buffer. -/
def pairRequest : RecvRequest where
  label := 7
  buf := some 100
  size := 2
  numSlots := 2
  auxBuf := some 200
  sem := some 1
  iosb := none
  numIosb := 0
  signalMode := .bufferFull

def blank : RecvWorld := ⟨fun _ => 0, fun _ => default, fun _ => 0⟩

def arrivalOf (buf : List UInt8) : Arrival := ⟨3, 7, buf, 0, ⟨0, 0⟩⟩

/-- Three deliveries to two slots, the third refused; the first message is dismissed and a fourth
takes its slot. -/
def pairOps : List Op :=
  [.deliver (arrivalOf [1, 2]), .deliver (arrivalOf [3, 4]), .deliver (arrivalOf [5, 6]),
    .call (.recvDismiss 1), .deliver (arrivalOf [7, 8])]

theorem handle_is_bounded_fifo_pair :
    (pairOps.foldl Mailbox.step (Mailbox.opened pairRequest)).queue.items = [[3, 4], [7, 8]] ∧
      (pairOps.foldl RecvHandle.step
        (blank, .new 1 (openRecvLabel pairRequest))).2.data.recvCount = 2 :=
  ⟨by decide +kernel,
    (handle_is_bounded_fifo blank 1 pairRequest pairOps (by decide) (.inl rfl)
      (by simp [pairOps, arrivalOf, Whole, pairRequest])).2.2.1.trans (by decide +kernel)⟩

end RecvHandle

end Eroil
