import Eroil.Proofs.Router.RecvNode

/-! # The bytes that a delivery writes

The slot that a delivery fills is one `buf_size` interval of the current buffer, and the message
always has exactly that size. The only check on the receive offset compares it with the slot size
and not with what is left of the slot, so a delivery stays inside its slot only if the offset is
zero or nothing is copied at all.
-/

namespace Eroil

open Lib

namespace RecvHandle

variable {handle : RecvHandle}

/-- The address lies in the slot that the next message goes to. -/
def InSlot (handle : RecvHandle) (address : ℕ) : Prop :=
  ∃ base, handle.data.buf = some base ∧ handle.slotAddress base ≤ address ∧
    address < handle.slotAddress base + handle.data.bufSize

/-- Whatever a message of the slot's size contains and whatever memory holds, delivering it at this
offset changes bytes of the slot only. -/
def FillsOnlySlot (handle : RecvHandle) (recvOffset : ℕ) : Prop :=
  ∀ (world : RecvWorld) (arrival : Arrival), arrival.recvOffset = recvOffset →
    arrival.buf.length = handle.data.bufSize → ∀ address, ¬ handle.InSlot address →
    (handle.deliver arrival world).1.memory address = world.memory address

/-- The delivery has offset zero or is dropped: its offset exceeds the slot, the handle is idle, or
the signal mode refuses it. -/
def Harmless (handle : RecvHandle) (recvOffset : ℕ) : Prop :=
  recvOffset = 0 ∨ recvOffset > handle.data.bufSize ∨ handle.isIdle = true ∨ handle.hasRoom = false

theorem Valid.copies_iff (valid : Valid handle) (recvOffset : ℕ) :
    handle.copies recvOffset = true ↔
      recvOffset ≤ handle.data.bufSize ∧ handle.isIdle = false ∧ handle.hasRoom = true := by
  obtain ⟨base, buffer⟩ := valid.buffer
  simp [copies, admits, buffer, valid.bufSlots_ne_zero, valid.bufSize_ne_zero, and_assoc]

private theorem FillsOnlySlot.of_refused {recvOffset : ℕ}
    (refused : handle.copies recvOffset = false) :
    handle.FillsOnlySlot recvOffset := by
  rintro world arrival rfl _ address _
  rw [(deliver_refused world refused).1]

/-- At offset zero the copy is the slot. -/
theorem FillsOnlySlot.zero (valid : Valid handle) : handle.FillsOnlySlot 0 := by
  intro world arrival offset whole address outside
  cases copied : handle.copies arrival.recvOffset with
  | false => rw [(deliver_refused world copied).1]
  | true =>
    obtain ⟨base, buffer⟩ := valid.buffer
    rw [(deliver_copied world buffer copied).1, offset, Nat.add_zero]
    apply ByteMemory.store_outside
    rw [whole]
    by_contra inside
    exact outside ⟨base, buffer, by omega, by omega⟩

/-- A run of equal bytes is read back anywhere in its interval. -/
private theorem store_replicate (memory : ByteMemory) (address length : ℕ) (byte : UInt8) (query : ℕ)
    (lower : address ≤ query) (upper : query < address + length) :
    memory.store address (List.replicate length byte) query = byte := by
  rw [ByteMemory.store, List.length_replicate, if_pos ⟨lower, upper⟩, List.getD_eq_getElem?_getD,
    List.getElem?_replicate, if_pos (by omega), Option.getD_some]

/-- At any other offset the copy runs over the end of the slot, by as many bytes as the offset. -/
private theorem not_fillsOnlySlot {recvOffset : ℕ} (valid : Valid handle) (positive : recvOffset ≠ 0)
    (copied : handle.copies recvOffset = true) : ¬ handle.FillsOnlySlot recvOffset := by
  intro fills
  obtain ⟨base, buffer⟩ := valid.buffer
  have within := ((valid.copies_iff recvOffset).mp copied).1
  let arrival : Arrival :=
    ⟨0, handle.data.label, List.replicate handle.data.bufSize 1, recvOffset, ⟨0, 0⟩⟩
  let world : RecvWorld := ⟨fun _ => 0, fun _ => default, fun _ => 0⟩
  let last := handle.slotAddress base + recvOffset + (handle.data.bufSize - 1)
  have size := valid.bufSize_ne_zero
  have outside : ¬ handle.InSlot last := by
    rintro ⟨other, same, _, upper⟩
    cases buffer.symm.trans same
    omega
  have unchanged := fills world arrival rfl (List.length_replicate ..) last outside
  rw [(deliver_copied world buffer copied).1] at unchanged
  have written : world.memory.store (handle.slotAddress base + recvOffset) arrival.buf last = 1 :=
    store_replicate _ _ _ _ _ (by omega) (by omega)
  exact absurd (written.symm.trans unchanged) (show (1 : UInt8) ≠ 0 by decide)

/-- A valid handle is written outside its slot exactly when the offset is positive and the
delivery is not dropped. -/
theorem fillsOnlySlot_iff (valid : Valid handle) (recvOffset : ℕ) :
    handle.FillsOnlySlot recvOffset ↔ handle.Harmless recvOffset := by
  constructor
  · intro fills
    by_contra harmful
    simp only [Harmless, not_or, Bool.not_eq_true, Bool.not_eq_false] at harmful
    obtain ⟨positive, within, awake, room⟩ := harmful
    exact not_fillsOnlySlot valid positive
      ((valid.copies_iff recvOffset).mpr ⟨Nat.not_lt.mp within, awake, room⟩) fills
  · rintro (rfl | beyond)
    · exact .zero valid
    · apply FillsOnlySlot.of_refused
      by_contra copied
      obtain ⟨within, awake, room⟩ :=
        (valid.copies_iff recvOffset).mp ((Bool.not_eq_false _).mp copied)
      rcases beyond with beyond | idle | full
      · omega
      · rw [awake] at idle
        cases idle
      · rw [room] at full
        cases full

end RecvHandle

namespace Node

variable {book : AddressBook} {node : Node} {refs : List HandleRef} {label : Label} {size : ℕ}

/-- What passing the checks of `distribute_recvd_label` means. -/
theorem recvSubscribers_eq_some {router : Router}
    (passes : router.recvSubscribers label size = some refs) :
    ∃ route, router.routes.recv.table.lookup label = some route ∧ route.labelSize = size ∧
      refs = route.subscribers.filterMap router.recvHandles.lookup := by
  unfold Router.recvSubscribers at passes
  split_ifs at passes
  split at passes
  · cases passes
  · next route found =>
    split_ifs at passes with mismatch
    exact ⟨route, found, not_not.mp mismatch, (Option.some.inj passes).symm⟩

/-- Every subscriber is an object whose slots have the size of the message. -/
theorem RecvInv.subscriber (inv : RecvInv node)
    (passes : node.router.recvSubscribers label size = some refs) {ref : HandleRef}
    (member : ref ∈ refs) : ∃ handle, node.recvObjects[ref]? = some handle ∧ handle.Valid ∧
      handle.data.label = label ∧ handle.data.bufSize = size := by
  obtain ⟨route, found, sized, rfl⟩ := recvSubscribers_eq_some passes
  obtain ⟨uid, listed, registered⟩ := List.mem_filterMap.mp member
  obtain ⟨ref', object, registered', seen, _, labelled, same⟩ :=
    inv.consistent.routed label route uid found listed
  cases registered.symm.trans registered'
  obtain ⟨handle, stored, view⟩ := Option.map_eq_some_iff.mp seen
  subst view
  exact ⟨handle, stored, inv.valid handle (List.mem_of_getElem? stored), labelled, same.trans sized⟩

/-- No object is written twice by one message. -/
theorem RecvInv.subscribers_nodup (inv : RecvInv node)
    (passes : node.router.recvSubscribers label size = some refs) : refs.Nodup := by
  obtain ⟨route, found, _, rfl⟩ := recvSubscribers_eq_some passes
  refine (inv.consistent.nodup label route found).filterMap ?_
  intro first second ref registered registered'
  obtain ⟨object, _, seen, named, _⟩ := inv.consistent.stored first ref registered
  obtain ⟨object', _, seen', named', _⟩ := inv.consistent.stored second ref registered'
  cases seen.symm.trans seen'
  exact named.symm.trans named'

/-- A byte that no subscriber's own delivery changes is not changed by the whole call. -/
private theorem foldl_deliverTo_frame (arrival : Arrival) (address : ℕ) (nodup : refs.Nodup)
    (untouched : ∀ ref ∈ refs, ∀ handle, node.recvObjects[ref]? = some handle →
      ∀ world, (handle.deliver arrival world).1.memory address = world.memory address) :
    (refs.foldl (deliverTo arrival) node).world.memory address = node.world.memory address := by
  induction refs generalizing node with
  | nil => rfl
  | cons ref rest ih =>
    obtain ⟨fresh, nodup⟩ := List.nodup_cons.mp nodup
    have first : (node.deliverTo arrival ref).world.memory address = node.world.memory address := by
      unfold deliverTo
      split
      · rfl
      · next handle found => exact untouched ref List.mem_cons_self handle found _
    rw [List.foldl_cons, ih nodup, first]
    -- The other subscribers are the objects they were before.
    intro other member handle found
    apply untouched other (List.mem_cons_of_mem _ member)
    unfold deliverTo at found
    split at found
    · exact found
    · have different : ref ≠ other := by
        rintro rfl
        exact fresh member
      rwa [List.getElem?_set_ne different] at found

/-- For every subscriber that a call of `distribute_recvd_label` reaches in any reachable state,
its own delivery changes bytes of its current slot only, whatever the message and memory contain,
exactly if the receive offset is zero or the delivery is dropped. If that is so for every
subscriber, no byte outside the current slots changes in the whole call. -/
theorem distribute_fills_only_slots_iff (reachable : Reachable book node)
    (passes : node.router.recvSubscribers label size = some refs) (recvOffset : ℕ) :
    (∀ ref ∈ refs, ∃ handle, node.recvObjects[ref]? = some handle ∧ handle.data.bufSize = size ∧
      (handle.FillsOnlySlot recvOffset ↔
        recvOffset = 0 ∨ recvOffset > handle.data.bufSize ∨ handle.isIdle = true ∨
          handle.hasRoom = false)) ∧
    ((∀ ref ∈ refs, ∀ handle, node.recvObjects[ref]? = some handle → handle.Harmless recvOffset) →
      ∀ arrival : Arrival, arrival.label = label → arrival.buf.length = size →
        arrival.recvOffset = recvOffset → ∀ address,
        (∀ ref ∈ refs, ∀ handle, node.recvObjects[ref]? = some handle → ¬ handle.InSlot address) →
        (node.distributeRecvdLabel arrival).world.memory address = node.world.memory address) := by
  have inv := reachable.recvInv
  constructor
  · intro ref member
    obtain ⟨handle, found, valid, _, sized⟩ := inv.subscriber passes member
    exact ⟨handle, found, sized, RecvHandle.fillsOnlySlot_iff valid recvOffset⟩
  · rintro harmless arrival rfl rfl rfl address outside
    rw [distributeRecvdLabel, passes]
    apply foldl_deliverTo_frame arrival address (inv.subscribers_nodup passes)
    intro ref member handle found world
    obtain ⟨_, found', valid, _, sized⟩ := inv.subscriber passes member
    cases found.symm.trans found'
    have fills := (RecvHandle.fillsOnlySlot_iff valid _).mpr (harmless ref member handle found)
    exact fills world arrival rfl sized.symm address (outside ref member handle found)

/-- An address book that knows nobody. -/
def nobody : AddressBook := ⟨fun _ => .none, fun _ _ => rfl⟩

/-- One slot of four bytes at address 100. -/
def wordRequest : RecvRequest where
  label := 7
  buf := some 100
  size := 4
  numSlots := 1
  auxBuf := none
  sem := none
  iosb := none
  numIosb := 0
  signalMode := .overwrite

def zeroed : RecvWorld := ⟨fun _ => 0, fun _ => default, fun _ => 0⟩

/-- The node after the one slot was opened. -/
def wordNode : Node := (Node.initial zeroed).step nobody (.openRecv wordRequest)

theorem wordNode_reachable : Reachable nobody wordNode := ⟨zeroed, .single _ trivial⟩

theorem distribute_fills_only_slots_iff_word :
    ∃ handle, wordNode.recvObjects[0]? = some handle ∧ handle.FillsOnlySlot 0 := by
  have passes : wordNode.router.recvSubscribers 7 4 = some [0] := by decide +kernel
  obtain ⟨handle, found, _, fills⟩ :=
    (distribute_fills_only_slots_iff wordNode_reachable passes 0).1 0 List.mem_cons_self
  exact ⟨handle, found, fills.mpr (.inl rfl)⟩

/-- A message at offset four passes every check, and all of it lands behind the buffer. -/
theorem offset_message_overruns :
    Reachable nobody wordNode ∧ wordNode.router.recvSubscribers 7 4 = some [0] ∧
      (wordNode.recvObjects[0]?.map fun handle =>
        (handle.data.buf, handle.data.bufSlots * handle.data.bufSize)) = some (some 100, 4) ∧
      (wordNode.distributeRecvdLabel ⟨3, 7, [1, 2, 3, 4], 4, ⟨0, 0⟩⟩).world.memory 104 ≠
        wordNode.world.memory 104 :=
  ⟨wordNode_reachable, by decide +kernel⟩

end Node

end Eroil
