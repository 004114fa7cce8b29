import Eroil.Lib.Locality
import Eroil.Proofs.Router.RecvNode
import Eroil.Proofs.Router.Footprint
import Eroil.Proofs.Router.Signals

/-! # The places of a handle

A request hands over two buffers, an array of IOSBs and a semaphore. Deliveries and the owner's
calls stay on these places, they keep them, and what they do there depends on nothing else.
-/

namespace Eroil

open Lib

/-- What deliveries share: bytes, IOSB entries and semaphores. -/
inductive Place where
  | byte (address : ℕ)
  | entry (index : ℕ)
  | semaphore (id : ℕ)
deriving DecidableEq

/-- What is kept at a place. -/
def Place.Value : Place → Type
  | .byte _ => UInt8
  | .entry _ => ReceiveIosb
  | .semaphore _ => ℕ

def RecvWorld.view (world : RecvWorld) : (place : Place) → place.Value
  | .byte address => world.memory address
  | .entry index => world.iosbs index
  | .semaphore id => world.semaphores id

namespace RecvHandle

variable {handle other : RecvHandle} {arrival : Arrival} {world : RecvWorld}

/-- The address lies in one of the two buffers of the request. -/
def InBuffer (handle : RecvHandle) (address : ℕ) : Prop :=
  ∃ base, (handle.data.buf = some base ∨ handle.data.auxBuf = some base) ∧ base ≤ address ∧
    address < base + handle.data.bufSlots * handle.data.bufSize

/-- The places that the application handed over with the handle. -/
def owns (handle : RecvHandle) : Set Place
  | .byte address => handle.InBuffer address
  | .entry index => ∃ base, handle.data.iosb = some base ∧ base ≤ index ∧
      index < base + handle.data.numIosb
  | .semaphore id => handle.data.sem = some id

/-- The position in the IOSB array is inside the array, if there is one. -/
def Indexed (handle : RecvHandle) : Prop :=
  handle.data.numIosb ≠ 0 → handle.data.iosbIndex < handle.data.numIosb

/-- What every handle object of a node satisfies. -/
structure Sane (handle : RecvHandle) : Prop where
  valid : Valid handle
  indexed : Indexed handle

/-- The slot written next is part of the buffer. -/
private theorem InSlot.inBuffer {address : ℕ} (valid : Valid handle)
    (inside : handle.InSlot address) :
    handle.InBuffer address := by
  obtain ⟨base, buffer, lower, upper⟩ := inside
  have next := valid.inside
  have slots : (handle.data.bufIndex + 1) * handle.data.bufSize ≤
      handle.data.bufSlots * handle.data.bufSize := Nat.mul_le_mul_right _ next
  rw [Nat.add_mul, Nat.one_mul] at slots
  simp only [slotAddress] at lower upper
  exact ⟨base, .inl buffer, by omega, by omega⟩

private theorem owns_eq_of_static (same : other.static = handle.static) :
    other.owns = handle.owns := by
  have buf := congrArg (·.data.buf) same
  have auxBuf := congrArg (·.data.auxBuf) same
  have bufSlots := congrArg (·.data.bufSlots) same
  have bufSize := congrArg (·.data.bufSize) same
  have iosb := congrArg (·.data.iosb) same
  have numIosb := congrArg (·.data.numIosb) same
  have sem := congrArg (·.data.sem) same
  simp only [static] at buf auxBuf bufSlots bufSize iosb numIosb sem
  funext place
  cases place with
  | byte address => simp only [owns, InBuffer, buf, auxBuf, bufSlots, bufSize]
  | entry index => simp only [owns, iosb, numIosb]
  | semaphore id => simp only [owns, sem]

/-- Redirection swaps the two buffers; the handle keeps both. -/
theorem owns_call (handle : RecvHandle) (call : Call) : (handle.call call).owns = handle.owns := by
  cases call with
  | recvDismiss count =>
    simp only [RecvHandle.call, recvDismiss]
    split <;> rfl
  | recvReset => rfl
  | recvRedirect =>
    simp only [RecvHandle.call, recvRedirect]
    split
    · next first second buf auxBuf =>
      funext place
      cases place with
      | byte address =>
        simp only [owns, InBuffer, buf, auxBuf]
        exact propext (exists_congr fun base => and_congr_left fun _ => Or.comm)
      | entry index => rfl
      | semaphore id => rfl
    · rfl
  | recvIdle => rfl
  | recvResume => rfl

/-- A delivery writes only bytes of the current slot, the next entry and the semaphore. -/
theorem deliver_frame (valid : Valid handle) (indexed : Indexed handle)
    (start : arrival.recvOffset = 0) (whole : arrival.buf.length = handle.data.bufSize)
    (world : RecvWorld) {place : Place} (foreign : place ∉ handle.owns) :
    (handle.deliver arrival world).1.view place = world.view place := by
  obtain ⟨base, buffer⟩ := valid.buffer
  cases place with
  | byte address =>
    have fills : handle.FillsOnlySlot arrival.recvOffset := start ▸ .zero valid
    exact fills world arrival rfl whole address fun inside => foreign (inside.inBuffer valid)
  | entry index =>
    have array := congrArg Prod.fst (iosbState_deliver arrival world buffer)
    simp only [iosbState] at array
    refine (congrFun array index).trans ?_
    split
    · next written =>
      simp only [writesIosb, hasIosb, Bool.and_eq_true, bne_iff_ne] at written
      obtain ⟨_, present, some⟩ := written
      obtain ⟨entries, present⟩ := Option.isSome_iff_exists.mp present
      simp only [iosbWritten, present]
      refine if_neg fun here => foreign ⟨entries, present, ?_, ?_⟩
      · omega
      · have inside := indexed some
        omega
    · rfl
  | semaphore id =>
    refine (congrFun (handle.semaphores_deliver arrival world) id).trans ?_
    split
    · cases sem : handle.data.sem with
      | none => rfl
      | some own => exact if_neg fun here => foreign (sem.trans (congrArg some here.symm))
    · rfl

/-- What a delivery does to the handle does not depend on the world. -/
private theorem deliver_handle (handle : RecvHandle) (arrival : Arrival) (left right : RecvWorld) :
    (handle.deliver arrival left).2 = (handle.deliver arrival right).2 := by
  have slots : (handle.deliver arrival left).2.slots = (handle.deliver arrival right).2.slots := by
    cases copied : handle.copies arrival.recvOffset with
    | false => rw [(deliver_refused left copied).2, (deliver_refused right copied).2]
    | true =>
      cases buffer : handle.data.buf with
      | none => simp [copies, admits, buffer] at copied
      | some base =>
        rw [(deliver_copied left buffer copied).2, (deliver_copied right buffer copied).2]
  have index : (handle.deliver arrival left).2.data.iosbIndex =
      (handle.deliver arrival right).2.data.iosbIndex := by
    cases buffer : handle.data.buf with
    | none => simp only [RecvHandle.deliver, buffer]
    | some base =>
      have first := congrArg Prod.snd (iosbState_deliver arrival left buffer)
      have second := congrArg Prod.snd (iosbState_deliver arrival right buffer)
      simp only [iosbState] at first second
      rw [first, second]
      split
      · simp only [iosbWritten]
        split <;> rfl
      · rfl
  have restored : ∀ some : RecvHandle,
      some = { some.slots with data.iosbIndex := some.data.iosbIndex } := fun _ => rfl
  rw [restored (handle.deliver arrival left).2, restored (handle.deliver arrival right).2, slots,
    index]

/-- What a delivery writes to the places of the handle does not depend on what is there. -/
private theorem deliver_agree (valid : Valid handle) {left right : RecvWorld} (arrival : Arrival)
    (agree : AgreeOn RecvWorld.view handle.owns left right) :
    AgreeOn RecvWorld.view handle.owns (handle.deliver arrival left).1
      (handle.deliver arrival right).1 := by
  obtain ⟨base, buffer⟩ := valid.buffer
  intro place mine
  have before := agree place mine
  cases place with
  | byte address =>
    have before : left.memory address = right.memory address := before
    show (handle.deliver arrival left).1.memory address =
      (handle.deliver arrival right).1.memory address
    cases copied : handle.copies arrival.recvOffset with
    | false => rw [(deliver_refused left copied).1, (deliver_refused right copied).1, before]
    | true =>
      rw [(deliver_copied left buffer copied).1, (deliver_copied right buffer copied).1]
      simp only [ByteMemory.store, before]
  | entry index =>
    have before : left.iosbs index = right.iosbs index := before
    have first := congrArg Prod.fst (iosbState_deliver arrival left buffer)
    have second := congrArg Prod.fst (iosbState_deliver arrival right buffer)
    simp only [iosbState] at first second
    show (handle.deliver arrival left).1.iosbs index = (handle.deliver arrival right).1.iosbs index
    rw [first, second]
    split
    · simp only [iosbWritten]
      split
      · exact before
      · simp only [before]
    · exact before
  | semaphore id =>
    have before : left.semaphores id = right.semaphores id := before
    show (handle.deliver arrival left).1.semaphores id =
      (handle.deliver arrival right).1.semaphores id
    rw [semaphores_deliver, semaphores_deliver]
    split
    · have own : handle.data.sem = some id := mine
      simp only [own, RecvWorld.trySignalSem, ↓reduceIte, before]
    · exact before

theorem owns_deliver (handle : RecvHandle) (arrival : Arrival) (world : RecvWorld) :
    (handle.deliver arrival world).2.owns = handle.owns :=
  owns_eq_of_static (handle.deliver_static arrival world)

/-- A delivery of a whole message stays on the places of the handle. -/
theorem isLocal_deliver (sane : Sane handle) (start : arrival.recvOffset = 0)
    (whole : arrival.buf.length = handle.data.bufSize) :
    IsLocal RecvWorld.view owns (fun state => state.2.deliver arrival state.1) handle where
  frame world _ foreign := deliver_frame sane.valid sane.indexed start whole world foreign
  keeps world := handle.owns_deliver arrival world
  sees left right agree :=
    ⟨handle.deliver_handle arrival left right, deliver_agree sane.valid arrival agree⟩

/-- The owner's calls change the handle only. -/
theorem isLocal_call (handle : RecvHandle) (call : Call) :
    IsLocal RecvWorld.view owns (fun state => step state (.call call)) handle where
  frame _ _ _ := rfl
  keeps _ := handle.owns_call call
  sees _ _ agree := ⟨rfl, agree⟩

/-- Worlds that agree on the places of the handle have the same messages in its slots. -/
theorem slotAt_agree {left right : RecvWorld} {base index : ℕ}
    (agree : AgreeOn RecvWorld.view handle.owns left right) (buffer : handle.data.buf = some base)
    (inside : index < handle.data.bufSlots) :
    slotAt left.memory base handle.data.bufSize index =
      slotAt right.memory base handle.data.bufSize index := by
  have slots : (index + 1) * handle.data.bufSize ≤ handle.data.bufSlots * handle.data.bufSize :=
    Nat.mul_le_mul_right _ inside
  rw [Nat.add_mul, Nat.one_mul] at slots
  apply ByteMemory.load_congr
  intro query lower upper
  exact agree (.byte query) ⟨base, .inl buffer, by omega, by omega⟩

namespace Sane

theorem new (uid : HandleUid) (request : RecvRequest)
    (accepted : (openRecvLabel request).accepted = true) :
    Sane (.new uid (openRecvLabel request)) :=
  ⟨.new uid request accepted, fun some => Nat.pos_of_ne_zero some⟩

theorem step {state : RecvWorld × RecvHandle} (sane : Sane state.2) (op : Op) :
    Sane (RecvHandle.step state op).2 := by
  refine ⟨sane.valid.step op, fun some => ?_⟩
  obtain ⟨num, moved⟩ := step_iosbIndex sane.valid op
  rw [num] at some ⊢
  rcases moved with ⟨_, same⟩ | ⟨_, next⟩
  · rw [same]
    exact sane.indexed some
  · rw [next]
    exact Nat.mod_lt _ (Nat.pos_of_ne_zero some)

theorem run {state : RecvWorld × RecvHandle} (ops : List Op) (sane : Sane state.2) :
    Sane (ops.foldl RecvHandle.step state).2 := by
  induction ops generalizing state with
  | nil => exact sane
  | cons op rest ih => exact ih (sane.step op)

end Sane

/-- The size of the slots never changes. -/
theorem run_bufSize (ops : List Op) (state : RecvWorld × RecvHandle) :
    (ops.foldl step state).2.data.bufSize = state.2.data.bufSize := by
  induction ops generalizing state with
  | nil => rfl
  | cons op rest ih =>
    refine (ih (step state op)).trans ?_
    cases op with
    | deliver arrival =>
      exact congrArg (·.data.bufSize) (state.2.deliver_static arrival state.1)
    | call call => exact congrArg (·.size) (Node.call_view state.2 call)

end RecvHandle

end Eroil
