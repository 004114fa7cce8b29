import Eroil.Lib.Cyclic
import Eroil.Proofs.Router.Mailbox

/-! # What a receive IOSB says about the buffer

Four signal modes share one writer of receive IOSBs. A delivery that is reported but not copied is
the case to look for: the entry then names the slot that is written next, whatever it holds.
-/

namespace Eroil.RecvHandle

open Lib

variable {handle : RecvHandle} {arrival : Arrival} {world : RecvWorld}

/-- `write_recv_iosb` has an entry to write to. -/
def hasIosb (handle : RecvHandle) : Bool := handle.data.iosb.isSome && handle.data.numIosb != 0

/-- The branch of the signal mode calls `write_recv_iosb`. -/
def reports (handle : RecvHandle) : Bool :=
  match handle.data.signalMode with
  | .overwrite => true
  | .bufferFull =>
      handle.data.recvCount != handle.data.bufSlots &&
        wrap32 (handle.data.recvCount + 1) == handle.data.bufSlots
  | .everyMessage => true
  | .signalAllWriteAll => true

/-- The delivery writes an IOSB. -/
def writesIosb (handle : RecvHandle) (arrival : Arrival) : Bool :=
  handle.admits arrival.recvOffset && handle.reports && handle.hasIosb

/-- The entry that `write_recv_iosb` composes. -/
def recvEntry (arrival : Arrival) (msgSlot dst : ℕ) : ReceiveIosb where
  status := 0
  headerValid := 1
  action := 1
  msgSize := bitField 24 (arrival.buf.length / 4 : ℕ)
  messageSlot := bitField 16 msgSlot
  label := arrival.label.toInt
  pMsgAddr := dst
  sourceId := bitField 24 arrival.sourceId.toInt
  destinationId := bitField 24 arrival.label.toInt
  parameter := bitField 32 arrival.recvOffset
  timeStamp := arrival.now

/-- The slot number of an entry is a signed field of 16 bits. -/
theorem recvEntry_messageSlot {slot dst : ℕ} :
    (recvEntry arrival slot dst).messageSlot = slot ↔ slot < 2 ^ 15 := by
  simp only [recvEntry]
  exact bitField_eq_iff 15 slot

/-- The IOSB array and the position in it. -/
def iosbState (state : RecvWorld × RecvHandle) : (ℕ → ReceiveIosb) × ℕ :=
  (state.1.iosbs, state.2.data.iosbIndex)

/-- The IOSB array and position after one entry. -/
def iosbWritten (world : RecvWorld) (handle : RecvHandle) (entry : ReceiveIosb) :
    (ℕ → ReceiveIosb) × ℕ :=
  match handle.data.iosb with
  | none => (world.iosbs, handle.data.iosbIndex)
  | some entries =>
      (fun query => if query = entries + handle.data.iosbIndex then entry else world.iosbs query,
        (handle.data.iosbIndex + 1) % handle.data.numIosb)

theorem iosbState_trySignalSem (world : RecvWorld) (handle : RecvHandle) (sem : Option ℕ) :
    iosbState (world.trySignalSem sem, handle) = iosbState (world, handle) := by
  cases sem <;> rfl

private theorem iosbState_fillSlot (handle : RecvHandle) (world : RecvWorld)
    (arrival : Arrival) (dst : ℕ) :
    iosbState (handle.fillSlot world arrival dst) = iosbState (world, handle) := rfl

private theorem iosbWritten_fillSlot (handle : RecvHandle) (world : RecvWorld) (arrival : Arrival)
    (dst : ℕ) (entry : ReceiveIosb) :
    iosbWritten (handle.fillSlot world arrival dst).1 (handle.fillSlot world arrival dst).2 entry =
      iosbWritten world handle entry := rfl

theorem iosbState_writeRecvIosb (handle : RecvHandle) (world : RecvWorld) (arrival : Arrival)
    (slot dst : ℕ) :
    iosbState (handle.writeRecvIosb world arrival slot dst) =
      if handle.hasIosb then iosbWritten world handle (recvEntry arrival slot dst)
      else iosbState (world, handle) := by
  unfold writeRecvIosb hasIosb iosbWritten
  cases entries : handle.data.iosb with
  | none => rfl
  | some base =>
    by_cases none : handle.data.numIosb = 0
    · simp [none]
    · simp only [none, ↓reduceIte, Option.isSome_some, Bool.true_and, bne_iff_ne, ne_eq,
        not_false_eq_true]
      rfl

private theorem hasIosb_fillSlot (handle : RecvHandle) (world : RecvWorld)
    (arrival : Arrival) (dst : ℕ) :
    (handle.fillSlot world arrival dst).2.hasIosb = handle.hasIosb := rfl

/-- Under the lock the IOSB array changes in the reporting branches only. -/
private theorem iosbState_deliverLocked (handle : RecvHandle) (arrival : Arrival) (world : RecvWorld)
    (base : ℕ) :
    iosbState (handle.deliverLocked arrival world base) =
      if handle.reports && handle.hasIosb then
        iosbWritten world handle
          (recvEntry arrival handle.data.bufIndex (handle.slotAddress base))
      else iosbState (world, handle) := by
  unfold deliverLocked reports
  cases mode : handle.data.signalMode with
  | overwrite =>
    simp only [iosbState_writeRecvIosb, hasIosb_fillSlot, iosbWritten_fillSlot, Bool.true_and]
    rfl
  | bufferFull =>
    by_cases full : handle.data.recvCount = handle.data.bufSlots
    · simp only [full, ↓reduceIte, bne_self_eq_false, Bool.false_and, Bool.false_eq_true]
      exact iosbState_trySignalSem _ _ _
    · have notFull : (handle.data.recvCount != handle.data.bufSlots) = true := by simpa using full
      simp only [full, ↓reduceIte, notFull, Bool.true_and]
      by_cases last : wrap32 (handle.data.recvCount + 1) = handle.data.bufSlots
      · have fills : (handle.fillSlot world arrival (handle.slotAddress base)).2.data.recvCount =
            (handle.fillSlot world arrival (handle.slotAddress base)).2.data.bufSlots := last
        simp only [fills, ↓reduceIte, last, beq_self_eq_true, Bool.true_and]
        rw [iosbState_trySignalSem]
        exact iosbState_writeRecvIosb _ _ _ _ _
      · have room : ¬ (handle.fillSlot world arrival (handle.slotAddress base)).2.data.recvCount =
            (handle.fillSlot world arrival (handle.slotAddress base)).2.data.bufSlots := last
        have notLast : (wrap32 (handle.data.recvCount + 1) == handle.data.bufSlots) = false := by
          simpa using last
        simp only [room, ↓reduceIte, notLast, Bool.false_and, Bool.false_eq_true]
        exact iosbState_fillSlot _ _ _ _
  | everyMessage =>
    simp only [Bool.true_and]
    rw [iosbState_trySignalSem]
    by_cases room : handle.data.recvCount < handle.data.bufSlots
    · simp only [room, ↓reduceIte, Prod.mk.eta]
      exact iosbState_writeRecvIosb _ _ _ _ _
    · simp only [room, ↓reduceIte, Prod.mk.eta]
      exact iosbState_writeRecvIosb _ _ _ _ _
  | signalAllWriteAll =>
    simp only [Bool.true_and]
    rw [iosbState_trySignalSem]
    exact iosbState_writeRecvIosb _ _ _ _ _

/-- A delivery writes the IOSB of the slot that was next, or leaves the IOSB array alone. -/
theorem iosbState_deliver {base : ℕ} (arrival : Arrival) (world : RecvWorld)
    (buffer : handle.data.buf = some base) :
    iosbState (handle.deliver arrival world) =
      if handle.writesIosb arrival then
        iosbWritten world handle
          (recvEntry arrival handle.data.bufIndex (handle.slotAddress base))
      else iosbState (world, handle) := by
  unfold writesIosb
  cases admitted : handle.admits arrival.recvOffset with
  | false =>
    rw [deliver_rejected admitted]
    rfl
  | true =>
    rw [deliver_admitted buffer admitted, iosbState_deliverLocked]
    simp only [Bool.true_and]

/-- The entry names a slot of the buffer, by number and by address, that contains the payload. -/
def Names (after : RecvWorld × RecvHandle) (payload : List UInt8) (entry : ReceiveIosb) : Prop :=
  ∃ base slot : ℕ, after.2.data.buf = some base ∧ slot < after.2.data.bufSlots ∧
    entry.messageSlot = slot ∧ entry.pMsgAddr = base + slot * after.2.data.bufSize ∧
    after.1.memory.load entry.pMsgAddr payload.length = payload

/-- What an IOSB with status 0 promises about the delivery it is written for. -/
def IosbNamesPayload (arrival : Arrival) (state : RecvWorld × RecvHandle) : Prop :=
  let after := state.2.deliver arrival state.1
  ∀ entries, state.2.data.iosb = some entries → state.2.writesIosb arrival = true →
    (after.1.iosbs (entries + state.2.data.iosbIndex)).status = 0 →
      Names after arrival.buf (after.1.iosbs (entries + state.2.data.iosbIndex))

/-- The slot written next has a number that the IOSB can carry, and if the mode does not copy
into a full buffer it already contains the payload. -/
def SlotReady (arrival : Arrival) (world : RecvWorld) (handle : RecvHandle) : Prop :=
  handle.data.bufIndex < 2 ^ 15 ∧
    (handle.data.signalMode = .everyMessage → handle.data.recvCount < handle.data.bufSlots ∨
      ∃ base, handle.data.buf = some base ∧
        world.memory.load (handle.slotAddress base) arrival.buf.length = arrival.buf)

/-- A reported delivery that is not copied is one to a full buffer in mode `EVERY_MESSAGE`. -/
theorem hasRoom_of_reports (reported : handle.reports = true) :
    handle.hasRoom = true ↔
      (handle.data.signalMode = .everyMessage → handle.data.recvCount < handle.data.bufSlots) := by
  unfold reports at reported
  unfold hasRoom
  cases mode : handle.data.signalMode with
  | overwrite => simp
  | bufferFull =>
    rw [mode] at reported
    simpa using (Bool.and_eq_true_iff.mp reported).1
  | everyMessage => simp
  | signalAllWriteAll => simp

/-- The memory of the named slot after a reported delivery of a whole message. -/
private theorem load_deliver {base : ℕ} (world : RecvWorld) (buffer : handle.data.buf = some base)
    (start : arrival.recvOffset = 0) (admitted : handle.admits arrival.recvOffset = true) :
    (handle.deliver arrival world).1.memory.load (handle.slotAddress base) arrival.buf.length =
      if handle.hasRoom then arrival.buf
      else world.memory.load (handle.slotAddress base) arrival.buf.length := by
  cases room : handle.hasRoom with
  | true =>
    have copied : handle.copies arrival.recvOffset = true := by simp [copies, admitted, room]
    rw [(deliver_copied world buffer copied).1, start, Nat.add_zero]
    exact ByteMemory.load_store_same _ _ _
  | false =>
    have refused : handle.copies arrival.recvOffset = false := by simp [copies, room]
    rw [(deliver_refused world refused).1]
    rfl

/-- A reported delivery of a whole message keeps the promise exactly if the slot was ready. -/
private theorem iosbNamesPayload_reported (valid : Valid handle) (start : arrival.recvOffset = 0)
    (written : handle.writesIosb arrival = true) :
    IosbNamesPayload arrival (world, handle) ↔ SlotReady arrival world handle := by
  obtain ⟨base, buffer⟩ := valid.buffer
  have reasons := written
  simp only [writesIosb, hasIosb, Bool.and_eq_true] at reasons
  obtain ⟨⟨admitted, reported⟩, present, _⟩ := reasons
  obtain ⟨entries, present⟩ := Option.isSome_iff_exists.mp present
  have wrote := iosbState_deliver arrival world buffer
  rw [written, if_pos rfl, iosbWritten, present] at wrote
  have entry : (handle.deliver arrival world).1.iosbs (entries + handle.data.iosbIndex) =
      recvEntry arrival handle.data.bufIndex (handle.slotAddress base) :=
    (congrFun (congrArg Prod.fst wrote) _).trans (if_pos rfl)
  have static := handle.deliver_static arrival world
  have kept : (handle.deliver arrival world).2.data.buf = some base :=
    (congrArg (·.data.buf) static).trans buffer
  have slots : (handle.deliver arrival world).2.data.bufSlots = handle.data.bufSlots :=
    congrArg (·.data.bufSlots) static
  have size : (handle.deliver arrival world).2.data.bufSize = handle.data.bufSize :=
    congrArg (·.data.bufSize) static
  have loaded := load_deliver world buffer start admitted
  constructor
  · intro promise
    obtain ⟨other, slot, same, _, number, address, contents⟩ :=
      promise entries present written (by rw [entry]; rfl)
    rw [entry] at number address contents
    rw [kept] at same
    obtain rfl := Option.some.inj same
    have named : handle.data.bufIndex * handle.data.bufSize = slot * handle.data.bufSize := by
      rw [size] at address
      exact Nat.add_left_cancel address
    have slotEq := Nat.eq_of_mul_eq_mul_right (Nat.pos_of_ne_zero valid.bufSize_ne_zero) named
    rw [← slotEq] at number
    refine ⟨recvEntry_messageSlot.mp number, ?_⟩
    intro mode
    by_contra! full
    have noRoom : handle.hasRoom = false := by
      rw [Bool.eq_false_iff, ne_eq, hasRoom_of_reports reported]
      exact fun room => absurd (room mode) (Nat.not_lt.mpr full.1)
    rw [noRoom] at loaded
    exact full.2 base buffer (loaded.symm.trans contents)
  · rintro ⟨small, ready⟩ others same _ _
    rw [present] at same
    obtain rfl := Option.some.inj same
    rw [entry]
    refine ⟨base, handle.data.bufIndex, kept, slots ▸ valid.inside,
      recvEntry_messageSlot.mpr small, ?_, ?_⟩
    · rw [size]
      rfl
    · refine loaded.trans ?_
      cases room : handle.hasRoom with
      | true => rfl
      | false =>
        have full := mt (hasRoom_of_reports reported).mpr (Bool.eq_false_iff.mp room)
        simp only [Classical.not_imp] at full
        rcases ready full.1 with room | ⟨_, again, holds⟩
        · exact absurd room full.2
        · rw [buffer] at again
          obtain rfl := Option.some.inj again
          exact holds

/-- The positions of the IOSB array that one operation writes. -/
def writtenEntry (handle : RecvHandle) : Op → List ℕ
  | .deliver arrival => if handle.writesIosb arrival then [handle.data.iosbIndex] else []
  | .call _ => []

/-- The positions of the IOSB array that a run writes, in order. -/
def writtenEntries : RecvWorld × RecvHandle → List Op → List ℕ
  | _, [] => []
  | state, op :: rest => state.2.writtenEntry op ++ writtenEntries (step state op) rest

/-- The owner's calls do not move the position in the IOSB array. -/
private theorem call_iosb (handle : RecvHandle) (call : Call) :
    (handle.call call).data.iosb = handle.data.iosb ∧
      (handle.call call).data.numIosb = handle.data.numIosb ∧
      (handle.call call).data.iosbIndex = handle.data.iosbIndex := by
  cases call with
  | recvDismiss count =>
    simp only [RecvHandle.call, recvDismiss]
    split <;> exact ⟨rfl, rfl, rfl⟩
  | recvReset => exact ⟨rfl, rfl, rfl⟩
  | recvRedirect =>
    simp only [RecvHandle.call, recvRedirect]
    split <;> exact ⟨rfl, rfl, rfl⟩
  | recvIdle => exact ⟨rfl, rfl, rfl⟩
  | recvResume => exact ⟨rfl, rfl, rfl⟩

/-- An operation moves the position by one if it writes an entry, and not at all otherwise. -/
theorem step_iosbIndex {state : RecvWorld × RecvHandle} (valid : Valid state.2) (op : Op) :
    (step state op).2.data.numIosb = state.2.data.numIosb ∧
      (state.2.writtenEntry op = [] ∧
          (step state op).2.data.iosbIndex = state.2.data.iosbIndex ∨
        state.2.writtenEntry op = [state.2.data.iosbIndex] ∧
          (step state op).2.data.iosbIndex =
            (state.2.data.iosbIndex + 1) % state.2.data.numIosb) := by
  cases op with
  | deliver arrival =>
    refine ⟨congrArg (·.data.numIosb) (state.2.deliver_static arrival state.1), ?_⟩
    obtain ⟨base, buffer⟩ := valid.buffer
    have position := congrArg Prod.snd (iosbState_deliver arrival state.1 buffer)
    simp only [iosbState] at position
    simp only [step, writtenEntry, position]
    cases written : state.2.writesIosb arrival with
    | false => exact .inl ⟨rfl, rfl⟩
    | true =>
      refine .inr ⟨rfl, ?_⟩
      simp only [writesIosb, hasIosb, Bool.and_eq_true] at written
      obtain ⟨entries, present⟩ := Option.isSome_iff_exists.mp written.2.1
      simp only [↓reduceIte, iosbWritten, present]
  | call call =>
    obtain ⟨_, num, index⟩ := state.2.call_iosb call
    exact ⟨num, .inl ⟨rfl, index⟩⟩

theorem Valid.step {state : RecvWorld × RecvHandle} (valid : Valid state.2) (op : Op) :
    Valid (RecvHandle.step state op).2 := by
  cases op with
  | deliver arrival => exact valid.deliver arrival state.1
  | call call => exact valid.call call

theorem Valid.run {state : RecvWorld × RecvHandle} (ops : List Op) (valid : Valid state.2) :
    Valid (ops.foldl RecvHandle.step state).2 := by
  induction ops generalizing state with
  | nil => exact valid
  | cons op rest ih => exact ih (valid.step op)

/-- A run takes the entries one after the other, from the first position on. -/
private theorem writtenEntries_eq {state : RecvWorld × RecvHandle} (ops : List Op)
    (valid : Valid state.2)
    (inside : state.2.data.iosbIndex < state.2.data.numIosb) :
    let count := (writtenEntries state ops).length
    let num := state.2.data.numIosb
    writtenEntries state ops = Cyclic.positions num state.2.data.iosbIndex count ∧
      (ops.foldl step state).2.data.numIosb = num ∧
      (ops.foldl step state).2.data.iosbIndex = (state.2.data.iosbIndex + count) % num := by
  induction ops generalizing state with
  | nil => exact ⟨rfl, rfl, (Nat.mod_eq_of_lt inside).symm⟩
  | cons op rest ih =>
    obtain ⟨num, moved⟩ := step_iosbIndex valid op
    have bound : (step state op).2.data.iosbIndex < (step state op).2.data.numIosb := by
      rw [num]
      rcases moved with ⟨_, same⟩ | ⟨_, next⟩
      · rwa [same]
      · rw [next]
        exact Nat.mod_lt _ (Nat.zero_lt_of_lt inside)
    obtain ⟨entries, final, index⟩ := ih (valid.step op) bound
    rw [num] at entries final index
    simp only [writtenEntries, List.foldl_cons]
    rcases moved with ⟨none, same⟩ | ⟨one, next⟩
    · rw [same] at entries index
      rw [none, List.nil_append]
      exact ⟨entries, final, index⟩
    · rw [next] at entries index
      rw [one, List.singleton_append, List.length_cons, Cyclic.positions_succ _ inside, ← entries]
      refine ⟨rfl, final, index.trans ?_⟩
      rw [Nat.mod_add_mod]
      congr 1
      omega

/-- Whatever was delivered and called before, a delivery of a whole message changes the IOSB array
only if it writes an IOSB, and then at the position that is next; the IOSB names a slot with the
payload exactly if the slot written next has a 16-bit signed number and, in mode `EVERY_MESSAGE`
with a full buffer, contains the payload already. The entries are taken cyclically. -/
theorem recv_iosb_names_payload_iff (world : RecvWorld) (uid : HandleUid) (request : RecvRequest)
    (ops : List Op) (arrival : Arrival) (accepted : (openRecvLabel request).accepted = true)
    (start : arrival.recvOffset = 0) :
    let opened := (world, RecvHandle.new uid (openRecvLabel request))
    let state := ops.foldl step opened
    let after := state.2.deliver arrival state.1
    let num := request.numIosb.toNat
    (IosbNamesPayload arrival state ↔
        state.2.writesIosb arrival = false ∨ SlotReady arrival state.1 state.2) ∧
      (state.2.writesIosb arrival = false → after.1.iosbs = state.1.iosbs) ∧
      (∀ entries query, state.2.data.iosb = some entries →
        query ≠ entries + state.2.data.iosbIndex → after.1.iosbs query = state.1.iosbs query) ∧
      (num ≠ 0 → state.2.data.iosbIndex < num ∧
        writtenEntries opened ops =
          Cyclic.positions num 0 (writtenEntries opened ops).length ∧
        state.2.data.iosbIndex = (writtenEntries opened ops).length % num) := by
  intro opened state after num
  have fresh : Valid opened.2 := Valid.new uid request accepted
  have valid : Valid state.2 := fresh.run ops
  obtain ⟨base, buffer⟩ := valid.buffer
  have array := congrArg Prod.fst (iosbState_deliver arrival state.1 buffer)
  simp only [iosbState] at array
  refine ⟨?_, ?_, ?_, ?_⟩
  · cases written : state.2.writesIosb arrival with
    | false =>
      simp only [IosbNamesPayload, written, Bool.false_eq_true, false_implies, implies_true,
        true_or]
    | true =>
      simp only [Bool.true_eq_false, false_or]
      exact iosbNamesPayload_reported valid start written
  · intro silent
    rw [silent] at array
    exact array
  · intro entries query present other
    refine (congrFun array query).trans ?_
    split
    · simp only [iosbWritten, present]
      exact if_neg other
    · rfl
  · intro some
    obtain ⟨entries, same, index⟩ := writtenEntries_eq ops fresh (Nat.pos_of_ne_zero some)
    have index : state.2.data.iosbIndex = (0 + (writtenEntries opened ops).length) % num := index
    rw [Nat.zero_add] at index
    refine ⟨?_, entries, index⟩
    rw [index]
    exact Nat.mod_lt _ (Nat.pos_of_ne_zero some)

/-- One slot of one byte that may not be overwritten, with two IOSBs. -/
def singleRequest : RecvRequest where
  label := 7
  buf := some 100
  size := 1
  numSlots := 1
  auxBuf := none
  sem := some 1
  iosb := some 0
  numIosb := 2
  signalMode := .everyMessage

theorem recv_iosb_names_payload_iff_single :
    IosbNamesPayload (arrivalOf [9]) (blank, .new 1 (openRecvLabel singleRequest)) :=
  (recv_iosb_names_payload_iff blank 1 singleRequest [] (arrivalOf [9]) (by decide) rfl).1.mpr
    (.inr ⟨by decide, fun _ => .inl (by decide)⟩)

/-- The second message to a full buffer is not stored, but its IOSB names the slot of the first. -/
theorem recv_iosb_names_stale_slot :
    ¬ IosbNamesPayload (arrivalOf [8])
      (step (blank, .new 1 (openRecvLabel singleRequest)) (.deliver (arrivalOf [9]))) := by
  intro promise
  obtain ⟨_, _, _, _, _, _, contents⟩ := promise 0 rfl (by decide) rfl
  exact absurd contents (by decide)

end Eroil.RecvHandle
