import Eroil.Model.Router.Iosb
import Eroil.Proofs.Router.RecvIosb

/-! # The IOSB accessors undo the IOSB writers

Reading the members of an entry after a writer's assignments gives the typed record that the handle
model stores, so the byte-level writers simulate it. Through the common view an entry's action is
never mistaken; the label and the slot come back exactly if they fit below the sign bit of their
24-bit and 16-bit members.
-/

namespace Eroil

open Lib

section

variable (memory : ByteMemory) (address : ℕ)

/-- The record that an entry's bytes stand for. -/
def ReceiveIosb.decode : ReceiveIosb where
  status := Layout.status.loadSigned memory address
  headerValid := Layout.headerValid.load memory address
  action := Layout.reserve2.loadSigned memory address
  msgSize := Layout.msgSize.loadSigned memory address
  messageSlot := Layout.messaageSlot.loadSigned memory address
  label := Layout.reserve5.loadSigned memory address
  pMsgAddr := Layout.pMsgAddr.load memory address
  sourceId := (FcHeader.nested FcHeader.sourceId).loadSigned memory address
  destinationId := (FcHeader.nested FcHeader.destinationId).loadSigned memory address
  parameter := (FcHeader.nested FcHeader.parameter).loadSigned memory address
  timeStamp :=
    ⟨.ofNat (Layout.uiMsb.load memory address), .ofNat (Layout.uiLsb.load memory address)⟩

/-- The record that an entry's bytes stand for. -/
def SendIosb.decode : SendIosb where
  status := Layout.status.loadSigned memory address
  headerValid := Layout.headerValid.load memory address
  action := Layout.reserve2.loadSigned memory address
  pMsgAddr := Layout.pMsgAddr.load memory address
  msgSize := Layout.msgSize.loadSigned memory address
  timeStamp :=
    ⟨.ofNat (Layout.uiMsb.load memory address), .ofNat (Layout.uiLsb.load memory address)⟩
  sourceId := (FcHeader.nested FcHeader.sourceId).loadSigned memory address
  destinationId := (FcHeader.nested FcHeader.destinationId).loadSigned memory address

/-- The assignments of `write_recv_iosb` make the record of the typed model. -/
theorem decode_recvStores (arrival : Arrival) (msgSlot : ℕ) (dst : UInt64) :
    ReceiveIosb.decode (storeAll address (recvStores arrival msgSlot dst.toNat) memory) address =
      RecvHandle.recvEntry arrival msgSlot dst.toNat := by
  have addressFits : dst.toNat < 2 ^ ReceiveIosb.Layout.pMsgAddr.width := dst.toNat_lt
  have msbFits : arrival.now.uiMsb.toNat < 2 ^ ReceiveIosb.Layout.uiMsb.width :=
    arrival.now.uiMsb.toNat_lt
  have lsbFits : arrival.now.uiLsb.toNat < 2 ^ ReceiveIosb.Layout.uiLsb.width :=
    arrival.now.uiLsb.toNat_lt
  have label := arrival.label.toInt_lt
  have negative := arrival.label.le_toInt
  simp only [ReceiveIosb.decode, RecvHandle.recvEntry, ReceiveIosb.mk.injEq]
  refine ⟨?_, ?_, ?_, ?_, ?_, ?_, ?_, ?_, ?_, ?_, ?_⟩
  · exact (loadSigned_storeAll address memory 0 rfl rfl).trans rfl
  · exact load_storeAll_of_lt address memory 2 rfl rfl (by decide)
  · exact (loadSigned_storeAll address memory 3 rfl rfl).trans rfl
  · exact loadSigned_storeAll address memory 5 rfl rfl
  · exact loadSigned_storeAll address memory 7 rfl rfl
  · rw [loadSigned_storeAll address memory 8 rfl rfl]
    exact Int.bmod_eq_of_le_mul_two (by simp [ReceiveIosb.Layout.reserve5]; omega)
      (by simp [ReceiveIosb.Layout.reserve5]; omega)
  · exact load_storeAll_of_lt address memory 9 rfl rfl addressFits
  · exact loadSigned_storeAll address memory 30 rfl rfl
  · exact loadSigned_storeAll address memory 31 rfl rfl
  · exact loadSigned_storeAll address memory 32 rfl rfl
  · rw [load_storeAll_of_lt address memory 15 rfl rfl msbFits,
      load_storeAll_of_lt address memory 16 rfl rfl lsbFits]
    simp

/-- The record of the typed model that `write_send_iosb` stores. -/
def sendEntry (sourceId : NodeId) (label : Label) (size failCount srcBufAddr : ℕ) (now : RTOSTime) :
    SendIosb where
  status := if failCount > 0 then -1 else 0
  headerValid := 1
  action := 0
  pMsgAddr := srcBufAddr
  msgSize := bitField 32 size
  timeStamp := now
  sourceId := bitField 24 sourceId.toInt
  destinationId := bitField 24 label.toInt

/-- The assignments of `write_send_iosb` make the record of the typed model. -/
theorem decode_sendStores (sourceId : NodeId) (label : Label) (size failCount : ℕ) (src : UInt64)
    (now : RTOSTime) :
    SendIosb.decode
        (storeAll address (sendStores sourceId label size failCount src.toNat now) memory) address =
      sendEntry sourceId label size failCount src.toNat now := by
  have addressFits : src.toNat < 2 ^ SendIosb.Layout.pMsgAddr.width := src.toNat_lt
  have msbFits : now.uiMsb.toNat < 2 ^ SendIosb.Layout.uiMsb.width := now.uiMsb.toNat_lt
  have lsbFits : now.uiLsb.toNat < 2 ^ SendIosb.Layout.uiLsb.width := now.uiLsb.toNat_lt
  simp only [SendIosb.decode, sendEntry, SendIosb.mk.injEq]
  refine ⟨?_, ?_, ?_, ?_, ?_, ?_, ?_, ?_⟩
  · rw [loadSigned_storeAll address memory 0 rfl rfl]
    split <;> rfl
  · exact load_storeAll_of_lt address memory 2 rfl rfl (by decide)
  · exact (loadSigned_storeAll address memory 3 rfl rfl).trans rfl
  · exact load_storeAll_of_lt address memory 5 rfl rfl addressFits
  · exact loadSigned_storeAll address memory 6 rfl rfl
  · rw [load_storeAll_of_lt address memory 14 rfl rfl msbFits,
      load_storeAll_of_lt address memory 15 rfl rfl lsbFits]
    simp
  · exact loadSigned_storeAll address memory 29 rfl rfl
  · exact loadSigned_storeAll address memory 30 rfl rfl

end

section

variable {left right : ByteMemory} {address : ℕ}

/-- An entry depends on its own bytes only. -/
theorem ReceiveIosb.decode_congr
    (agree : ∀ position, 8 * address ≤ position → position < 8 * (address + sizeofIosb) →
      left.bit position = right.bit position) :
    ReceiveIosb.decode left address = ReceiveIosb.decode right address := by
  have within : Layout.fields.all (BitField.within sizeofIosb) = true := by
    rw [sizeofIosb_eq]
    decide
  have same (field : BitField) (member : field ∈ Layout.fields) :
      field.load left address = field.load right address :=
    BitField.load_congr (List.all_eq_true.mp within field member) agree
  simp only [decode, BitField.loadSigned, same Layout.status (by decide),
    same Layout.headerValid (by decide), same Layout.reserve2 (by decide),
    same Layout.msgSize (by decide), same Layout.messaageSlot (by decide),
    same Layout.reserve5 (by decide), same Layout.pMsgAddr (by decide),
    same (FcHeader.nested FcHeader.sourceId) (by decide),
    same (FcHeader.nested FcHeader.destinationId) (by decide),
    same (FcHeader.nested FcHeader.parameter) (by decide), same Layout.uiMsb (by decide),
    same Layout.uiLsb (by decide)]

/-- An entry depends on its own bytes only. -/
theorem SendIosb.decode_congr
    (agree : ∀ position, 8 * address ≤ position → position < 8 * (address + sizeofIosb) →
      left.bit position = right.bit position) :
    SendIosb.decode left address = SendIosb.decode right address := by
  have within : Layout.fields.all (BitField.within sizeofIosb) = true := by
    rw [sizeofIosb_eq]
    decide
  have same (field : BitField) (member : field ∈ Layout.fields) :
      field.load left address = field.load right address :=
    BitField.load_congr (List.all_eq_true.mp within field member) agree
  simp only [decode, BitField.loadSigned, same Layout.status (by decide),
    same Layout.headerValid (by decide), same Layout.reserve2 (by decide),
    same Layout.msgSize (by decide), same Layout.pMsgAddr (by decide),
    same (FcHeader.nested FcHeader.sourceId) (by decide),
    same (FcHeader.nested FcHeader.destinationId) (by decide), same Layout.uiMsb (by decide),
    same Layout.uiLsb (by decide)]

end

/-- The bytes of the IOSB array at `base` stand for the typed array there. -/
def RepresentsRecv (base : ℕ) (memory : ByteMemory) (iosbs : ℕ → ReceiveIosb) : Prop :=
  ∀ index, ReceiveIosb.decode memory (iosbEntry base index) = iosbs (base + index)

/-- The bytes of the IOSB array at `base` stand for the typed array there. -/
def RepresentsSend (base : ℕ) (memory : ByteMemory) (iosbs : ℕ → SendIosb) : Prop :=
  ∀ index, SendIosb.decode memory (iosbEntry base index) = iosbs (base + index)

/-- Two entries of one array share no byte. -/
theorem iosbEntry_apart (base : ℕ) {index written position : ℕ} (different : index ≠ written)
    (low : 8 * iosbEntry base index ≤ position)
    (high : position < 8 * (iosbEntry base index + sizeofIosb)) :
    position < 8 * iosbEntry base written ∨ 8 * (iosbEntry base written + sizeofIosb) ≤ position := by
  simp only [iosbEntry, sizeofIosb_eq] at *
  omega

/-- `write_recv_iosb` on bytes simulates the typed writer. -/
theorem RepresentsRecv.storeRecvIosb {base : ℕ} {memory : ByteMemory} {world : RecvWorld}
    {handle : RecvHandle} (represents : RepresentsRecv base memory world.iosbs)
    (array : handle.data.iosb = some base) (arrival : Arrival) (msgSlot : ℕ) (dst : UInt64) :
    RepresentsRecv base (handle.storeRecvIosb memory arrival msgSlot dst.toNat).1
        (handle.writeRecvIosb world arrival msgSlot dst.toNat).1.iosbs ∧
      (handle.storeRecvIosb memory arrival msgSlot dst.toNat).2 =
        (handle.writeRecvIosb world arrival msgSlot dst.toNat).2 := by
  simp only [RecvHandle.storeRecvIosb, RecvHandle.writeRecvIosb, array]
  split
  case isTrue => exact ⟨represents, rfl⟩
  case isFalse =>
    refine ⟨?_, rfl⟩
    intro index
    have within : ((recvStores arrival msgSlot dst.toNat).map FieldStore.field).all
        (BitField.within sizeofIosb) = true := by
      rw [sizeofIosb_eq]
      rfl
    by_cases same : index = handle.data.iosbIndex
    · subst same
      rw [decode_recvStores]
      simp [RecvHandle.recvEntry]
    · have other : base + index ≠ base + handle.data.iosbIndex := by omega
      simp only [if_neg other]
      rw [← represents index]
      apply ReceiveIosb.decode_congr
      intro position low high
      exact bit_storeAll_outside _ _ _ within (iosbEntry_apart base same low high)

/-- `write_send_iosb` on bytes simulates the typed writer. -/
theorem RepresentsSend.storeSendIosb {base : ℕ} {memory : ByteMemory} {world : SendWorld}
    {handle : SendHandle} (represents : RepresentsSend base memory world.iosbs)
    (array : handle.data.iosb = some base) (sourceId : NodeId) (label : Label) (size failCount : ℕ)
    (src : UInt64) (now : RTOSTime) :
    RepresentsSend base (handle.storeSendIosb memory sourceId label size failCount src.toNat now).1
        (handle.writeSendIosb world sourceId label size failCount src.toNat now).1.iosbs ∧
      (handle.storeSendIosb memory sourceId label size failCount src.toNat now).2 =
        (handle.writeSendIosb world sourceId label size failCount src.toNat now).2 := by
  simp only [SendHandle.storeSendIosb, SendHandle.writeSendIosb, array]
  split
  case isTrue => exact ⟨represents, rfl⟩
  case isFalse =>
    refine ⟨?_, rfl⟩
    intro index
    have within : ((sendStores sourceId label size failCount src.toNat now).map FieldStore.field).all
        (BitField.within sizeofIosb) = true := by
      rw [sizeofIosb_eq]
      rfl
    by_cases same : index = handle.data.iosbIndex
    · subst same
      rw [decode_sendStores]
      simp [sendEntry]
    · have other : base + index ≠ base + handle.data.iosbIndex := by omega
      simp only [if_neg other]
      rw [← represents index]
      apply SendIosb.decode_congr
      intro position low high
      exact bit_storeAll_outside _ _ _ within (iosbEntry_apart base same low high)

/-- The accessors give back what `write_recv_iosb` was called with, and the entry passes for a
receive entry. -/
structure RecvReadBack (memory : ByteMemory) (entry : ℕ) (arrival : Arrival) (msgSlot dst : ℕ) :
    Prop where
  label : getMsgLabel memory (some entry) = arrival.label.toInt
  slot : getMsgSlot memory (some entry) = msgSlot
  offset : getMsgOffset memory (some entry) = arrival.recvOffset
  address : getMsgAddress memory (some entry) = dst
  status : getMsgStatus memory (some entry) = 0
  action : Iosb.action memory entry = RoilAction.receive.toInt

/-- The accessors give back what `write_send_iosb` was called with, and the entry passes for a send
entry, which has no slot and no offset. -/
structure SendReadBack (memory : ByteMemory) (entry : ℕ) (label : Label) (failCount src : ℕ) :
    Prop where
  label : getMsgLabel memory (some entry) = label.toInt
  address : getMsgAddress memory (some entry) = src
  status : getMsgStatus memory (some entry) = if failCount > 0 then -1 else 0
  action : Iosb.action memory entry = RoilAction.send.toInt
  slot : getMsgSlot memory (some entry) = 0
  offset : getMsgOffset memory (some entry) = 0

/-- The label comes back exactly if it stays below the sign bit of `Destination_ID`. -/
theorem destinationId_eq_iff {label : Label} (valid : ¬ label ≤ invalidLabel) :
    bitField 24 label.toInt = label.toInt ↔ label.toInt < 2 ^ 23 := by
  have above : -1 < label.toInt := Int32.lt_iff_toInt_lt.mp (Int32.not_le.mp valid)
  obtain ⟨value, natural⟩ := Int.eq_ofNat_of_zero_le (show 0 ≤ label.toInt by omega)
  rw [natural, show bitField 24 (value : ℤ) = value ↔ value < 2 ^ 23 from bitField_eq_iff 23 value]
  norm_cast

/-- What the accessors read in an entry that decodes to a receive entry. -/
private theorem recvReadBack_decode {memory : ByteMemory} {entry : ℕ} {arrival : Arrival}
    {msgSlot dst : ℕ}
    (decoded : ReceiveIosb.decode memory entry = RecvHandle.recvEntry arrival msgSlot dst) :
    RecvReadBack memory entry arrival msgSlot dst ↔
      bitField 24 arrival.label.toInt = arrival.label.toInt ∧ bitField 16 msgSlot = msgSlot ∧
        bitField 32 arrival.recvOffset = arrival.recvOffset := by
  simp only [ReceiveIosb.decode, RecvHandle.recvEntry, ReceiveIosb.mk.injEq] at decoded
  obtain ⟨status, -, action, -, slot, -, address, -, label, offset, -⟩ := decoded
  change Iosb.action memory entry = RoilAction.receive.toInt at action
  constructor
  · intro readBack
    refine ⟨?_, ?_, ?_⟩
    · have read := readBack.label
      rwa [getMsgLabel, ite_self, label] at read
    · have read := readBack.slot
      rwa [getMsgSlot, if_pos action, slot] at read
    · have read := readBack.offset
      rwa [getMsgOffset, if_pos action, offset] at read
  · rintro ⟨labelFits, slotFits, offsetFits⟩
    have notSend : ¬ Iosb.action memory entry = RoilAction.send.toInt := by
      rw [action]
      decide
    constructor
    · rw [getMsgLabel, ite_self, label, labelFits]
    · rw [getMsgSlot, if_pos action, slot, slotFits]
    · rw [getMsgOffset, if_pos action, offset, offsetFits]
    · rw [getMsgAddress, if_neg notSend, address]
    · rw [getMsgStatus, if_neg notSend, status]
    · exact action

/-- What the accessors read in an entry that decodes to a send entry. -/
private theorem sendReadBack_decode {memory : ByteMemory} {entry : ℕ} {sourceId : NodeId}
    {label : Label}
    {size failCount src : ℕ} {now : RTOSTime}
    (decoded : SendIosb.decode memory entry = sendEntry sourceId label size failCount src now) :
    SendReadBack memory entry label failCount src ↔ bitField 24 label.toInt = label.toInt := by
  simp only [SendIosb.decode, sendEntry, SendIosb.mk.injEq] at decoded
  obtain ⟨status, -, action, address, -, -, -, read⟩ := decoded
  change Iosb.action memory entry = RoilAction.send.toInt at action
  have notReceive : ¬ Iosb.action memory entry = RoilAction.receive.toInt := by
    rw [action]
    decide
  constructor
  · intro readBack
    have back := readBack.label
    rwa [getMsgLabel, ite_self, read] at back
  · intro fits
    constructor
    · rw [getMsgLabel, ite_self, read, fits]
    · rw [getMsgAddress, if_pos action, address]
    · rw [getMsgStatus, if_pos action, status]
    · exact action
    · rw [getMsgSlot, if_neg notReceive]
    · rw [getMsgOffset, if_neg notReceive]

/-- A receive entry reads back iff its label and its slot fit their members. -/
theorem recvReadBack_storeRecvIosb_iff {memory : ByteMemory} {handle : RecvHandle} {base : ℕ}
    {arrival : Arrival} {msgSlot : ℕ} (dst : UInt64) (accepted : handle.data.accepted = true)
    (array : handle.data.iosb = some base) (entries : handle.data.numIosb ≠ 0)
    (label : arrival.label = handle.data.label)
    (offset : arrival.recvOffset ≤ handle.data.bufSize) :
    RecvReadBack (handle.storeRecvIosb memory arrival msgSlot dst.toNat).1
        (iosbEntry base handle.data.iosbIndex) arrival msgSlot dst.toNat ↔
      arrival.label.toInt < 2 ^ 23 ∧ msgSlot < 2 ^ 15 := by
  simp only [OpenReceiveData.accepted, Bool.and_eq_true, Bool.not_eq_true',
    decide_eq_false_iff_not] at accepted
  obtain ⟨⟨⟨⟨valid, -⟩, -⟩, size⟩, -⟩ := accepted
  have offsetFits : bitField 32 arrival.recvOffset = arrival.recvOffset := by
    apply (bitField_eq_iff 31 _).mpr
    simp only [maxLabelSize] at size
    omega
  rw [RecvHandle.storeRecvIosb, array]
  simp only [if_neg entries]
  rw [recvReadBack_decode (decode_recvStores _ _ arrival msgSlot dst), label,
    destinationId_eq_iff valid, bitField_eq_iff 15 msgSlot]
  simp [offsetFits]

/-- A send entry reads back iff its label fits its member. -/
private theorem sendReadBack_storeSendIosb_iff {memory : ByteMemory} {handle : SendHandle} {base : ℕ}
    (sourceId : NodeId) (size failCount : ℕ) (src : UInt64) (now : RTOSTime)
    (accepted : handle.data.accepted = true) (array : handle.data.iosb = some base)
    (entries : handle.data.numIosb ≠ 0) :
    SendReadBack
        (handle.storeSendIosb memory sourceId handle.data.label size failCount src.toNat now).1
        (iosbEntry base handle.data.iosbIndex) handle.data.label failCount src.toNat ↔
      handle.data.label.toInt < 2 ^ 23 := by
  simp only [OpenSendData.accepted, Bool.and_eq_true, Bool.not_eq_true',
    decide_eq_false_iff_not] at accepted
  obtain ⟨⟨⟨valid, -⟩, -⟩, -⟩ := accepted
  rw [SendHandle.storeSendIosb, array]
  simp only [if_neg entries]
  rw [sendReadBack_decode (decode_sendStores _ _ sourceId _ size failCount src now),
    destinationId_eq_iff valid]

/-- For all that an accepted handle admits, the accessors undo the writers exactly for labels below
2^23 and slots below 2^15. -/
theorem iosb_accessors_undo_writers_iff (memory : ByteMemory) :
    (∀ (handle : RecvHandle) (base : ℕ) (arrival : Arrival) (msgSlot : ℕ) (dst : UInt64),
      handle.data.accepted = true → handle.data.iosb = some base →
      handle.data.numIosb ≠ 0 → arrival.label = handle.data.label →
      arrival.buf.length ≤ maxLabelSize → arrival.recvOffset ≤ handle.data.bufSize →
      msgSlot < handle.data.bufSlots →
      (RecvReadBack (handle.storeRecvIosb memory arrival msgSlot dst.toNat).1
          (iosbEntry base handle.data.iosbIndex) arrival msgSlot dst.toNat ↔
        arrival.label.toInt < 2 ^ 23 ∧ msgSlot < 2 ^ 15)) ∧
    (∀ (handle : SendHandle) (base : ℕ) (sourceId : NodeId) (size failCount : ℕ) (src : UInt64)
      (now : RTOSTime), handle.data.accepted = true → handle.data.iosb = some base →
      handle.data.numIosb ≠ 0 → size ≤ maxLabelSize →
      (SendReadBack
          (handle.storeSendIosb memory sourceId handle.data.label size failCount src.toNat now).1
          (iosbEntry base handle.data.iosbIndex) handle.data.label failCount src.toNat ↔
        handle.data.label.toInt < 2 ^ 23)) := by
  constructor
  · intro handle base arrival msgSlot dst accepted array entries label _ offset _
    exact recvReadBack_storeRecvIosb_iff dst accepted array entries label offset
  · intro handle base sourceId size failCount src now accepted array entries _
    exact sendReadBack_storeSendIosb_iff sourceId size failCount src now accepted array entries

/-- A subscriber of a label with one slot and one IOSB. -/
def iosbHandle (label : Label) : RecvHandle :=
  .new 1 (openRecvLabel
    { label := label, buf := some 4096, size := 4, numSlots := 1, auxBuf := none, sem := none,
      iosb := some 8192, numIosb := 1, signalMode := .everyMessage })

/-- A message of the label for its only slot. -/
def iosbArrival (label : Label) : Arrival :=
  { sourceId := 3, label := label, buf := [1, 2, 3, 4], recvOffset := 0, now := ⟨1, 0⟩ }

theorem iosb_accessors_undo_writers_iff_seven :
    RecvReadBack ((iosbHandle 7).storeRecvIosb (fun _ => 0xff) (iosbArrival 7) 0 4096).1
      (iosbEntry 8192 0) (iosbArrival 7) 0 4096 :=
  ((iosb_accessors_undo_writers_iff (fun _ => 0xff)).1 (iosbHandle 7) 8192 (iosbArrival 7) 0 4096
    (by decide) rfl (by decide) rfl (by decide) (by decide) (by decide)).mpr
    ⟨by decide, by decide⟩

/-- An accepted label of 2^23 does not come back. -/
theorem iosb_accessors_lose_label :
    ¬ ∀ (memory : ByteMemory) (handle : RecvHandle) (base : ℕ) (arrival : Arrival) (msgSlot : ℕ)
      (dst : UInt64), handle.data.accepted = true → handle.data.iosb = some base →
      handle.data.numIosb ≠ 0 → arrival.label = handle.data.label →
      arrival.buf.length ≤ maxLabelSize → arrival.recvOffset ≤ handle.data.bufSize →
      msgSlot < handle.data.bufSlots →
      RecvReadBack (handle.storeRecvIosb memory arrival msgSlot dst.toNat).1
        (iosbEntry base handle.data.iosbIndex) arrival msgSlot dst.toNat := by
  intro claim
  have readBack := claim (fun _ => 0) (iosbHandle 8388608) 8192 (iosbArrival 8388608) 0 4096
    (by decide) rfl (by decide) rfl (by decide) (by decide) (by decide)
  have fits := (recvReadBack_storeRecvIosb_iff 4096 (by decide) rfl (by decide) rfl
    (by decide)).mp readBack
  exact absurd fits.1 (by decide)

/-- The time stamp of an entry, read with the record type that its action names. -/
def Iosb.timeStamp (memory : ByteMemory) (iosb : ℕ) : RTOSTime :=
  if Iosb.action memory iosb = RoilAction.send.toInt then (SendIosb.decode memory iosb).timeStamp
  else (ReceiveIosb.decode memory iosb).timeStamp

/-- A receive entry carries the time at which it was written. -/
theorem timeStamp_recvStores (memory : ByteMemory) (address : ℕ) (arrival : Arrival) (msgSlot : ℕ)
    (dst : UInt64) :
    Iosb.timeStamp (storeAll address (recvStores arrival msgSlot dst.toNat) memory) address =
      arrival.now := by
  have decoded := decode_recvStores memory address arrival msgSlot dst
  have action := congrArg ReceiveIosb.action decoded
  simp only [ReceiveIosb.decode, RecvHandle.recvEntry] at action
  change Iosb.action _ address = RoilAction.receive.toInt at action
  rw [Iosb.timeStamp, action, if_neg (by decide), decoded, RecvHandle.recvEntry]

/-- A send entry carries the time at which it was written. -/
theorem timeStamp_sendStores (memory : ByteMemory) (address : ℕ) (sourceId : NodeId) (label : Label)
    (size failCount : ℕ) (src : UInt64) (now : RTOSTime) :
    Iosb.timeStamp
        (storeAll address (sendStores sourceId label size failCount src.toNat now) memory) address =
      now := by
  have decoded := decode_sendStores memory address sourceId label size failCount src now
  have action := congrArg SendIosb.action decoded
  simp only [SendIosb.decode, sendEntry] at action
  change Iosb.action _ address = RoilAction.send.toInt at action
  rw [Iosb.timeStamp, action, if_pos rfl, decoded, sendEntry]

namespace RTOSTime

/-- Microseconds of a time stamp, without wrap-around. -/
def usec (stamp : RTOSTime) : ℕ :=
  stamp.uiMsb.toNat * usecPerSec + stamp.uiLsb.toNat / nsecPerUsec

/-- Chronological order of time stamps. -/
def Before (earlier later : RTOSTime) : Prop :=
  earlier.uiMsb < later.uiMsb ∨ earlier.uiMsb = later.uiMsb ∧ earlier.uiLsb ≤ later.uiLsb

instance (earlier later : RTOSTime) : Decidable (earlier.Before later) :=
  inferInstanceAs (Decidable (_ ∨ _))

/-- Microseconds keep the order of time stamps with less than a second of nanoseconds. -/
private theorem usec_mono {earlier later : RTOSTime} (before : earlier.Before later)
    (nanoseconds : earlier.uiLsb.toNat < 10 ^ 9) : earlier.usec ≤ later.usec := by
  simp only [usec, usecPerSec, nsecPerUsec]
  rcases before with seconds | ⟨seconds, rest⟩
  · have smaller := UInt32.lt_iff_toNat_lt.mp seconds
    omega
  · have smaller := UInt32.le_iff_toNat_le.mp rest
    rw [seconds]
    omega

end RTOSTime

/-- The accessor computes the microseconds of the entry's time stamp with a 32-bit product. -/
private theorem getMsgTimestamp_eq (memory : ByteMemory) (iosb : ℕ) :
    getMsgTimestamp memory (some iosb) =
      wrap32 ((Iosb.timeStamp memory iosb).uiMsb.toNat * usecPerSec) +
        (Iosb.timeStamp memory iosb).uiLsb.toNat / nsecPerUsec := by
  have exact (field : BitField) (word : field.width = 32) :
      (UInt32.ofNat (field.load memory iosb)).toNat = field.load memory iosb := by
    rw [UInt32.toNat_ofNat']
    exact Nat.mod_eq_of_lt (word ▸ field.load_lt memory iosb)
  rw [getMsgTimestamp, Iosb.timeStamp]
  split
  case isTrue =>
    simp only [SendIosb.decode, exact SendIosb.Layout.uiMsb rfl, exact SendIosb.Layout.uiLsb rfl]
  case isFalse =>
    simp only [ReceiveIosb.decode, exact ReceiveIosb.Layout.uiMsb rfl,
      exact ReceiveIosb.Layout.uiLsb rfl]

/-- The accessor is exact for time stamps below 4295 seconds. -/
theorem getMsgTimestamp_eq_usec_iff (memory : ByteMemory) (iosb : ℕ) :
    getMsgTimestamp memory (some iosb) = (Iosb.timeStamp memory iosb).usec ↔
      (Iosb.timeStamp memory iosb).uiMsb.toNat ≤ 4294 := by
  rw [getMsgTimestamp_eq, RTOSTime.usec, Nat.add_right_cancel_iff, wrap32,
    Nat.mod_eq_iff_lt (by decide), usecPerSec]
  omega

/-- Two entries stamped in chronological order have exact and equally ordered microseconds iff the
later stamp is below 4295 seconds. -/
theorem msg_timestamps_ordered_iff (memory : ByteMemory) (earlier later : ℕ)
    (before : (Iosb.timeStamp memory earlier).Before (Iosb.timeStamp memory later))
    (nanoseconds : (Iosb.timeStamp memory earlier).uiLsb.toNat < 10 ^ 9 ∧
      (Iosb.timeStamp memory later).uiLsb.toNat < 10 ^ 9) :
    (getMsgTimestamp memory (some earlier) ≤ getMsgTimestamp memory (some later) ∧
        getMsgTimestamp memory (some earlier) = (Iosb.timeStamp memory earlier).usec ∧
        getMsgTimestamp memory (some later) = (Iosb.timeStamp memory later).usec) ↔
      (Iosb.timeStamp memory later).uiMsb.toNat ≤ 4294 := by
  rw [getMsgTimestamp_eq_usec_iff, getMsgTimestamp_eq_usec_iff]
  constructor
  · rintro ⟨-, -, bounded⟩
    exact bounded
  · intro bounded
    have first : (Iosb.timeStamp memory earlier).uiMsb.toNat ≤ 4294 := by
      rcases before with seconds | ⟨seconds, -⟩
      · have smaller := UInt32.lt_iff_toNat_lt.mp seconds
        omega
      · rwa [seconds]
    refine ⟨?_, first, bounded⟩
    rw [(getMsgTimestamp_eq_usec_iff memory earlier).mpr first,
      (getMsgTimestamp_eq_usec_iff memory later).mpr bounded]
    exact RTOSTime.usec_mono before nanoseconds.1

/-- Two send entries, at 0 and behind it, stamped 3 seconds and `low + 256 * high` seconds. -/
def stampedEntries (low high : UInt8) : ByteMemory := fun address =>
  if address = 60 then 3 else if address = 132 then low else if address = 133 then high else 0

theorem msg_timestamps_ordered_iff_five :
    getMsgTimestamp (stampedEntries 5 0) (some 0) ≤ getMsgTimestamp (stampedEntries 5 0) (some 72) ∧
      getMsgTimestamp (stampedEntries 5 0) (some 0) =
        (Iosb.timeStamp (stampedEntries 5 0) 0).usec ∧
      getMsgTimestamp (stampedEntries 5 0) (some 72) =
        (Iosb.timeStamp (stampedEntries 5 0) 72).usec :=
  (msg_timestamps_ordered_iff (stampedEntries 5 0) 0 72 (by decide) (by decide)).mpr (by decide)

/-- A stamp of 4295 seconds reads as an earlier time than one of 3 seconds. -/
theorem msg_timestamps_wrap :
    ¬ ∀ (memory : ByteMemory) (earlier later : ℕ),
      (Iosb.timeStamp memory earlier).Before (Iosb.timeStamp memory later) →
      (Iosb.timeStamp memory earlier).uiLsb.toNat < 10 ^ 9 ∧
        (Iosb.timeStamp memory later).uiLsb.toNat < 10 ^ 9 →
      getMsgTimestamp memory (some earlier) ≤ getMsgTimestamp memory (some later) ∧
        getMsgTimestamp memory (some earlier) = (Iosb.timeStamp memory earlier).usec ∧
        getMsgTimestamp memory (some later) = (Iosb.timeStamp memory later).usec := by
  intro claim
  have ordered := (claim (stampedEntries 0xc7 0x10) 0 72 (by decide) (by decide)).1
  exact absurd ordered (by decide)

end Eroil
