import Eroil.Lib.BitFields
import Eroil.Model.Router.SendHandle

/-! # IOSB entries in memory and their accessors

`types/iosb.h`, the stores of `comm/write_iosb.h` and the `get_msg_*` functions of `root.cpp`. An
entry is written as a `SendIosb` or a `ReceiveIosb` and told apart through the common `Iosb` view.
The three records are laid out as on x86-64 Linux; all members that a writer sets are here, those of
value zero included. A null pointer is `none` where it is passed and address 0 where it is returned.
-/

namespace Eroil

open Lib

/-- `iosb::RoilAction`. -/
inductive RoilAction where
  | send
  | receive
deriving DecidableEq

def RoilAction.toInt : RoilAction → ℤ
  | .send => 0x0
  | .receive => 0x1

/-- `iosb::FcHeader`. -/
def FcHeader.members : List Member :=
  [⟨32, 8⟩, ⟨32, 24⟩, ⟨32, 7⟩, ⟨32, 1⟩, ⟨32, 24⟩, ⟨32, 8⟩, ⟨32, 24⟩, ⟨32, 8⟩, ⟨32, 8⟩, ⟨32, 16⟩,
    ⟨32, 16⟩, ⟨32, 16⟩, ⟨32, 32⟩]

namespace FcHeader

def rCtl : BitField := ⟨0, 8⟩
def destinationId : BitField := ⟨8, 24⟩
def priority : BitField := ⟨32, 7⟩
def preemption : BitField := ⟨39, 1⟩
def sourceId : BitField := ⟨40, 24⟩
def dsType : BitField := ⟨64, 8⟩
def fCtl : BitField := ⟨72, 24⟩
def seqId : BitField := ⟨96, 8⟩
def dfCtl : BitField := ⟨104, 8⟩
def seqCnt : BitField := ⟨112, 16⟩
def oxId : BitField := ⟨128, 16⟩
def rxId : BitField := ⟨144, 16⟩
def parameter : BitField := ⟨160, 32⟩

def fields : List BitField :=
  [rCtl, destinationId, priority, preemption, sourceId, dsType, fCtl, seqId, dfCtl, seqCnt, oxId,
    rxId, parameter]

theorem layout_members : layout 0 members = fields := by decide

/-- `FC_Header` is preceded by 32 bytes in all three records. -/
def nested (field : BitField) : BitField := field.nested 256

end FcHeader

/-- `iosb::RTOSTime`, the last member of both entry types. -/
def RTOSTime.members : List Member := [⟨32, 32⟩, ⟨32, 32⟩]

namespace SendIosb.Layout

/-- `iosb::SendIosb`. -/
def members : List Member :=
  [⟨32, 17⟩, ⟨32, 6⟩, ⟨32, 1⟩, ⟨32, 8⟩, ⟨32, 32⟩, ⟨64, 64⟩, ⟨32, 32⟩, ⟨32, 15⟩, ⟨32, 1⟩, ⟨32, 16⟩,
    ⟨32, 32⟩, ⟨32, 32⟩] ++ FcHeader.members ++ [⟨32, 8⟩, ⟨32, 24⟩] ++ RTOSTime.members

def status : BitField := ⟨0, 17⟩
def reserve1 : BitField := ⟨17, 6⟩
def headerValid : BitField := ⟨23, 1⟩
def reserve2 : BitField := ⟨24, 8⟩
def reserve3 : BitField := ⟨32, 32⟩
def pMsgAddr : BitField := ⟨64, 64⟩
def msgSize : BitField := ⟨128, 32⟩
def reserve4 : BitField := ⟨160, 15⟩
def reserve5 : BitField := ⟨175, 1⟩
def reserve6 : BitField := ⟨176, 16⟩
def reserve7 : BitField := ⟨192, 32⟩
def reserve8 : BitField := ⟨224, 32⟩
def reserve9 : BitField := ⟨448, 8⟩
def reserve10 : BitField := ⟨456, 24⟩
def uiMsb : BitField := ⟨480, 32⟩
def uiLsb : BitField := ⟨512, 32⟩

def fields : List BitField :=
  [status, reserve1, headerValid, reserve2, reserve3, pMsgAddr, msgSize, reserve4, reserve5, reserve6,
    reserve7, reserve8] ++ FcHeader.fields.map FcHeader.nested ++ [reserve9, reserve10, uiMsb, uiLsb]

theorem layout_members : layout 0 members = fields := by decide

end SendIosb.Layout

namespace ReceiveIosb.Layout

/-- `iosb::ReceiveIosb`. -/
def members : List Member :=
  [⟨32, 17⟩, ⟨32, 6⟩, ⟨32, 1⟩, ⟨32, 8⟩, ⟨32, 8⟩, ⟨32, 24⟩, ⟨32, 16⟩, ⟨32, 16⟩, ⟨32, 32⟩, ⟨64, 64⟩,
    ⟨32, 32⟩, ⟨32, 32⟩] ++ FcHeader.members ++ [⟨32, 26⟩, ⟨32, 3⟩, ⟨32, 3⟩] ++ RTOSTime.members

def status : BitField := ⟨0, 17⟩
def reserve1 : BitField := ⟨17, 6⟩
def headerValid : BitField := ⟨23, 1⟩
def reserve2 : BitField := ⟨24, 8⟩
def reserve3 : BitField := ⟨32, 8⟩
def msgSize : BitField := ⟨40, 24⟩
def reserve4 : BitField := ⟨64, 16⟩
def messaageSlot : BitField := ⟨80, 16⟩
def reserve5 : BitField := ⟨96, 32⟩
def pMsgAddr : BitField := ⟨128, 64⟩
def reserve6 : BitField := ⟨192, 32⟩
def reserve7 : BitField := ⟨224, 32⟩
def reserve8 : BitField := ⟨448, 26⟩
def eSof : BitField := ⟨474, 3⟩
def eEof : BitField := ⟨477, 3⟩
def uiMsb : BitField := ⟨480, 32⟩
def uiLsb : BitField := ⟨512, 32⟩

def fields : List BitField :=
  [status, reserve1, headerValid, reserve2, reserve3, msgSize, reserve4, messaageSlot, reserve5,
    pMsgAddr, reserve6, reserve7] ++ FcHeader.fields.map FcHeader.nested ++
    [reserve8, eSof, eEof, uiMsb, uiLsb]

theorem layout_members : layout 0 members = fields := by decide

end ReceiveIosb.Layout

namespace Iosb

/-- `iosb::Iosb`. -/
def members : List Member :=
  [⟨32, 17⟩, ⟨32, 6⟩, ⟨32, 1⟩, ⟨32, 8⟩, ⟨32, 32⟩, ⟨32, 32⟩, ⟨32, 32⟩, ⟨64, 64⟩, ⟨32, 32⟩, ⟨32, 32⟩] ++
    FcHeader.members ++ [⟨32, 32⟩, ⟨64, 64⟩]

/-- The one member that the accessors read through this view. -/
def reserve2 : BitField := ⟨24, 8⟩

example : (layout 0 members)[3]? = some reserve2 := by decide

end Iosb

/-- Size in bytes of all three records, which are aligned for their pointer or 64-bit member. -/
def sizeofIosb : ℕ := recordSize 8 (layout 0 Iosb.members)

theorem sizeofIosb_eq : sizeofIosb = 72 := by
  simp [sizeofIosb, recordSize, layout, Member.start, Iosb.members, FcHeader.members]

/-- The two `static_assert`s of `types/iosb.h`. -/
theorem recordSize_eq : recordSize 8 ReceiveIosb.Layout.fields = sizeofIosb ∧
    recordSize 8 SendIosb.Layout.fields = sizeofIosb := ⟨rfl, rfl⟩

section

open ReceiveIosb.Layout

/-- The assignments of `comm::write_recv_iosb` to an entry. -/
def recvStores (arrival : Arrival) (msgSlot dst : ℕ) : List FieldStore :=
  [⟨status, 0⟩, ⟨reserve1, 0⟩, ⟨headerValid, 1⟩, ⟨reserve2, RoilAction.receive.toInt⟩, ⟨reserve3, 0⟩,
    ⟨msgSize, (arrival.buf.length / 4 : ℕ)⟩, ⟨reserve4, 0⟩, ⟨messaageSlot, msgSlot⟩,
    ⟨reserve5, arrival.label.toInt⟩, ⟨pMsgAddr, dst⟩, ⟨reserve6, 0⟩, ⟨reserve7, 0⟩, ⟨reserve8, 0⟩,
    ⟨eSof, 0⟩, ⟨eEof, 0⟩, ⟨uiMsb, arrival.now.uiMsb.toNat⟩, ⟨uiLsb, arrival.now.uiLsb.toNat⟩] ++
  FcHeader.fields.map (fun field => ⟨FcHeader.nested field, 0⟩) ++
  [⟨FcHeader.nested FcHeader.sourceId, arrival.sourceId.toInt⟩,
    ⟨FcHeader.nested FcHeader.destinationId, arrival.label.toInt⟩,
    ⟨FcHeader.nested FcHeader.parameter, arrival.recvOffset⟩]

end

section

open SendIosb.Layout

/-- The assignments of `comm::write_send_iosb` to an entry. -/
def sendStores (sourceId : NodeId) (label : Label) (size failCount srcBufAddr : ℕ) (now : RTOSTime) :
    List FieldStore :=
  [⟨status, if failCount > 0 then -1 else 0⟩, ⟨reserve1, 0⟩, ⟨headerValid, 1⟩,
    ⟨reserve2, RoilAction.send.toInt⟩, ⟨reserve3, 0⟩, ⟨pMsgAddr, srcBufAddr⟩, ⟨msgSize, size⟩,
    ⟨reserve4, 0⟩, ⟨reserve5, 0⟩, ⟨reserve6, 0⟩, ⟨reserve7, 0⟩, ⟨reserve8, 0⟩, ⟨reserve9, 0⟩,
    ⟨reserve10, 0⟩, ⟨uiMsb, now.uiMsb.toNat⟩, ⟨uiLsb, now.uiLsb.toNat⟩] ++
  FcHeader.fields.map (fun field => ⟨FcHeader.nested field, 0⟩) ++
  [⟨FcHeader.nested FcHeader.sourceId, sourceId.toInt⟩,
    ⟨FcHeader.nested FcHeader.destinationId, label.toInt⟩]

end

/-- Address of an entry of the IOSB array at `base`. -/
def iosbEntry (base index : ℕ) : ℕ := base + sizeofIosb * index

/-- `comm::write_recv_iosb` on the bytes of the IOSB array. -/
def RecvHandle.storeRecvIosb (memory : ByteMemory) (handle : RecvHandle) (arrival : Arrival)
    (msgSlot dst : ℕ) : ByteMemory × RecvHandle :=
  match handle.data.iosb with
  | none => (memory, handle)
  | some base =>
      if handle.data.numIosb = 0 then (memory, handle)
      else
        (storeAll (iosbEntry base handle.data.iosbIndex) (recvStores arrival msgSlot dst) memory,
          { handle with data.iosbIndex := (handle.data.iosbIndex + 1) % handle.data.numIosb })

/-- `comm::write_send_iosb` on the bytes of the IOSB array. -/
def SendHandle.storeSendIosb (memory : ByteMemory) (handle : SendHandle) (sourceId : NodeId)
    (label : Label) (size failCount srcBufAddr : ℕ) (now : RTOSTime) : ByteMemory × SendHandle :=
  match handle.data.iosb with
  | none => (memory, handle)
  | some base =>
      if handle.data.numIosb = 0 then (memory, handle)
      else
        (storeAll (iosbEntry base handle.data.iosbIndex)
            (sendStores sourceId label size failCount srcBufAddr now) memory,
          { handle with data.iosbIndex := (handle.data.iosbIndex + 1) % handle.data.numIosb })

/-- What `Reserve2` holds, read through the common view. -/
def Iosb.action (memory : ByteMemory) (iosb : ℕ) : ℤ := Iosb.reserve2.loadSigned memory iosb

section

variable (memory : ByteMemory)

def getMsgLabel : Option ℕ → ℤ
  | none => 0
  | some iosb =>
      if Iosb.action memory iosb = RoilAction.send.toInt then
        (FcHeader.nested FcHeader.destinationId).loadSigned memory iosb
      else (FcHeader.nested FcHeader.destinationId).loadSigned memory iosb

def getMsgStatus : Option ℕ → ℤ
  | none => 0
  | some iosb =>
      if Iosb.action memory iosb = RoilAction.send.toInt then
        SendIosb.Layout.status.loadSigned memory iosb
      else ReceiveIosb.Layout.status.loadSigned memory iosb

def getMsgSize : Option ℕ → ℤ
  | none => 0
  | some iosb =>
      if Iosb.action memory iosb = RoilAction.send.toInt then
        SendIosb.Layout.msgSize.loadSigned memory iosb
      else ReceiveIosb.Layout.msgSize.loadSigned memory iosb

/-- `get_msg_address`; `get_msg_buffer` has the same body. -/
def getMsgAddress : Option ℕ → ℕ
  | none => 0
  | some iosb =>
      if Iosb.action memory iosb = RoilAction.send.toInt then
        SendIosb.Layout.pMsgAddr.load memory iosb
      else ReceiveIosb.Layout.pMsgAddr.load memory iosb

def getMsgOffset : Option ℕ → ℤ
  | none => 0
  | some iosb =>
      if Iosb.action memory iosb = RoilAction.receive.toInt then
        (FcHeader.nested FcHeader.parameter).loadSigned memory iosb
      else 0

def getMsgSlot : Option ℕ → ℤ
  | none => 0
  | some iosb =>
      if Iosb.action memory iosb = RoilAction.receive.toInt then
        ReceiveIosb.Layout.messaageSlot.loadSigned memory iosb
      else 0

def usecPerSec : ℕ := 1000000
def nsecPerUsec : ℕ := 1000

/-- `get_msg_timestamp`, in the integers that are converted to `double` and added there; their sum
is below 2^53, so no conversion rounds. The product is computed in 32 bits. -/
def getMsgTimestamp : Option ℕ → ℕ
  | none => 0
  | some iosb =>
      if Iosb.action memory iosb = RoilAction.send.toInt then
        wrap32 (SendIosb.Layout.uiMsb.load memory iosb * usecPerSec) +
          SendIosb.Layout.uiLsb.load memory iosb / nsecPerUsec
      else
        wrap32 (ReceiveIosb.Layout.uiMsb.load memory iosb * usecPerSec) +
          ReceiveIosb.Layout.uiLsb.load memory iosb / nsecPerUsec

end

end Eroil
