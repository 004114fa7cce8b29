import Eroil.Model.Router.RecvHandle

/-! # Send handles and their completion record

`types/handles.h`, `types/iosb.h` and `comm/write_iosb.h`, the sending side. As for receive handles,
IOSB arrays are typed memory.
-/

namespace Eroil

/-- `iosb::SendIosb`, the fields that `write_send_iosb` sets to something other than zero. -/
structure SendIosb where
  status : ℤ
  headerValid : ℕ
  action : ℤ
  pMsgAddr : ℕ
  msgSize : ℤ
  timeStamp : RTOSTime
  sourceId : ℤ
  destinationId : ℤ
deriving DecidableEq, Inhabited

/-- `hndl::OpenSendData`. -/
structure OpenSendData where
  label : Label
  buf : Option ℕ
  bufSize : ℕ
  isOffset : Bool
  sem : Option ℕ
  iosb : Option ℕ
  numIosb : ℕ
  iosbIndex : ℕ
deriving DecidableEq

/-- The checks of `Manager::open_send`. -/
def OpenSendData.accepted (data : OpenSendData) : Bool :=
  !(data.label ≤ invalidLabel) && data.buf.isSome && data.bufSize != 0 &&
    !(data.bufSize > maxLabelSize)

structure SendHandle where
  uid : HandleUid
  data : OpenSendData
deriving DecidableEq

/-- What completing a send can change outside the handle. -/
structure SendWorld where
  iosbs : ℕ → SendIosb
  semaphores : ℕ → ℕ

namespace SendWorld

/-- `plat::try_signal_sem`; a null semaphore is ignored. -/
def trySignalSem (world : SendWorld) (sem : Option ℕ) : SendWorld :=
  match sem with
  | none => world
  | some id =>
      { world with
        semaphores := fun query =>
          if query = id then world.semaphores id + 1 else world.semaphores query }

end SendWorld

/-- `comm::write_send_iosb`. -/
def SendHandle.writeSendIosb (world : SendWorld) (handle : SendHandle) (sourceId : NodeId)
    (label : Label) (size failCount srcBufAddr : ℕ) (now : RTOSTime) : SendWorld × SendHandle :=
  match handle.data.iosb with
  | none => (world, handle)
  | some base =>
      if handle.data.numIosb = 0 then (world, handle)
      else
        let entry : SendIosb :=
          { status := if failCount > 0 then -1 else 0
            headerValid := 1
            action := 0
            pMsgAddr := srcBufAddr
            msgSize := bitField 32 size
            timeStamp := now
            sourceId := bitField 24 sourceId.toInt
            destinationId := bitField 24 label.toInt }
        ({ world with
            iosbs := fun query =>
              if query = base + handle.data.iosbIndex then entry else world.iosbs query },
          { handle with data.iosbIndex := (handle.data.iosbIndex + 1) % handle.data.numIosb })

end Eroil
