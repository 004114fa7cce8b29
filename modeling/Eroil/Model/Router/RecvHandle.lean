import Eroil.Lib.ByteMemory
import Eroil.Model.Types

/-! # Receive handles and delivery into a subscriber's buffer

`types/handles.h`, `types/iosb.h`, `comm/write_iosb.h`, the loop body of
`Router::distribute_recvd_label` and the handle operations of `root.cpp`. Pointers are addresses of
one flat memory, with `none` for the null pointer; IOSB arrays are typed memory of their own.
Deliveries to one handle are serialised by its mutex, so each operation is one step.
-/

namespace Eroil

open Lib

/-- `iosb::SignalMode`; `to_signal_mode` maps every other integer to `EVERY_MESSAGE`. -/
inductive SignalMode where
  | overwrite
  | bufferFull
  | everyMessage
  | signalAllWriteAll
deriving DecidableEq, Repr

def toSignalMode (s : Int32) : SignalMode :=
  if s = 0 then .overwrite
  else if s = 1 then .bufferFull
  else if s = 2 then .everyMessage
  else if s = 3 then .signalAllWriteAll
  else .everyMessage

structure RTOSTime where
  uiMsb : UInt32
  uiLsb : UInt32
deriving DecidableEq, Inhabited

/-- Value kept by a signed bit field of the given width. -/
def bitField (width : ℕ) (value : ℤ) : ℤ := value.bmod (2 ^ width)

/-- A signed bit field keeps a natural number if it stays below the sign bit. -/
theorem bitField_eq_iff (width value : ℕ) :
    bitField (width + 1) value = value ↔ value < 2 ^ width := by
  have double : 2 ^ (width + 1) = 2 * 2 ^ width := by rw [Nat.pow_succ, Nat.mul_comm]
  rw [bitField, double]
  constructor
  · intro kept
    have below := Int.bmod_lt (x := (value : ℤ)) (m := 2 * 2 ^ width)
      (Nat.mul_pos Nat.two_pos (Nat.two_pow_pos width))
    omega
  · intro small
    exact Int.bmod_eq_of_le_mul_two (by omega) (by omega)

/-- `iosb::ReceiveIosb`, the fields that `write_recv_iosb` sets to something other than zero. -/
structure ReceiveIosb where
  status : ℤ
  headerValid : ℕ
  action : ℤ
  msgSize : ℤ
  messageSlot : ℤ
  label : ℤ
  pMsgAddr : ℕ
  sourceId : ℤ
  destinationId : ℤ
  parameter : ℤ
  timeStamp : RTOSTime
deriving DecidableEq, Inhabited

/-- `hndl::OpenReceiveData`. -/
structure OpenReceiveData where
  label : Label
  buf : Option ℕ
  bufSize : ℕ
  bufSlots : ℕ
  bufIndex : ℕ
  auxBuf : Option ℕ
  sem : Option ℕ
  iosb : Option ℕ
  numIosb : ℕ
  iosbIndex : ℕ
  signalMode : SignalMode
  recvCount : ℕ
deriving DecidableEq

/-- The arguments of `open_recv_label`. -/
structure RecvRequest where
  label : Label
  buf : Option ℕ
  size : ℕ
  numSlots : UInt32
  auxBuf : Option ℕ
  sem : Option ℕ
  iosb : Option ℕ
  numIosb : UInt32
  signalMode : SignalMode
deriving DecidableEq

/-- The data that `open_recv_label` hands to the manager. -/
def openRecvLabel (request : RecvRequest) : OpenReceiveData where
  label := request.label
  buf := request.buf
  bufSize := request.size
  bufSlots := request.numSlots.toNat
  bufIndex := 0
  auxBuf := request.auxBuf
  sem := request.sem
  iosb := request.iosb
  numIosb := request.numIosb.toNat
  iosbIndex := 0
  signalMode := request.signalMode
  recvCount := 0

/-- The checks of `Manager::open_recv`. -/
def OpenReceiveData.accepted (data : OpenReceiveData) : Bool :=
  !(data.label ≤ invalidLabel) && data.buf.isSome && data.bufSize != 0 &&
    !(data.bufSize > maxLabelSize) && data.bufSlots != 0

structure RecvHandle where
  uid : HandleUid
  isIdle : Bool
  data : OpenReceiveData
deriving DecidableEq

/-- What a delivery can change outside the handle: message memory, IOSB arrays and semaphores. -/
structure RecvWorld where
  memory : ByteMemory
  iosbs : ℕ → ReceiveIosb
  semaphores : ℕ → ℕ

namespace RecvWorld

/-- `plat::try_signal_sem`; a null semaphore is ignored. -/
def trySignalSem (world : RecvWorld) (sem : Option ℕ) : RecvWorld :=
  match sem with
  | none => world
  | some id =>
      { world with
        semaphores := fun query =>
          if query = id then world.semaphores id + 1 else world.semaphores query }

end RecvWorld

/-- The arguments of one `distribute_recvd_label` call that reach the subscribers. -/
structure Arrival where
  sourceId : NodeId
  label : Label
  buf : List UInt8
  recvOffset : ℕ
  now : RTOSTime

namespace RecvHandle

/-- The constructor: a new handle is not idle. -/
def new (uid : HandleUid) (data : OpenReceiveData) : RecvHandle := ⟨uid, false, data⟩

/-- `comm::write_recv_iosb`. -/
def writeRecvIosb (world : RecvWorld) (handle : RecvHandle) (arrival : Arrival) (msgSlot dst : ℕ) :
    RecvWorld × RecvHandle :=
  match handle.data.iosb with
  | none => (world, handle)
  | some base =>
      if handle.data.numIosb = 0 then (world, handle)
      else
        let entry : ReceiveIosb :=
          { status := 0
            headerValid := 1
            action := 1
            msgSize := bitField 24 (arrival.buf.length / 4 : ℕ)
            messageSlot := bitField 16 msgSlot
            label := arrival.label.toInt
            pMsgAddr := dst
            sourceId := bitField 24 arrival.sourceId.toInt
            destinationId := bitField 24 arrival.label.toInt
            parameter := bitField 32 arrival.recvOffset
            timeStamp := arrival.now }
        ({ world with
            iosbs := fun query =>
              if query = base + handle.data.iosbIndex then entry else world.iosbs query },
          { handle with data.iosbIndex := (handle.data.iosbIndex + 1) % handle.data.numIosb })

/-- Address of the slot that the next message goes to. -/
def slotAddress (handle : RecvHandle) (base : ℕ) : ℕ :=
  base + handle.data.bufIndex * handle.data.bufSize

/-- Copy the message into the slot at `dst` and move on to the next one. -/
def fillSlot (world : RecvWorld) (handle : RecvHandle) (arrival : Arrival) (dst : ℕ) :
    RecvWorld × RecvHandle :=
  ({ world with memory := world.memory.store (dst + arrival.recvOffset) arrival.buf },
    { handle with
      data.recvCount := wrap32 (handle.data.recvCount + 1)
      data.bufIndex := (handle.data.bufIndex + 1) % handle.data.bufSlots })

/-- The `switch` of `Router::distribute_recvd_label`, which runs under the handle's mutex. -/
def deliverLocked (arrival : Arrival) (world : RecvWorld) (handle : RecvHandle) (base : ℕ) :
    RecvWorld × RecvHandle :=
  let slot := handle.data.bufIndex
  let dst := handle.slotAddress base
  match handle.data.signalMode with
  | .overwrite =>
      let (world, handle) := handle.fillSlot world arrival dst
      handle.writeRecvIosb world arrival slot dst
  | .bufferFull =>
      if handle.data.recvCount = handle.data.bufSlots then
        (world.trySignalSem handle.data.sem, handle)
      else
        let (world, handle) := handle.fillSlot world arrival dst
        if handle.data.recvCount = handle.data.bufSlots then
          let (world, handle) := handle.writeRecvIosb world arrival slot dst
          (world.trySignalSem handle.data.sem, handle)
        else (world, handle)
  | .everyMessage =>
      let (world, handle) :=
        if handle.data.recvCount < handle.data.bufSlots then
          handle.fillSlot world arrival dst
        else (world, handle)
      let (world, handle) := handle.writeRecvIosb world arrival slot dst
      (world.trySignalSem handle.data.sem, handle)
  | .signalAllWriteAll =>
      let (world, handle) := handle.fillSlot world arrival dst
      let (world, handle) := handle.writeRecvIosb world arrival slot dst
      (world.trySignalSem handle.data.sem, handle)

/-- The loop body of `Router::distribute_recvd_label` for one subscriber. -/
def deliver (arrival : Arrival) (world : RecvWorld) (handle : RecvHandle) :
    RecvWorld × RecvHandle :=
  match handle.data.buf with
  | none => (world, handle)
  | some base =>
      if handle.data.bufSlots = 0 then (world, handle)
      else if handle.data.bufSize = 0 then (world, handle)
      else if arrival.recvOffset > handle.data.bufSize then (world, handle)
      else if handle.isIdle then (world, handle)
      else handle.deliverLocked arrival world base

/-- `recv_dismiss`. -/
def recvDismiss (handle : RecvHandle) (count : ℕ) : RecvHandle :=
  if count > handle.data.recvCount then { handle with data.recvCount := 0 }
  else { handle with data.recvCount := handle.data.recvCount - count }

def recvIdle (handle : RecvHandle) : RecvHandle := { handle with isIdle := true }

def recvResume (handle : RecvHandle) : RecvHandle := { handle with isIdle := false }

def recvReset (handle : RecvHandle) : RecvHandle :=
  { handle with data.recvCount := 0, data.bufIndex := 0 }

/-- `recv_redirect` swaps the two buffers if there are two. -/
def recvRedirect (handle : RecvHandle) : RecvHandle :=
  match handle.data.buf, handle.data.auxBuf with
  | some buf, some auxBuf =>
      { handle with
        data.buf := some auxBuf
        data.auxBuf := some buf
        data.bufIndex := 0
        data.recvCount := 0 }
  | _, _ => handle

/-- The calls that the owner of an open handle can make. -/
inductive Call where
  | recvDismiss (count : ℕ)
  | recvReset
  | recvRedirect
  | recvIdle
  | recvResume
deriving DecidableEq

def call (handle : RecvHandle) : Call → RecvHandle
  | .recvDismiss count => handle.recvDismiss count
  | .recvReset => handle.recvReset
  | .recvRedirect => handle.recvRedirect
  | .recvIdle => handle.recvIdle
  | .recvResume => handle.recvResume

/-- What can happen to an open handle. -/
inductive Op where
  | deliver (arrival : Arrival)
  | call (call : Call)

def step (state : RecvWorld × RecvHandle) : Op → RecvWorld × RecvHandle
  | .deliver arrival => state.2.deliver arrival state.1
  | .call call => (state.1, state.2.call call)

end RecvHandle

end Eroil
