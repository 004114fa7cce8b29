import Eroil.Model.Node
import Eroil.Model.Send.Label

/-! # The C and C++ entry points that open and send labels

`api/eroil_c.cpp`, `api/eroil_cpp.cpp` and the functions of `root.cpp` that both call. The C
functions take sizes in words and every count as an `int`; products of an `int` wrap in two's
complement before they are widened to `size_t`.
-/

namespace Eroil

open Lib

/-- `iosb::IoType`. -/
inductive IoType where
  | slot
  | offset
deriving DecidableEq

def IoType.value : IoType → Int32
  | .slot => 1
  | .offset => 2

/-- The conversion of an offset mode in `open_send_label` and `NAE_Open_Send_Label`. -/
def toIoType (offsetMode : Int32) : IoType :=
  if offsetMode = IoType.offset.value then .offset else .slot

/-- The static state of `root.cpp`. -/
structure Library where
  id : NodeId
  initialized : Bool
  manager : Option Node

namespace Library

/-- `is_ready`, with the manager that it guards. -/
def ready? (library : Library) : Option Node :=
  if library.initialized then library.manager else none

/-- The arguments of `eroil::open_send_label`. -/
structure SendOpening where
  label : Label
  buf : Option ℕ
  size : ℕ
  ioType : IoType
  sem : Option ℕ
  iosb : Option ℕ
  numIosb : UInt32
deriving DecidableEq

/-- The data that `open_send_label` hands to the manager. -/
def SendOpening.data (opening : SendOpening) : OpenSendData where
  label := opening.label
  buf := opening.buf
  bufSize := opening.size
  isOffset := opening.ioType == .offset
  sem := opening.sem
  iosb := opening.iosb
  numIosb := opening.numIosb.toNat
  iosbIndex := 0

/-- `eroil::open_send_label`. -/
def openSendLabel (library : Library) (opening : SendOpening) : Library × Option HandleRef :=
  match library.ready? with
  | none => (library, none)
  | some node =>
      let (node, ref) := node.openSend opening.data
      ({ library with manager := some node }, ref)

/-- `eroil::open_recv_label`. -/
def openRecvLabel (library : Library) (request : RecvRequest) : Library × Option HandleRef :=
  match library.ready? with
  | none => (library, none)
  | some node =>
      let (node, ref) := node.openRecv (Eroil.openRecvLabel request)
      ({ library with manager := some node }, ref)

/-- `eroil::send_label`, up to the send buffer that the manager enqueues. -/
def sendLabel (library : Library) (memory : ByteMemory) (handle : Option SendHandle)
    (request : SendRequest) : Option Enqueued :=
  match library.ready? with
  | none => none
  | some _ => Eroil.sendLabel library.id memory handle request

end Library

namespace Cpp

/-- The arguments of `open_send_label` of the C++ API. -/
structure SendOpening where
  label : Int32
  buf : Option ℕ
  size : ℕ
  offsetMode : Int32
  sem : Option ℕ
  iosb : Option ℕ
  numIosb : UInt32

/-- The arguments of `open_recv_label` of the C++ API. -/
structure RecvOpening where
  label : Int32
  buf : Option ℕ
  size : ℕ
  numSlots : UInt32
  auxBuf : Option ℕ
  sem : Option ℕ
  iosb : Option ℕ
  numIosb : UInt32
  signalMode : Int32

def openSendLabel (library : Library) (opening : SendOpening) : Library × Option HandleRef :=
  library.openSendLabel
    { label := opening.label
      buf := opening.buf
      size := opening.size
      ioType := toIoType opening.offsetMode
      sem := opening.sem
      iosb := opening.iosb
      numIosb := opening.numIosb }

def openRecvLabel (library : Library) (opening : RecvOpening) : Library × Option HandleRef :=
  library.openRecvLabel
    { label := opening.label
      buf := opening.buf
      size := opening.size
      numSlots := opening.numSlots
      auxBuf := opening.auxBuf
      sem := opening.sem
      iosb := opening.iosb
      numIosb := opening.numIosb
      signalMode := toSignalMode opening.signalMode }

def sendLabel (library : Library) (memory : ByteMemory) (handle : Option SendHandle)
    (request : SendRequest) : Option Enqueued :=
  library.sendLabel memory handle request

end Cpp

namespace Nae

/-- `static_cast<size_t>` of an `int`. -/
def toSize (value : Int32) : ℕ := (value.toInt % 2 ^ 64).toNat

/-- The buffer size in bytes that the C functions compute from a size in words. -/
def wordBytes (words : Int32) : ℕ := if words > 0 then toSize (words * 4) else 0

/-- A byte offset of `NAE_Send_Label`. -/
def offsetBytes (offset : Int32) : ℕ := if offset > 0 then toSize offset else 0

/-- A number of IOSBs or slots. -/
def count (number : Int32) : UInt32 := if number > 0 then number.toUInt32 else 0

/-- The arguments of `NAE_Open_Send_Label`. -/
structure SendOpening where
  iLabel : Int32
  pSendBuffer : Option ℕ
  iSizeInWords : Int32
  iOffsetMode : Int32
  iSem : Option ℕ
  pIosb : Option ℕ
  iNumIosbs : Int32

/-- The arguments of `NAE_Open_Receive_Label`; the forward label is only printed. -/
structure RecvOpening where
  iLabel : Int32
  pBuffer : Option ℕ
  iNumSlots : Int32
  iSizeInWords : Int32
  pAuxBuffer : Option ℕ
  iSem : Option ℕ
  pIosb : Option ℕ
  iNumIosbs : Int32
  iSignalMode : Int32

/-- The arguments of `NAE_Send_Label` after the handle. -/
structure SendRequest where
  pBuffer : Option ℕ
  iMsgSizeInWords : Int32
  iSendOffsetInBytes : Int32
  iReceiveOffsetInBytes : Int32

/-- `NAE_Open_Send_Label`. -/
def openSendLabel (library : Library) (opening : SendOpening) : Library × Option HandleRef :=
  library.openSendLabel
    { label := opening.iLabel
      buf := opening.pSendBuffer
      size := wordBytes opening.iSizeInWords
      ioType := toIoType opening.iOffsetMode
      sem := opening.iSem
      iosb := opening.pIosb
      numIosb := count opening.iNumIosbs }

/-- `NAE_Open_Receive_Label`. -/
def openReceiveLabel (library : Library) (opening : RecvOpening) : Library × Option HandleRef :=
  library.openRecvLabel
    { label := opening.iLabel
      buf := opening.pBuffer
      size := wordBytes opening.iSizeInWords
      numSlots := count opening.iNumSlots
      auxBuf := opening.pAuxBuffer
      sem := opening.iSem
      iosb := opening.pIosb
      numIosb := count opening.iNumIosbs
      signalMode := toSignalMode opening.iSignalMode }

/-- `NAE_Send_Label`. -/
def sendLabel (library : Library) (memory : ByteMemory) (handle : Option SendHandle)
    (request : SendRequest) : Option Enqueued :=
  library.sendLabel memory handle
    { buf := request.pBuffer
      bufSize := wordBytes request.iMsgSizeInWords
      sendOffset := offsetBytes request.iSendOffsetInBytes
      recvOffset := offsetBytes request.iReceiveOffsetInBytes }

end Nae

end Eroil
