import Eroil.Model.LabelHeader
import Eroil.Model.Send.Job

/-! # The call of the application that sends a label

`Manager::send_label` and the constructor of `io::SendBuf`. The memory of the application is read at
the address of the data; where a call ends without a send buffer it has only printed a message.
-/

namespace Eroil

open Lib

/-- The arguments of `send_label` after the handle; without a buffer the one of the handle is
sent. -/
structure SendRequest where
  buf : Option ℕ
  bufSize : ℕ
  sendOffset : ℕ
  recvOffset : ℕ

namespace SendRequest

/-- `data_buf` and `data_size`. -/
def source (request : SendRequest) (data : OpenSendData) : Option ℕ × ℕ :=
  match request.buf with
  | none => (data.buf, data.bufSize)
  | some buf => (some buf, request.bufSize)

/-- The offsets, which count for an OFFSET handle only. -/
def offsets (request : SendRequest) (data : OpenSendData) : ℕ × ℕ :=
  if !data.isOffset then (0, 0) else (request.sendOffset, request.recvOffset)

end SendRequest

/-- The header that `send_label` attaches. -/
def labelHeader (myId : NodeId) (label : Label) (dataSize recvOffset : ℕ) : LabelHeader where
  magic := magicNum
  version := version
  sourceId := myId
  flags := LabelFlag.data.value
  label := label
  labelSize := wrap32 dataSize
  recvOffset := wrap32 recvOffset

/-- A send buffer after both copies: the header, and the data from `src` on. -/
def SendBuf.filled (hdr : LabelHeader) (memory : ByteMemory) (srcBuf src size : ℕ) : SendBuf where
  dataSrcAddr := srcBuf
  data := hdr.bytes ++ memory.load src size
  dataSize := size
  sized := by
    rw [List.length_append, hdr.length_bytes, ByteMemory.length_load, Nat.add_comm]

/-- The arguments of `ConnectionManager::enqueue_send`. -/
structure Enqueued where
  uid : HandleUid
  label : Label
  sendBuf : SendBuf

/-- `Manager::send_label`, up to its call of `enqueue_send`. -/
def sendLabel (myId : NodeId) (memory : ByteMemory) (handle : Option SendHandle)
    (request : SendRequest) : Option Enqueued :=
  match handle with
  | none => none
  | some handle =>
      let (sendOffset, recvOffset) := request.offsets handle.data
      let (dataBuf, dataSize) := request.source handle.data
      if dataSize ≤ 0 ∨ dataSize ≠ handle.data.bufSize then none
      else
        match dataBuf with
        | none => none
        | some dataBuf =>
            some
              { uid := handle.uid
                label := handle.data.label
                sendBuf := .filled (labelHeader myId handle.data.label dataSize recvOffset) memory
                  dataBuf (dataBuf + sendOffset) dataSize }

end Eroil
