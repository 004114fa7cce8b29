import Eroil.Lib.ByteMemory
import Eroil.Model.Types

/-! # The shared memory block

`shm/shm.h`, `shm/shm.cpp` and `shm/shm_header.h`. A value of `ShmBlock` is the mapped view of an
open `Shm` object of `SHM_BLOCK_SIZE` bytes. The header and meta data fields are kept as words;
the data area stays raw bytes, addressed by block offset, because a reader may interpret as a
record header whatever an earlier lap left there.
-/

namespace Eroil.Shm

open Lib

inductive ShmErr where
  | none | doubleOpen | invalidName | alreadyExists | doesNotExist | fileMapFailed | sizeMismatch
  | notInitialized | unknownError | tooLarge | notOpen | duplicateSendEvent | addSendEventError
  | setRecvEventError | recvFailed | wouldBlock | invalidOffset
deriving DecidableEq, Repr

/-- `ShmState`. -/
def shmIniting : ℕ := 0
def shmReady : ℕ := 1

structure ShmHeader where
  magic : ℕ
  version : ℕ
  state : ℕ
  totalSize : ℕ
deriving DecidableEq, Repr, Inhabited

def sizeofShmHeader : ℕ := 24

structure ShmMetaData where
  nodeId : NodeId
  dataBlockSize : ℕ
  generation : ℕ
  headBytes : ℕ
  tailBytes : ℕ
  publishedCount : ℕ
deriving DecidableEq, Inhabited

/-- Four cache lines for the atomics after the first one. -/
def sizeofShmMetaData : ℕ := 320

/-- `RecordState`. -/
def stateWriting : ℕ := 0
def stateCommitted : ℕ := 1
def stateWrap : ℕ := 2

@[ext] structure RecordHeader where
  state : ℕ
  magic : ℕ
  flags : ℕ
  userSeq : ℕ
  totalSize : ℕ
  payloadSize : ℕ
  epoch : ℕ
  label : Label
  sourceId : NodeId
deriving DecidableEq

def sizeofRecordHeader : ℕ := 48

def alignUp (currSize align : ℕ) : ℕ :=
  wrap64 (currSize + (align - 1)) &&& (2 ^ 64 - 1 - (align - 1))

/-- `ShmLayout`. -/
def hdrOffset : ℕ := 0
def metaDataOffset : ℕ := alignUp sizeofShmHeader 64
def dataBlockOffset : ℕ := alignUp (metaDataOffset + sizeofShmMetaData) 64
def dataBlockSize : ℕ := shmBlockSize - dataBlockOffset
def dataUsableLimit : ℕ := dataBlockSize - sizeofRecordHeader

def getHeaderOffset (posBytes : ℕ) : ℕ := dataBlockOffset + posBytes % dataBlockSize
def getDataOffset (posBytes : ℕ) : ℕ := getHeaderOffset posBytes + sizeofRecordHeader

structure ShmBlock where
  hdr : ShmHeader
  metaData : ShmMetaData
  bytes : ByteMemory

/-- `Shm::map_to_type`: the offset of the mapped object, or nothing for the null pointer. -/
def mapToType (sizeofT offset : ℕ) : Option ℕ :=
  if offset > shmBlockSize then none
  else if sizeofT > shmBlockSize - offset then none
  else some offset

/-- `Shm::read`; a failed read leaves the buffer alone. -/
def read (bytes : ByteMemory) (buf : ByteMemory) (size offset : ℕ) : ShmErr × ByteMemory :=
  if size > shmBlockSize then (.tooLarge, buf)
  else if wrap64 (offset + size) > shmBlockSize then (.invalidOffset, buf)
  else (.none, buf.store 0 (bytes.load offset size))

/-- `Shm::write`; a failed write leaves the block alone. -/
def write (bytes : ByteMemory) (buf : List UInt8) (offset : ℕ) : ShmErr × ByteMemory :=
  if buf.length > shmBlockSize then (.tooLarge, bytes)
  else if wrap64 (offset + buf.length) > shmBlockSize then (.invalidOffset, bytes)
  else (.none, bytes.store offset buf)

/-- Interpret the 48 bytes at a block offset as a record header. -/
def readRecordHeader (bytes : ByteMemory) (offset : ℕ) : RecordHeader where
  state := bytes.loadWord offset 4
  magic := bytes.loadWord (offset + 4) 4
  flags := bytes.loadWord (offset + 8) 4
  userSeq := bytes.loadWord (offset + 12) 4
  totalSize := bytes.loadWord (offset + 16) 8
  payloadSize := bytes.loadWord (offset + 24) 8
  epoch := bytes.loadWord (offset + 32) 8
  label := .ofUInt32 (.ofNat (bytes.loadWord (offset + 40) 4))
  sourceId := .ofUInt32 (.ofNat (bytes.loadWord (offset + 44) 4))

/-- `rec_hdr->state.store`. -/
def storeState (bytes : ByteMemory) (offset state : ℕ) : ByteMemory :=
  bytes.storeWord offset 4 state

/-- The plain field stores between the two state stores, in source order. -/
def storeFields (bytes : ByteMemory) (offset : ℕ) (header : RecordHeader) : ByteMemory :=
  ((((((((bytes.storeWord (offset + 4) 4 header.magic).storeWord (offset + 16) 8 header.totalSize)
    |>.storeWord (offset + 24) 8 header.payloadSize).storeWord (offset + 8) 4 header.flags)
    |>.storeWord (offset + 12) 4 header.userSeq).storeWord (offset + 32) 8 header.epoch)
    |>.storeWord (offset + 40) 4 header.label.toUInt32.toNat)
    |>.storeWord (offset + 44) 4 header.sourceId.toUInt32.toNat)

end Eroil.Shm
