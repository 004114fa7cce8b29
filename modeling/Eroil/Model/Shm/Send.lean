import Eroil.Model.Shm.Block

/-! # `ShmSend::send` as a sequence of atomic steps

`shm/shm_send.cpp`. A call is a program counter over the message it was given. Every load, store
and compare-exchange of the source that another party can observe is one step; the plain stores
of the record header between two state stores are one step, and so is the payload copy.
-/

namespace Eroil.Shm

open Lib

inductive ShmSendErr where
  | none | invalidOffset | blockNotInitialized | blockReinitialized | notEnoughSpace
  | sizeTooLarge | couldNotAllocate | allocatorCorrupted
deriving DecidableEq, Repr

/-- The arguments of one `send` call. -/
structure Message where
  id : NodeId
  label : Label
  seq : UInt32
  buf : List UInt8
deriving DecidableEq, Inhabited

namespace Message

/-- `reserved`, the bytes a call needs for header and payload. -/
def reserved (message : Message) : ℕ :=
  alignUp (wrap64 (message.buf.length + sizeofRecordHeader)) 8

/-- The record header that `send` fills in for its payload. -/
def header (message : Message) (gen state : ℕ) : RecordHeader where
  state := state
  magic := magicNum
  flags := 0
  userSeq := message.seq.toNat
  totalSize := message.reserved
  payloadSize := message.buf.length
  epoch := gen
  label := message.label
  sourceId := message.id

end Message

/-- The header of a wrap record that covers `spaceTilWrap` bytes. -/
def wrapHeader (spaceTilWrap gen state : ℕ) : RecordHeader where
  state := state
  magic := magicNum
  flags := 0
  userSeq := 0
  totalSize := spaceTilWrap
  payloadSize := 0
  epoch := gen
  label := 0
  sourceId := 0

/-- Where a call stands. `gen`, `head` and `tries` are the locals of the source. -/
inductive SendPc where
  | idle
  | entered
  | loadGeneration
  | loadHead (gen : ℕ)
  | loadTail (gen head tries : ℕ)
  | reloadHead (gen tries : ℕ)
  | casWrap (gen head tries : ℕ)
  | wrapReserved (gen head tries : ℕ)
  | wrapMarked (gen head tries : ℕ)
  | wrapFilled (gen head tries : ℕ)
  | casData (gen head tries : ℕ)
  | reserved (gen head : ℕ)
  | checked (gen head : ℕ)
  | marked (gen head : ℕ)
  | filled (gen head : ℕ)
  | copied (gen head : ℕ)
  | committed (gen head : ℕ)
  | counted (gen head : ℕ)
  | done (result : ShmSendErr)
deriving DecidableEq, Repr, Inhabited

/-- Head of the retry loop: `for (int tries = 0; tries < 100; ++tries)`. -/
def retry (gen head tries : ℕ) : SendPc :=
  if tries < 100 then .loadTail gen head tries else .done .couldNotAllocate

/-- `space_til_wrap` at a head position. -/
def spaceTilWrap (head : ℕ) : ℕ := dataBlockSize - head % dataBlockSize

/-- The checks of one loop iteration after the tail has been loaded. -/
def checkSpace (message : Message) (gen head tail tries : ℕ) : SendPc :=
  if head < tail then .reloadHead gen tries
  else if wrap64 ((head - tail) + message.reserved) > dataBlockSize then .done .notEnoughSpace
  else if head % dataBlockSize > dataUsableLimit then .done .allocatorCorrupted
  else if head % dataBlockSize + message.reserved > dataUsableLimit then .casWrap gen head tries
  else .casData gen head tries

/-- The next atomic step of a call. A weak compare-exchange may fail spuriously. -/
def sendStep (spurious : Bool) (block : ShmBlock) (message : Message) : SendPc → ShmBlock × SendPc
  | .idle => (block, .idle)
  | .entered =>
      match mapToType sizeofShmHeader hdrOffset with
      | none => (block, .done .invalidOffset)
      | some _ =>
          if block.hdr.state ≠ shmReady then (block, .done .blockNotInitialized)
          else (block, .loadGeneration)
  | .loadGeneration =>
      match mapToType sizeofShmMetaData metaDataOffset with
      | none => (block, .done .invalidOffset)
      | some _ =>
          if message.reserved > dataBlockSize then (block, .done .sizeTooLarge)
          else (block, .loadHead block.metaData.generation)
  | .loadHead gen => (block, retry gen block.metaData.headBytes 0)
  | .loadTail gen head tries =>
      (block, checkSpace message gen head block.metaData.tailBytes tries)
  | .reloadHead gen tries => (block, retry gen block.metaData.headBytes (tries + 1))
  | .casWrap gen head tries =>
      if block.metaData.headBytes = head ∧ spurious = false then
        ({ block with metaData.headBytes := wrap64 (head + spaceTilWrap head) },
          match mapToType sizeofRecordHeader (getHeaderOffset head) with
          | none => retry gen head (tries + 1)
          | some _ => .wrapReserved gen head tries)
      else (block, retry gen block.metaData.headBytes (tries + 1))
  | .wrapReserved gen head tries =>
      ({ block with bytes := storeState block.bytes (getHeaderOffset head) stateWriting },
        .wrapMarked gen head tries)
  | .wrapMarked gen head tries =>
      let header := wrapHeader (spaceTilWrap head) gen stateWriting
      ({ block with bytes := storeFields block.bytes (getHeaderOffset head) header },
        .wrapFilled gen head tries)
  | .wrapFilled gen head tries =>
      ({ block with bytes := storeState block.bytes (getHeaderOffset head) stateWrap },
        retry gen (wrap64 (head + spaceTilWrap head)) (tries + 1))
  | .casData gen head tries =>
      if block.metaData.headBytes = head ∧ spurious = false then
        ({ block with metaData.headBytes := wrap64 (head + message.reserved) }, .reserved gen head)
      else (block, retry gen block.metaData.headBytes (tries + 1))
  | .reserved gen head =>
      if block.hdr.state ≠ shmReady ∨ block.metaData.generation ≠ gen then
        (block, .done .blockReinitialized)
      else match mapToType sizeofRecordHeader (getHeaderOffset head) with
        | none => (block, .done .invalidOffset)
        | some _ => (block, .checked gen head)
  | .checked gen head =>
      ({ block with bytes := storeState block.bytes (getHeaderOffset head) stateWriting },
        .marked gen head)
  | .marked gen head =>
      let header := message.header gen stateWriting
      ({ block with bytes := storeFields block.bytes (getHeaderOffset head) header },
        .filled gen head)
  | .filled gen head =>
      ({ block with bytes := (write block.bytes message.buf (getDataOffset head)).2 },
        .copied gen head)
  | .copied gen head =>
      ({ block with bytes := storeState block.bytes (getHeaderOffset head) stateCommitted },
        .committed gen head)
  | .committed gen head =>
      ({ block with metaData.publishedCount := wrap64 (block.metaData.publishedCount + 1) },
        .counted gen head)
  | .counted _ _ => (block, .done .none)
  | .done result => (block, .done result)

end Eroil.Shm
