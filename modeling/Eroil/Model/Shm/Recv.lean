import Eroil.Model.Shm.Block

/-! # `ShmRecv`: initialisation, receive and flush

`shm/shm_recv.cpp`. `recv` runs as one call. Its scan loop is not bounded by the source, so the
model takes the number of iterations as fuel and reports when it ran out; `recvFuel` is what a
scan over consistent records needs. The source does not test the header pointer inside the scan
loop: dereferencing the null pointer there is an outcome of its own.
-/

namespace Eroil.Shm

open Lib

inductive ShmRecvErr where
  | none | blockNotInitialized | noRecords | notYetPublished | tailCorruption | blockCorrupted
  | labelTooLarge | unknownError
deriving DecidableEq, Repr

/-- `ShmRecvData` without the pointer to the caller's buffer. -/
structure ShmRecvData where
  code : ShmRecvErr := .none
  sourceId : NodeId := invalidNode
  label : Label := invalidLabel
  userSeq : ℕ := 0
  bufSize : ℕ := 0
deriving DecidableEq

/-- `ShmRecv::init_as_new` on the block of node `id`. The null checks on header and meta data
pointer concern constant offsets inside the block. -/
def initAsNew (id : NodeId) (block : ShmBlock) : Bool × ShmBlock :=
  match mapToType sizeofShmHeader hdrOffset with
  | none => (false, block)
  | some _ =>
      let hdr : ShmHeader := ⟨magicNum, version, shmIniting, shmBlockSize⟩
      match mapToType sizeofShmMetaData metaDataOffset with
      | none => (false, ⟨hdr, ⟨0, 0, 0, 0, 0, 0⟩, fun _ => 0⟩)
      | some _ =>
          (true, ⟨{ hdr with state := shmReady }, ⟨id, dataBlockSize, 1, 0, 0, 0⟩, fun _ => 0⟩)

/-- `ShmRecv::reinit`; the data area keeps its bytes unless the header is mangled. -/
def reinit (id : NodeId) (block : ShmBlock) : Bool × ShmBlock :=
  match mapToType sizeofShmHeader hdrOffset with
  | none => (false, block)
  | some _ =>
      let initing := { block with hdr.state := shmIniting }
      if block.hdr.magic ≠ magicNum ∨ block.hdr.version ≠ version ∨
          block.hdr.totalSize ≠ shmBlockSize then initAsNew id initing
      else match mapToType sizeofShmMetaData metaDataOffset with
        | none => (false, initing)
        | some _ =>
            (true, { initing with
              hdr.state := shmReady
              metaData := ⟨id, dataBlockSize, wrap64 (block.metaData.generation + 1), 0, 0, 0⟩ })

/-- The part of `ShmRecv::create_or_open` after the operating system has answered: a block that
`Shm::create` made is all zero bytes, one that `Shm::open` found holds anything. -/
inductive OpenedBlock where
  | created
  | existing (block : ShmBlock)

def createOrOpen (id : NodeId) : OpenedBlock → Bool × ShmBlock
  | .created => initAsNew id ⟨default, default, fun _ => 0⟩
  | .existing block => reinit id block

/-- `ShmRecv::flush_backlog`. -/
def flushBacklog (block : ShmBlock) : ShmBlock :=
  match mapToType sizeofShmMetaData metaDataOffset with
  | none => block
  | some _ =>
      { block with
        metaData.tailBytes := block.metaData.headBytes
        metaData.publishedCount := 0 }

/-- How the scan loop of `recv` is left. -/
inductive ScanEnd where
  | found
  | notFound
  | error (code : ShmRecvErr)
  | nullPointer
  | outOfFuel
deriving DecidableEq, Repr

/-- Scan result: why the loop was left, the local `tail`, the block, and the values stored to
`tail_bytes` so far. -/
structure Scan where
  stop : ScanEnd
  tail : ℕ
  block : ShmBlock
  tailStores : List ℕ

/-- The checks that `recv` makes on a wrap record before it moves past it. -/
def wrapInvalid (header : RecordHeader) : Prop :=
  header.totalSize < sizeofRecordHeader ∨ header.totalSize &&& 7 ≠ 0 ∨
    header.totalSize > dataBlockSize ∨ header.payloadSize ≠ 0

instance (header : RecordHeader) : Decidable (wrapInvalid header) :=
  inferInstanceAs (Decidable (_ ∨ _ ∨ _ ∨ _))

/-- The checks that `recv` makes on a committed record before it reads it. -/
def recordInvalid (header : RecordHeader) : Prop :=
  header.totalSize < sizeofRecordHeader ∨ header.totalSize &&& 7 ≠ 0 ∨
    header.totalSize > dataBlockSize ∨ header.payloadSize = 0

instance (header : RecordHeader) : Decidable (recordInvalid header) :=
  inferInstanceAs (Decidable (_ ∨ _ ∨ _ ∨ _))

/-- `while (head > tail && !found)`: skip wrap records up to the next committed record. -/
def recvScan (gen : ℕ) : ℕ → ShmBlock → ℕ → ℕ → List ℕ → Scan
  | 0, block, tail, head, stores =>
      ⟨if head > tail then .outOfFuel else .notFound, tail, block, stores⟩
  | fuel + 1, block, tail, head, stores =>
      if head > tail then
        match mapToType sizeofRecordHeader (getHeaderOffset tail) with
        | none => ⟨.nullPointer, tail, block, stores⟩
        | some offset =>
            let header := readRecordHeader block.bytes offset
            if header.state = stateWriting then ⟨.error .notYetPublished, tail, block, stores⟩
            else if header.magic ≠ magicNum then ⟨.error .blockCorrupted, tail, block, stores⟩
            else if header.epoch ≠ gen then
              ⟨.error .noRecords, tail, flushBacklog block, stores ++ [block.metaData.headBytes]⟩
            else if header.state = stateCommitted then ⟨.found, tail, block, stores⟩
            else if header.state = stateWrap then
              if wrapInvalid header then ⟨.error .blockCorrupted, tail, block, stores⟩
              else
                let newTail := wrap64 (tail + header.totalSize)
                recvScan gen fuel { block with metaData.tailBytes := newTail } newTail
                  block.metaData.headBytes (stores ++ [newTail])
            else ⟨.error .unknownError, tail, block, stores⟩
      else ⟨.notFound, tail, block, stores⟩

/-- Everything one `recv` call leaves behind. -/
structure RecvRun where
  data : ShmRecvData
  block : ShmBlock
  buf : ByteMemory
  tailStores : List ℕ

inductive RecvOutcome where
  | returned (run : RecvRun)
  | nullPointer
  | outOfFuel

/-- The part of `recv` after a committed record was found at `scan.tail`. -/
def readRecord (scan : Scan) (buf : ByteMemory) (maxSize : ℕ) : RecvOutcome :=
  match mapToType sizeofRecordHeader (getHeaderOffset scan.tail) with
  | none => .returned ⟨{ code := .blockCorrupted }, scan.block, buf, scan.tailStores⟩
  | some offset =>
      let header := readRecordHeader scan.block.bytes offset
      if recordInvalid header then
        .returned ⟨{ code := .blockCorrupted }, scan.block, buf, scan.tailStores⟩
      else if header.payloadSize > maxSize then
        .returned ⟨{ code := .labelTooLarge }, scan.block, buf, scan.tailStores⟩
      else
        let newTail := wrap64 (scan.tail + header.totalSize)
        .returned
          ⟨⟨.none, header.sourceId, header.label, header.userSeq, header.payloadSize⟩,
            { scan.block with
              metaData.tailBytes := newTail
              metaData.publishedCount :=
                wrap64 (scan.block.metaData.publishedCount + (2 ^ 64 - 1)) },
            (read scan.block.bytes buf header.payloadSize (getDataOffset scan.tail)).2,
            scan.tailStores ++ [newTail]⟩

/-- `ShmRecv::recv` into a buffer of `maxSize` bytes. -/
def recv (fuel : ℕ) (block : ShmBlock) (buf : ByteMemory) (maxSize : ℕ) : RecvOutcome :=
  match mapToType sizeofShmHeader hdrOffset with
  | none => .returned ⟨{ code := .blockCorrupted }, block, buf, []⟩
  | some _ =>
      if block.hdr.state ≠ shmReady then
        .returned ⟨{ code := .blockNotInitialized }, block, buf, []⟩
      else match mapToType sizeofShmMetaData metaDataOffset with
        | none => .returned ⟨{ code := .blockCorrupted }, block, buf, []⟩
        | some _ =>
            let tail := block.metaData.tailBytes
            let head := block.metaData.headBytes
            if head = tail then .returned ⟨{ code := .noRecords }, block, buf, []⟩
            else if head < tail then .returned ⟨{ code := .tailCorruption }, block, buf, []⟩
            else
              let scan := recvScan block.metaData.generation fuel block tail head []
              match scan.stop with
              | .nullPointer => .nullPointer
              | .outOfFuel => .outOfFuel
              | .error code => .returned ⟨{ code := code }, scan.block, buf, scan.tailStores⟩
              | .notFound => .returned ⟨{ code := .noRecords }, scan.block, buf, scan.tailStores⟩
              | .found => readRecord scan buf maxSize

/-- Every record takes at least one byte, so this many iterations reach the head. -/
def recvFuel (block : ShmBlock) : ℕ := block.metaData.headBytes - block.metaData.tailBytes

/-- The buffer of `ShmRecvWorker::run`. -/
def recvBufSize : ℕ := maxLabelSize + sizeofLabelHeader

end Eroil.Shm
