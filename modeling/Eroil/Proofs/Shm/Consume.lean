import Eroil.Proofs.Shm.Corrupt

/-! # What a successful `recv` has consumed

Payload size, record size, head and block end are checked apart from each other, and the result of
`Shm::read` is printed only. On a block of any content `recv` returns an error or has consumed one
whole record exactly if its scan ends and these agree for the record at which it ends.
-/

namespace Eroil.Shm

open Lib

/-- The record at a position of the scan is one that `recv` accepts into the given buffer. -/
structure ShmBlock.Offers (block : ShmBlock) (maxSize pos : ℕ) : Prop where
  inspected : ∃ n, block.inspected n = some pos
  inside : HeaderInside pos
  committed : block.Committed pos
  valid : ¬ recordInvalid (block.headerAt pos)
  room : (block.headerAt pos).payloadSize ≤ maxSize

/-- The result that `recv` returns for the record at a position. -/
def ShmBlock.dataAt (block : ShmBlock) (pos : ℕ) : ShmRecvData :=
  let header := block.headerAt pos
  ⟨.none, header.sourceId, header.label, header.userSeq, header.payloadSize⟩

/-- The sizes of the record at a position agree with each other, with the head and with the end of
the block. -/
structure RecordSound (block : ShmBlock) (pos : ℕ) : Prop where
  holds : sizeofRecordHeader + (block.headerAt pos).payloadSize ≤ (block.headerAt pos).totalSize
  bounded : (block.headerAt pos).totalSize ≤ block.metaData.headBytes - pos
  inside : getDataOffset pos + (block.headerAt pos).payloadSize ≤ shmBlockSize

/-- A run of `recv` consumed the record at a position as a whole: the sizes of the record agree,
the buffer holds its payload as read in this run, and the tail stays behind the head. -/
structure ConsumesRecord (block : ShmBlock) (buf : ByteMemory) (run : RecvRun) (pos : ℕ) : Prop where
  inspected : ∃ n, block.inspected n = some pos
  committed : block.Committed pos
  data : run.data = block.dataAt pos
  holds : sizeofRecordHeader + run.data.bufSize ≤ (block.headerAt pos).totalSize
  bounded : (block.headerAt pos).totalSize ≤ block.metaData.headBytes - pos
  read : read block.bytes buf run.data.bufSize (getDataOffset pos) = (.none, run.buf)
  payload : run.buf.load 0 run.data.bufSize =
    block.bytes.load (getDataOffset pos) run.data.bufSize
  tail : run.block.metaData.tailBytes = wrap64 (pos + (block.headerAt pos).totalSize)
  ordered : run.block.metaData.tailBytes ≤ run.block.metaData.headBytes

/-- `recv` returns, and if it returns no error it has consumed a whole record. -/
structure RecvConsistent (block : ShmBlock) (buf : ByteMemory) (maxSize : ℕ) : Prop where
  returns : RecvReturns block buf maxSize
  consumes : ∀ fuel run, recv fuel block buf maxSize = .returned run → run.data.code = .none →
    ∃ pos, ConsumesRecord block buf run pos

variable {block : ShmBlock} {buf : ByteMemory} {maxSize pos : ℕ}

/-- A read succeeds exactly inside the block. -/
theorem read_ok_iff (bytes buf : ByteMemory) (size pos : ℕ) :
    (read bytes buf size (getDataOffset pos)).1 = .none ↔
      getDataOffset pos + size ≤ shmBlockSize := by
  have below := Nat.mod_lt pos (show 0 < dataBlockSize by decide)
  rw [dataBlockSize_eq] at below
  simp only [read, getDataOffset, getHeaderOffset, dataBlockOffset_eq, dataBlockSize_eq,
    sizeofRecordHeader, shmBlockSize]
  by_cases large : size > 128 * (1024 * 1024)
  · rw [if_pos large]
    refine ⟨by rintro ⟨⟩, fun small => ?_⟩
    omega
  · rw [if_neg large, wrap64_of_lt (by omega)]
    by_cases outside : 384 + pos % 134217344 + 48 + size > 128 * (1024 * 1024)
    · rw [if_pos outside]
      refine ⟨by rintro ⟨⟩, fun small => ?_⟩
      omega
    · rw [if_neg outside]
      exact ⟨fun _ => Nat.not_lt.mp outside, fun _ => rfl⟩

/-- What a successful read leaves in the buffer. -/
private theorem read_eq_of_ok {bytes buf : ByteMemory} {size offset : ℕ}
    (ok : (read bytes buf size offset).1 = .none) :
    read bytes buf size offset = (.none, buf.store 0 (bytes.load offset size)) := by
  revert ok
  unfold read
  split
  · exact nofun
  · split
    · exact nofun
    · exact fun _ => rfl

/-- `recv` after its scan has stopped at a committed record. -/
theorem readRecord_at (inside : ShmBlock.HeaderInside pos) (stores : List ℕ) :
    readRecord ⟨.found, pos, block.withTail pos, stores⟩ buf maxSize =
      if recordInvalid (block.headerAt pos) then
        .returned ⟨{ code := .blockCorrupted }, block.withTail pos, buf, stores⟩
      else if (block.headerAt pos).payloadSize > maxSize then
        .returned ⟨{ code := .labelTooLarge }, block.withTail pos, buf, stores⟩
      else
        let newTail := wrap64 (pos + (block.headerAt pos).totalSize)
        .returned ⟨block.dataAt pos, block.consumed newTail,
          (read block.bytes buf (block.headerAt pos).payloadSize (getDataOffset pos)).2,
          stores ++ [newTail]⟩ := by
  rw [readRecord, mapToType_usable inside]
  rfl

/-- `recv` returns the record that the block offers. -/
theorem ShmBlock.Offers.recv (offers : block.Offers maxSize pos)
    (ready : block.hdr.state = shmReady) (buf : ByteMemory) :
    ∃ fuel stores, recv fuel block buf maxSize = .returned ⟨block.dataAt pos,
      block.consumed (wrap64 (pos + (block.headerAt pos).totalSize)),
      (read block.bytes buf (block.headerAt pos).payloadSize (getDataOffset pos)).2, stores⟩ := by
  obtain ⟨⟨n, visit⟩, inside, committed, valid, room⟩ := offers
  obtain ⟨stores, reads⟩ :=
    recv_committedAt buf maxSize ready visit inside committed
  refine ⟨n + 1, stores ++ [wrap64 (pos + (block.headerAt pos).totalSize)], ?_⟩
  rw [reads (n + 1) (Nat.lt_succ_self n), readRecord_at inside, if_neg valid,
    if_neg (Nat.not_lt.mpr room)]

/-- A successful `recv` has returned a record that the block offers. -/
private theorem recv_success {fuel : ℕ} {run : RecvRun}
    (returned : recv fuel block buf maxSize = .returned run) (success : run.data.code = .none) :
    block.hdr.state = shmReady ∧ ∃ pos, block.Offers maxSize pos ∧ run.data = block.dataAt pos ∧
      run.block = block.consumed (wrap64 (pos + (block.headerAt pos).totalSize)) ∧
      run.buf = (read block.bytes buf (block.headerAt pos).payloadSize (getDataOffset pos)).2 := by
  by_cases live : block.hdr.state = shmReady ∧ block.metaData.tailBytes < block.metaData.headBytes
  case neg =>
    obtain ⟨idle, failed, always⟩ := recv_idle buf maxSize (show block.hdr.state ≠ shmReady ∨ _ by
      rw [not_and_or, Nat.not_lt] at live
      exact live)
    rw [always fuel] at returned
    cases returned
    exact absurd success failed
  obtain ⟨ready, more⟩ := live
  cases ended : block.inspected fuel with
  | some later =>
    rw [recv_short ready ended le_rfl] at returned
    cases returned
  | none =>
    obtain ⟨n, pos, visit, last⟩ := inspected_last more ended
    have enough : n < fuel := by
      by_contra short
      obtain ⟨_, here⟩ := follow_some_of_le visit (Nat.not_lt.mp short)
      exact absurd (ended.symm.trans here) nofun
    by_cases inside : ShmBlock.HeaderInside pos
    case neg =>
      rw [recv_outside ready visit inside enough] at returned
      cases returned
    by_cases committed : block.Committed pos
    case neg =>
      obtain ⟨other, failed, always⟩ :=
        recv_refused buf maxSize ready visit inside last committed
      rw [always fuel enough] at returned
      cases returned
      exact absurd success failed
    obtain ⟨stores, reads⟩ :=
      recv_committedAt buf maxSize ready visit inside committed
    rw [reads fuel enough, readRecord_at inside] at returned
    by_cases invalid : recordInvalid (block.headerAt pos)
    · rw [if_pos invalid] at returned
      cases returned
      cases success
    by_cases large : (block.headerAt pos).payloadSize > maxSize
    · rw [if_neg invalid, if_pos large] at returned
      cases returned
      cases success
    rw [if_neg invalid, if_neg large] at returned
    have result := RecvOutcome.returned.inj returned
    refine ⟨ready, pos, ⟨⟨n, visit⟩, inside, committed, invalid, Nat.not_lt.mp large⟩, ?_, ?_, ?_⟩
    all_goals rw [← result]

/-- The scan finds one committed record at most. -/
private theorem committed_unique {other : ℕ} (here : ∃ n, block.inspected n = some pos)
    (there : ∃ n, block.inspected n = some other) (first : block.Committed pos)
    (second : block.Committed other) : pos = other := by
  have last {m n a b : ℕ} (visit : block.inspected m = some a) (later : block.inspected n = some b)
      (committed : block.Committed a) : ¬ m < n := by
    intro before
    obtain ⟨next, reached⟩ := follow_some_of_le later before
    obtain ⟨stop, same, link⟩ := follow_succ_eq_some.mp reached
    obtain rfl := Option.some.inj (visit.symm.trans same)
    rw [wrapLink_committed committed] at link
    cases link
  obtain ⟨m, visit⟩ := here
  obtain ⟨n, later⟩ := there
  obtain rfl := Nat.le_antisymm (Nat.not_lt.mp (last later visit second))
    (Nat.not_lt.mp (last visit later first))
  exact Option.some.inj (visit.symm.trans later)

theorem RecvConsistent.recordSound (consistent : RecvConsistent block buf maxSize)
    (ready : block.hdr.state = shmReady) (offers : block.Offers maxSize pos) :
    RecordSound block pos := by
  obtain ⟨fuel, stores, returned⟩ := offers.recv ready buf
  obtain ⟨other, consumes⟩ := consistent.consumes fuel _ returned rfl
  obtain rfl := committed_unique offers.inspected consumes.inspected offers.committed
    consumes.committed
  refine ⟨consumes.holds, consumes.bounded, ?_⟩
  exact (read_ok_iff block.bytes buf _ pos).mp (congrArg Prod.fst consumes.read)

/-- A successful `recv` of a sound record has consumed it as a whole. -/
theorem consumesRecord_of_recordSound
    (sound : block.hdr.state = shmReady → ∀ pos, block.Offers maxSize pos → RecordSound block pos)
    {fuel : ℕ} {run : RecvRun} (returned : recv fuel block buf maxSize = .returned run)
    (success : run.data.code = .none) : ∃ pos, ConsumesRecord block buf run pos := by
  obtain ⟨ready, pos, offers, data, left, copied⟩ := recv_success returned success
  obtain ⟨holds, bounded, inside⟩ := sound ready pos offers
  obtain ⟨n, visit⟩ := offers.inspected
  have below := inspected_lt visit
  have size : run.data.bufSize = (block.headerAt pos).payloadSize := by rw [data]; rfl
  have reads := read_eq_of_ok ((read_ok_iff block.bytes buf _ pos).mpr inside)
  have moved : run.block.metaData.tailBytes = wrap64 (pos + (block.headerAt pos).totalSize) := by
    rw [left]
    rfl
  have head : run.block.metaData.headBytes = block.metaData.headBytes := by
    rw [left, ShmBlock.consumed]
  have word : wrap64 (pos + (block.headerAt pos).totalSize) ≤
    pos + (block.headerAt pos).totalSize := Nat.mod_le _ _
  refine ⟨pos, ⟨n, visit⟩, offers.committed, data, ?_, bounded, ?_, ?_, moved, ?_⟩
  · rw [size]
    exact holds
  · rw [size, copied, reads]
  · have length := ByteMemory.length_load block.bytes (getDataOffset pos)
      (block.headerAt pos).payloadSize
    have same := ByteMemory.load_store_same buf 0
      (block.bytes.load (getDataOffset pos) (block.headerAt pos).payloadSize)
    rw [length] at same
    rw [size, copied, reads, same]
  · have fits : pos + (block.headerAt pos).totalSize ≤ block.metaData.headBytes := by omega
    exact (moved.trans_le word).trans (fits.trans head.ge)

/-- Whatever the block holds, `recv` returns an error or has consumed one whole record, exactly if
its scan comes to an end inside the block and the sizes of a record that it accepts agree with each
other, the head and the end of the block. -/
theorem recv_consistent_iff (block : ShmBlock) (buf : ByteMemory) (maxSize : ℕ) :
    RecvConsistent block buf maxSize ↔
      (block.hdr.state = shmReady →
        WrapsSound block ∧ ∀ pos, block.Offers maxSize pos → RecordSound block pos) := by
  constructor
  · intro consistent ready
    exact ⟨consistent.returns.wrapsSound ready, fun pos offers =>
      consistent.recordSound ready offers⟩
  · intro sound
    exact ⟨recvReturns_of_wrapsSound buf maxSize fun ready => (sound ready).1,
      fun fuel run returned success =>
        consumesRecord_of_recordSound (fun ready => (sound ready).2) returned success⟩

/-- The header of a committed record of given sizes under generation 1. -/
def committedHeader (totalSize payloadSize : ℕ) : RecordHeader :=
  ⟨stateCommitted, magicNum, 0, 0, totalSize, payloadSize, 1, 0, 0⟩

theorem read_committedHeader {bytes : ByteMemory} {offset totalSize payloadSize : ℕ}
    (total : totalSize < 2 ^ 64) (payload : payloadSize < 2 ^ 64) :
    readRecordHeader (storeHeader bytes offset (committedHeader totalSize payloadSize)) offset =
      committedHeader totalSize payloadSize := by
  have magic : magicNum < 2 ^ 32 := by decide
  have state : stateCommitted < 2 ^ 32 := by decide
  have zero : 0 < 2 ^ 32 := by decide
  have epoch : 1 < 2 ^ 64 := by decide
  exact readRecordHeader_storeHeader ⟨magic, zero, zero, total, payload, epoch⟩ state

/-- A committed record of given sizes at the tail of an otherwise empty block. -/
def recordBlock (tail head totalSize payloadSize : ℕ) : ShmBlock :=
  foundBlock tail head
    (storeHeader (fun _ => 0) (getHeaderOffset tail) (committedHeader totalSize payloadSize))

/-- What such a record takes to be accepted, as opposed to being sound. -/
theorem not_recvConsistent {tail head totalSize payloadSize : ℕ} (more : tail < head)
    (inside : ShmBlock.HeaderInside tail)
    (valid : ¬ recordInvalid (committedHeader totalSize payloadSize))
    (room : payloadSize ≤ recvBufSize)
    (unsound : totalSize < 48 + payloadSize ∨ head - tail < totalSize ∨
      shmBlockSize < getDataOffset tail + payloadSize) :
    ¬ RecvConsistent (recordBlock tail head totalSize payloadSize) (fun _ => 0) recvBufSize := by
  intro consistent
  have total : totalSize ≤ dataBlockSize := by
    simp only [recordInvalid, not_or, Nat.not_lt] at valid
    exact valid.2.2.1
  have header : (recordBlock tail head totalSize payloadSize).headerAt tail =
      committedHeader totalSize payloadSize :=
    read_committedHeader (total.trans_lt (by decide)) (room.trans_lt (by decide))
  have offers : (recordBlock tail head totalSize payloadSize).Offers recvBufSize tail := by
    refine ⟨⟨0, firstLink_eq_some.mpr ⟨rfl, more⟩⟩, inside, ?_, ?_, ?_⟩
    · rw [ShmBlock.Committed, ShmBlock.Current, header]
      exact ⟨⟨rfl, rfl⟩, rfl⟩
    · rw [header]
      exact valid
    · rw [header]
      exact room
  obtain ⟨holds, bounded, ends⟩ := consistent.recordSound rfl offers
  rw [header] at holds bounded ends
  simp only [sizeofRecordHeader] at holds
  rcases unsound with short | beyond | outside
  · exact absurd holds (Nat.not_le.mpr short)
  · exact absurd bounded (Nat.not_le.mpr beyond)
  · exact absurd ends (Nat.not_le.mpr outside)

/-- A payload larger than its record, a record that ends behind the head, and a payload behind the
end of the block, where nothing is copied: `recv` reports success for each of them. With a tail in
the last bytes of the block it reports nothing, as it uses a null pointer. -/
theorem recv_inconsistent :
    ¬ RecvConsistent (recordBlock 0 48 48 8) (fun _ => 0) recvBufSize ∧
      ¬ RecvConsistent (recordBlock 0 8 56 8) (fun _ => 0) recvBufSize ∧
      ¬ RecvConsistent (recordBlock (dataBlockSize - 48) (dataBlockSize + 8) 56 8) (fun _ => 0)
        recvBufSize ∧
      ¬ RecvConsistent (foundBlock (dataBlockSize - 8) dataBlockSize fun _ => 0) (fun _ => 0)
        recvBufSize :=
  ⟨not_recvConsistent (by decide) (by decide) (by decide) (by decide) (.inl (by decide)),
    not_recvConsistent (by decide) (by decide) (by decide) (by decide) (.inr (.inl (by decide))),
    not_recvConsistent (by decide) (by decide) (by decide) (by decide) (.inr (.inr (by decide))),
    fun consistent => not_recvReturns_null _ _ consistent.returns⟩

end Eroil.Shm
