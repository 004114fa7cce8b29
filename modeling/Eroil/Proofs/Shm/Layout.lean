import Eroil.Lib.Ring
import Eroil.Model.Shm.Send
import Eroil.Model.Shm.Recv

/-! # Layout arithmetic and record headers

The constants of `ShmLayout` as numerals, the rounding of `align_up`, and the read-over-write
facts for record headers. A boundary is a position at which a record may start: it is a multiple
of eight and leaves room for a header before the end of the block.
-/

namespace Eroil.Shm

open Lib

theorem dataBlockOffset_eq : dataBlockOffset = 384 := by decide
theorem dataBlockSize_eq : dataBlockSize = 134217344 := by decide
theorem dataUsableLimit_eq : dataUsableLimit = 134217296 := by decide
theorem recvBufSize_eq : recvBufSize = 1048604 := by decide

/-- Rounding up to a multiple of eight, as long as the sum does not wrap. -/
theorem alignUp_eight {value : ℕ} (small : value + 7 < 2 ^ 64) :
    alignUp value 8 = (value + 7) / 8 * 8 := by
  have wrapped : wrap64 (value + (8 - 1)) = value + 7 := wrap64_of_lt small
  rw [alignUp, wrapped]
  apply Nat.eq_of_testBit_eq
  intro index
  have mask : (2 ^ 64 - 1 - (8 - 1) : ℕ) = (2 ^ 61 - 1) <<< 3 := by decide
  have rounded : (value + 7) / 8 * 8 = ((value + 7) >>> 3) <<< 3 := by
    rw [Nat.shiftRight_eq_div_pow, Nat.shiftLeft_eq]
  rw [mask, rounded, Nat.testBit_and, Nat.testBit_shiftLeft, Nat.testBit_shiftLeft,
    Nat.testBit_two_pow_sub_one, Nat.testBit_shiftRight]
  by_cases low : 3 ≤ index
  · have same : 3 + (index - 3) = index := by omega
    rw [same]
    by_cases high : index < 64
    · simp [low, show index - 3 < 61 by omega]
    · have zero : (value + 7).testBit index = false :=
        Nat.testBit_lt_two_pow (lt_of_lt_of_le small (Nat.pow_le_pow_right (by decide) (by omega)))
      simp [zero]
  · simp [low]

/-- Payloads that fit the receive worker's buffer, and are not empty. -/
def Message.InRange (message : Message) : Prop :=
  0 < message.buf.length ∧ message.buf.length ≤ recvBufSize

instance (message : Message) : Decidable message.InRange :=
  inferInstanceAs (Decidable (_ ∧ _))

theorem Message.InRange.reserved {message : Message} (range : message.InRange) :
    message.reserved = (message.buf.length + 55) / 8 * 8 := by
  have upper := range.2
  rw [recvBufSize_eq] at upper
  rw [Message.reserved, wrap64_of_lt (by simp only [sizeofRecordHeader]; omega),
    alignUp_eight (by simp only [sizeofRecordHeader]; omega)]
  simp only [sizeofRecordHeader]

/-- A reservation holds header and payload, is a multiple of eight and fits the usable block. -/
theorem Message.InRange.bounds {message : Message} (range : message.InRange) :
    message.reserved % 8 = 0 ∧ message.buf.length + 48 ≤ message.reserved ∧
      message.reserved ≤ 1048656 := by
  have upper := range.2
  rw [recvBufSize_eq] at upper
  rw [range.reserved]
  omega

/-- Positions at which a record may start. -/
def Boundary (pos : ℕ) : Prop := pos % 8 = 0 ∧ pos % dataBlockSize ≤ dataUsableLimit

theorem mapToType_usable {pos : ℕ} (usable : pos % dataBlockSize ≤ dataUsableLimit) :
    mapToType sizeofRecordHeader (getHeaderOffset pos) = some (getHeaderOffset pos) := by
  rw [dataUsableLimit_eq] at usable
  simp only [getHeaderOffset, dataBlockOffset_eq, mapToType, shmBlockSize, sizeofRecordHeader]
  rw [if_neg (by omega), if_neg (by omega)]

theorem mapToType_boundary {pos : ℕ} (boundary : Boundary pos) :
    mapToType sizeofRecordHeader (getHeaderOffset pos) = some (getHeaderOffset pos) :=
  mapToType_usable boundary.2

theorem mapToType_header : mapToType sizeofShmHeader hdrOffset = some hdrOffset := by decide

theorem mapToType_metaData : mapToType sizeofShmMetaData metaDataOffset = some metaDataOffset := by
  decide

/-- The words of a header fit the fields they are stored in. -/
structure RecordHeader.Fits (header : RecordHeader) : Prop where
  magic : header.magic < 2 ^ 32
  flags : header.flags < 2 ^ 32
  userSeq : header.userSeq < 2 ^ 32
  totalSize : header.totalSize < 2 ^ 64
  payloadSize : header.payloadSize < 2 ^ 64
  epoch : header.epoch < 2 ^ 64

/-- The same 48 bytes read as the same header, wherever they stand. -/
theorem readRecordHeader_shifted {left right : ByteMemory} {offset other : ℕ}
    (agree : ∀ index < 48, left (offset + index) = right (other + index)) :
    readRecordHeader left offset = readRecordHeader right other := by
  have word (start width : ℕ) (inside : start + width ≤ 48) :
      left.loadWord (offset + start) width = right.loadWord (other + start) width := by
    apply ByteMemory.loadWord_shifted
    intro index below
    rw [Nat.add_assoc, Nat.add_assoc]
    exact agree _ (by omega)
  have first := word 0 4 (by decide)
  rw [Nat.add_zero, Nat.add_zero] at first
  simp only [readRecordHeader, first, word 4 4 (by decide), word 8 4 (by decide),
    word 12 4 (by decide), word 16 8 (by decide), word 24 8 (by decide), word 32 8 (by decide),
    word 40 4 (by decide), word 44 4 (by decide)]

/-- Reading a header depends on its 48 bytes only. -/
theorem readRecordHeader_congr {left right : ByteMemory} {offset : ℕ}
    (agree : ∀ query, offset ≤ query → query < offset + 48 → left query = right query) :
    readRecordHeader left offset = readRecordHeader right offset :=
  readRecordHeader_shifted fun index below => agree _ (by omega) (by omega)

/-- A state store changes the state field of its header and nothing else of it. -/
theorem readRecordHeader_storeState (bytes : ByteMemory) (offset state : ℕ)
    (fits : state < 2 ^ 32) :
    readRecordHeader (storeState bytes offset state) offset =
      { readRecordHeader bytes offset with state := state } := by
  simp (disch := omega) only [readRecordHeader, storeState,
    ByteMemory.loadWord_storeWord_disjoint, ByteMemory.loadWord_storeWord_same]

/-- The field stores determine the header up to its state. -/
theorem readRecordHeader_storeFields (bytes : ByteMemory) (offset : ℕ) (header : RecordHeader)
    (fits : header.Fits) :
    readRecordHeader (storeFields bytes offset header) offset =
      { header with state := bytes.loadWord offset 4 } := by
  obtain ⟨magic, flags, userSeq, totalSize, payloadSize, epoch⟩ := fits
  have label := header.label.toUInt32.toNat_lt
  have sourceId := header.sourceId.toUInt32.toNat_lt
  simp (disch := omega) only [readRecordHeader, storeFields,
    ByteMemory.loadWord_storeWord_disjoint, ByteMemory.loadWord_storeWord_same,
    UInt32.ofNat_toNat]

theorem storeState_outside (bytes : ByteMemory) (offset state query : ℕ)
    (outside : query < offset ∨ offset + 48 ≤ query) :
    storeState bytes offset state query = bytes query :=
  ByteMemory.storeWord_outside _ _ _ _ _ (by omega)

theorem storeFields_outside (bytes : ByteMemory) (offset query : ℕ) (header : RecordHeader)
    (outside : query < offset ∨ offset + 48 ≤ query) :
    storeFields bytes offset header query = bytes query := by
  unfold storeFields
  iterate 8 rw [ByteMemory.storeWord_outside _ _ _ _ _ (by omega)]

/-- A payload behind a record header inside the block is always written. -/
theorem write_payload (bytes : ByteMemory) (buf : List UInt8) (pos : ℕ)
    (inside : pos % dataBlockSize + 48 + buf.length ≤ dataBlockSize) :
    write bytes buf (getDataOffset pos) = (.none, bytes.store (getDataOffset pos) buf) := by
  rw [dataBlockSize_eq] at inside
  simp only [write, getDataOffset, getHeaderOffset, dataBlockOffset_eq, dataBlockSize_eq,
    sizeofRecordHeader, shmBlockSize]
  rw [if_neg (by omega), if_neg (by rw [wrap64_of_lt (by omega)]; omega)]

/-- A payload behind a record header inside the block is always read. -/
theorem read_payload (bytes buf : ByteMemory) (size pos : ℕ)
    (inside : pos % dataBlockSize + 48 + size ≤ dataBlockSize) :
    read bytes buf size (getDataOffset pos) =
      (.none, buf.store 0 (bytes.load (getDataOffset pos) size)) := by
  rw [dataBlockSize_eq] at inside
  simp only [read, getDataOffset, getHeaderOffset, dataBlockOffset_eq, dataBlockSize_eq,
    sizeofRecordHeader, shmBlockSize]
  rw [if_neg (by omega), if_neg (by rw [wrap64_of_lt (by omega)]; omega)]

end Eroil.Shm
