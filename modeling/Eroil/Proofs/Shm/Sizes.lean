import Eroil.Proofs.Shm.SendAlone

/-! # Which payload sizes `send` rejects

The size check compares the reservation with the data block, the position check with the usable part
of it, and the rounding before both is 64-bit arithmetic. Between the two limits a message is never
rejected and never sent; at the end of the 64-bit range the reservation wraps around to next to
nothing and the payload is lost without an error.
-/

namespace Eroil.Shm

open Lib

/-- A block that some run of the system leaves, whatever its steps are. -/
def ReachableBlock (block : ShmBlock) : Prop :=
  ∃ id opened first buf semaphore, createOrOpen id opened = (true, first) ∧
    ∃ sys : Sys ℕ, Reaches step (fun _ _ => True) (Sys.initial first buf semaphore) sys ∧
      sys.block = block

/-- In some reachable state the call returns None. -/
def Sendable (message : Message) : Prop :=
  ∃ block, ReachableBlock block ∧ ∃ flags last, Returns message flags block .none last

/-- The payload stands in the block where the call reserved its record. -/
def PayloadCopied (message : Message) (last : ShmBlock) : Prop :=
  ∃ pos, last.metaData.headBytes = wrap64 (pos + message.reserved) ∧
    getDataOffset pos + message.buf.length ≤ shmBlockSize ∧
    last.bytes.load (getDataOffset pos) message.buf.length = message.buf

/-- What is expected of a payload size, in every reachable state and for every message of that size:
it is rejected exactly if it can never be sent, and then head and data area stay as they are;
otherwise a drained ring with the head at its start takes it; and None means that the payload was
copied. -/
structure SizeLaw (n : ℕ) : Prop where
  rejected : ∀ block, ReachableBlock block → ∀ message : Message, message.buf.length = n → ∀ flags,
    (∃ last, Returns message flags block .sizeTooLarge last ∧
      last.metaData.headBytes = block.metaData.headBytes ∧ last.bytes = block.bytes) ↔
      ¬ Sendable message
  accepted : ∀ block, ReachableBlock block → ∀ message : Message, message.buf.length = n →
    Sendable message → block.metaData.tailBytes = block.metaData.headBytes →
    block.metaData.headBytes % dataBlockSize = 0 →
    ∃ last, Returns message noneSpurious block .none last
  copied : ∀ block, ReachableBlock block → ∀ message : Message, message.buf.length = n →
    ∀ flags last, Returns message flags block .none last → PayloadCopied message last

theorem ReachableBlock.ready {block : ShmBlock} (reachable : ReachableBlock block) :
    block.hdr.state = shmReady := by
  obtain ⟨id, opened, first, buf, semaphore, success, sys, run, rfl⟩ := reachable
  exact run.invariant (fun state => state.block.hdr.state = shmReady)
    (createOrOpen_fresh success).ready fun _ action holds _ => Sys.ready_step holds action

/-- A block that was just created. -/
def createdBlock : ShmBlock := (createOrOpen 0 .created).2

theorem createdBlock_reachable : ReachableBlock createdBlock :=
  ⟨0, .created, createdBlock, fun _ => 0, 0, createOrOpen_created 0, _, .refl, rfl⟩

variable {message : Message} {flags : ℕ → Bool} {block last : ShmBlock}

/-! ## The reservation of a size -/

theorem Message.reserved_of_fits (fits : message.buf.length + 55 < 2 ^ 64) :
    message.reserved = (message.buf.length + 55) / 8 * 8 := by
  rw [Message.reserved, wrap64_of_lt (by simp only [sizeofRecordHeader]; omega),
    alignUp_eight (by simp only [sizeofRecordHeader]; omega)]
  simp only [sizeofRecordHeader]

/-- At the end of the 64-bit range the reservation wraps around. -/
private theorem Message.reserved_of_wraps (word : message.buf.length < 2 ^ 64)
    (wraps : 2 ^ 64 ≤ message.buf.length + 55) : message.reserved ≤ 54 := by
  have masked : message.reserved ≤ wrap64 (wrap64 (message.buf.length + 48) + 7) :=
    Nat.and_le_left
  have least : wrap64 (wrap64 (message.buf.length + 48) + 7) ≤ 54 := by
    unfold wrap64
    omega
  exact masked.trans least

/-! ## What a call that runs alone knows -/

/-- The reservation is passed by the size check. -/
def Small (message : Message) : Prop := message.reserved ≤ dataBlockSize

/-- The record at a position ends at or before the usable limit. -/
def Usable (message : Message) (pos : ℕ) : Prop :=
  pos % dataBlockSize + message.reserved ≤ dataUsableLimit

/-- The record at a position is reserved, and its payload is stored if its reservation holds it. -/
structure Written (message : Message) (block : ShmBlock) (pos : ℕ) : Prop where
  head : block.metaData.headBytes = wrap64 (pos + message.reserved)
  usable : Usable message pos
  payload : message.buf.length + 48 ≤ message.reserved →
    block.bytes.load (getDataOffset pos) message.buf.length = message.buf

/-- What is known at each place of a call that was entered on a block. -/
def RunsOn (message : Message) (block base : ShmBlock) : SendPc → Prop
  | .entered => base = block
  | .loadGeneration => base = block
  | .casData _ head _ => Small message ∧ Usable message head
  | .reserved _ head =>
      base.metaData.headBytes = wrap64 (head + message.reserved) ∧ Usable message head
  | .checked _ head =>
      base.metaData.headBytes = wrap64 (head + message.reserved) ∧ Usable message head
  | .marked _ head => base.metaData.headBytes = wrap64 (head + message.reserved) ∧ Usable message head
  | .filled _ head => base.metaData.headBytes = wrap64 (head + message.reserved) ∧ Usable message head
  | .copied _ head => Written message base head
  | .committed _ head => Written message base head
  | .counted _ head => Written message base head
  | .done .none => ∃ head, Written message base head
  | .done .sizeTooLarge => ¬ Small message ∧ base = block
  | .done _ => True
  | _ => Small message

theorem retry_runsOn {base : ShmBlock} (small : Small message) (gen head tries : ℕ) :
    RunsOn message block base (retry gen head tries) := by
  rcases retry_cases gen head tries with loop | stop
  · rw [loop]
    exact small
  · rw [stop]
    trivial

private theorem checkSpace_runsOn {base : ShmBlock} (small : Small message)
    (gen head tail tries : ℕ) :
    RunsOn message block base (checkSpace message gen head tail tries) := by
  unfold checkSpace
  split_ifs with _ _ _ overflow
  · exact small
  · trivial
  · trivial
  · exact small
  · exact ⟨small, Nat.not_lt.mp overflow⟩

/-- Every step keeps what is known. -/
theorem RunsOn.step {base : ShmBlock} {pc : SendPc} (runs : RunsOn message block base pc)
    (spurious : Bool) :
    RunsOn message block (sendStep spurious base message pc).1
      (sendStep spurious base message pc).2 := by
  cases pc with
  | idle => exact runs
  | entered =>
    simp only [sendStep, mapToType_header]
    split
    · trivial
    · exact runs
  | loadGeneration =>
    simp only [sendStep, mapToType_metaData]
    split
    · next large => exact ⟨Nat.not_le.mpr large, runs⟩
    · next fits => exact Nat.not_lt.mp fits
  | loadHead gen => exact retry_runsOn runs gen _ 0
  | loadTail gen head tries => exact checkSpace_runsOn runs gen head _ tries
  | reloadHead gen tries => exact retry_runsOn runs gen _ (tries + 1)
  | casWrap gen head tries =>
    simp only [sendStep]
    split
    · simp only
      split
      · exact retry_runsOn runs ..
      · exact runs
    · exact retry_runsOn runs ..
  | wrapReserved gen head tries => exact runs
  | wrapMarked gen head tries => exact runs
  | wrapFilled gen head tries => exact retry_runsOn runs gen _ (tries + 1)
  | casData gen head tries =>
    simp only [sendStep]
    split
    · exact ⟨rfl, runs.2⟩
    · exact retry_runsOn runs.1 ..
  | reserved gen head =>
    simp only [sendStep]
    split
    · trivial
    · split
      · trivial
      · exact runs
  | checked gen head => exact runs
  | marked gen head => exact runs
  | filled gen head =>
    refine ⟨runs.1, runs.2, fun holds => ?_⟩
    have usable := runs.2
    rw [Usable, dataUsableLimit_eq] at usable
    have stored := write_payload base.bytes message.buf head (by rw [dataBlockSize_eq] at *; omega)
    simp only [sendStep, stored]
    exact ByteMemory.load_store_same ..
  | copied gen head =>
    refine ⟨runs.head, runs.usable, fun holds => ?_⟩
    rw [← runs.payload holds, ByteMemory.length_load]
    refine ByteMemory.load_congr fun query lower _ => storeState_outside _ _ _ _ (.inr ?_)
    simpa only [getDataOffset, sizeofRecordHeader] using lower
  | committed gen head => exact ⟨runs.head, runs.usable, runs.payload⟩
  | counted gen head => exact ⟨head, runs⟩
  | done result => exact runs

theorem runsOn (message : Message) (flags : ℕ → Bool) (block : ShmBlock) (n : ℕ) :
    RunsOn message block (sendRun message flags block n).1 (sendRun message flags block n).2 := by
  induction n with
  | zero => rfl
  | succ n ih => exact ih.step (flags n)

/-- SizeTooLarge means that the size check failed, and that nothing was done. -/
theorem Returns.tooLarge (returns : Returns message flags block .sizeTooLarge last) :
    ¬ Small message ∧ last = block := by
  obtain ⟨n, here⟩ := returns
  have runs := runsOn message flags block n
  rw [here] at runs
  exact runs

/-- None means that the record was written within the usable limit. -/
theorem Returns.written (returns : Returns message flags block .none last) :
    ∃ pos, Written message last pos := by
  obtain ⟨n, here⟩ := returns
  have runs := runsOn message flags block n
  rw [here] at runs
  exact runs

/-- A message whose reservation exceeds the usable limit is never sent. -/
theorem not_sendable (beyond : dataUsableLimit < message.reserved) : ¬ Sendable message := by
  rintro ⟨block, _, flags, last, returns⟩
  obtain ⟨pos, written⟩ := returns.written
  have usable := written.usable
  unfold Usable at usable
  omega

/-- The size check comes before every compare-exchange. -/
private theorem returns_tooLarge (ready : block.hdr.state = shmReady) (large : ¬ Small message) :
    Returns message flags block .sizeTooLarge block := by
  refine ⟨2, ?_⟩
  have checked : sendRun message flags block 1 = (block, .loadGeneration) := by
    simp only [sendRun, sendStep, mapToType_header, ready, ne_eq, not_true_eq_false, ↓reduceIte]
  rw [sendRun, checked]
  simp only [sendStep, mapToType_metaData]
  rw [if_pos (Nat.not_le.mp large)]

/-- A drained ring with the head at the start of the block takes what the usable limit allows. -/
theorem returns_none (ready : block.hdr.state = shmReady)
    (drained : block.metaData.tailBytes = block.metaData.headBytes)
    (start : block.metaData.headBytes % dataBlockSize = 0)
    (fits : message.reserved ≤ dataUsableLimit) :
    ∃ last, Returns message noneSpurious block .none last := by
  have small : message.reserved ≤ dataBlockSize := fits.trans (by decide)
  have searched := stands_checkSpace ready small
  have word : wrap64 message.reserved = message.reserved :=
    wrap64_of_lt (small.trans_lt (by decide))
  unfold checkSpace at searched
  rw [drained, if_neg (lt_irrefl _), Nat.sub_self, Nat.zero_add, word,
    if_neg (Nat.not_lt.mpr small), start, Nat.zero_add, if_neg (Nat.not_lt_zero _),
    if_neg (Nat.not_lt.mpr fits)] at searched
  obtain ⟨n, last, stands⟩ :=
    searched.commit ready rfl rfl (by rw [start]; exact Nat.zero_le _)
  exact ⟨last, n, stands.here⟩

theorem sendable_of_fits (fits : message.reserved ≤ dataUsableLimit) : Sendable message := by
  have fresh := createOrOpen_fresh (createOrOpen_created 0)
  obtain ⟨last, returns⟩ := returns_none fresh.ready (fresh.tail.trans fresh.head.symm)
    (by rw [fresh.head, Nat.zero_mod]) fits
  exact ⟨_, createdBlock_reachable, noneSpurious, last, returns⟩

/-! ## The sizes for which the limits agree -/

/-- A payload that fits the usable part of the block together with its header. -/
private theorem sizeLaw_of_usable {n : ℕ} (usable : n + sizeofRecordHeader ≤ dataUsableLimit) :
    SizeLaw n := by
  have bounds (message : Message) (length : message.buf.length = n) :
      message.reserved ≤ dataUsableLimit ∧ message.buf.length + 48 ≤ message.reserved := by
    rw [dataUsableLimit_eq, sizeofRecordHeader] at usable
    rw [Message.reserved_of_fits (by omega), dataUsableLimit_eq]
    omega
  constructor
  · intro block _ message length flags
    have fits := (bounds message length).1
    refine ⟨?_, fun unsendable => absurd (sendable_of_fits fits) unsendable⟩
    rintro ⟨last, returns, _⟩
    exact absurd (fits.trans (by decide)) returns.tooLarge.1
  · intro block reachable message length _ drained start
    exact returns_none reachable.ready drained start (bounds message length).1
  · intro block _ message length flags last returns
    obtain ⟨pos, head, inside, payload⟩ := returns.written
    obtain ⟨_, holds⟩ := bounds message length
    refine ⟨pos, head, ?_, payload holds⟩
    rw [Usable, dataUsableLimit_eq] at inside
    simp only [getDataOffset, getHeaderOffset, dataBlockOffset_eq, sizeofRecordHeader, shmBlockSize]
    omega

/-- A payload that exceeds the block together with its header, short of the end of the 64-bit
range. -/
private theorem sizeLaw_of_large {n : ℕ} (large : dataBlockSize < n + sizeofRecordHeader)
    (word : n + 55 < 2 ^ 64) : SizeLaw n := by
  have bounds (message : Message) (length : message.buf.length = n) :
      dataBlockSize < message.reserved := by
    rw [dataBlockSize_eq, sizeofRecordHeader] at large
    rw [Message.reserved_of_fits (by omega), dataBlockSize_eq]
    omega
  have unsendable (message : Message) (length : message.buf.length = n) : ¬ Sendable message :=
    not_sendable ((show dataUsableLimit < dataBlockSize by decide).trans (bounds message length))
  constructor
  · intro block reachable message length flags
    refine ⟨fun _ => unsendable message length, fun _ => ?_⟩
    exact ⟨block, returns_tooLarge reachable.ready (Nat.not_le.mpr (bounds message length)), rfl, rfl⟩
  · intro block _ message length sendable
    exact absurd sendable (unsendable message length)
  · intro block reachable message length flags last returns
    exact absurd ⟨block, reachable, flags, last, returns⟩ (unsendable message length)

/-- Between the usable limit and the end of the block a payload is neither rejected nor sendable. -/
theorem not_sizeLaw_between {n : ℕ} (above : dataUsableLimit < n + sizeofRecordHeader)
    (below : n + sizeofRecordHeader ≤ dataBlockSize) : ¬ SizeLaw n := by
  intro law
  let message : Message := ⟨1, 2, 3, List.replicate n 0⟩
  have length : message.buf.length = n := List.length_replicate
  have bounds : dataUsableLimit < message.reserved ∧ message.reserved ≤ dataBlockSize := by
    rw [dataUsableLimit_eq, sizeofRecordHeader] at above
    rw [dataBlockSize_eq, sizeofRecordHeader] at below
    rw [Message.reserved_of_fits (by omega), dataUsableLimit_eq, dataBlockSize_eq, length]
    omega
  obtain ⟨last, returns, _⟩ := (law.rejected _ createdBlock_reachable message length noneSpurious).mpr
    (not_sendable bounds.1)
  exact returns.tooLarge.1 bounds.2

/-- At the end of the 64-bit range a payload is accepted and not copied. -/
theorem not_sizeLaw_wrapped {n : ℕ} (word : n < 2 ^ 64) (wraps : 2 ^ 64 ≤ n + 55) : ¬ SizeLaw n := by
  intro law
  let message : Message := ⟨1, 2, 3, List.replicate n 0⟩
  have length : message.buf.length = n := List.length_replicate
  have fits : message.reserved ≤ dataUsableLimit :=
    (Message.reserved_of_wraps (by omega) (by omega)).trans (by decide)
  obtain ⟨block, reachable, flags, last, returns⟩ := sendable_of_fits fits
  obtain ⟨pos, _, inside, _⟩ := law.copied block reachable message length flags last returns
  rw [length, shmBlockSize] at inside
  omega

/-- For a 64-bit payload size the limits agree exactly if the payload fits the usable part of
the block with its header, or exceeds the block with its header and does not wrap around when
rounded. -/
theorem sizeLaw_iff {n : ℕ} (word : n < 2 ^ 64) :
    SizeLaw n ↔ n + sizeofRecordHeader ≤ dataUsableLimit ∨
      (dataBlockSize < n + sizeofRecordHeader ∧ n + 55 < 2 ^ 64) := by
  constructor
  · intro law
    by_contra neither
    rw [not_or, not_and_or, Nat.not_le, Nat.not_lt, Nat.not_lt] at neither
    obtain ⟨above, below | wraps⟩ := neither
    · exact not_sizeLaw_between above below law
    · exact not_sizeLaw_wrapped word wraps law
  · rintro (usable | ⟨large, short⟩)
    · exact sizeLaw_of_usable usable
    · exact sizeLaw_of_large large short

theorem sizeLaw_iff_three : SizeLaw 3 :=
  (sizeLaw_iff (by decide)).mpr (.inl (by decide))

/-- The largest payload that the size check lets through is never sent, and the largest of all is
reported as sent. -/
theorem sizeLaw_fails : ¬ SizeLaw (dataBlockSize - sizeofRecordHeader) ∧ ¬ SizeLaw (2 ^ 64 - 1) :=
  ⟨not_sizeLaw_between (by decide) (by decide), not_sizeLaw_wrapped (by decide) (by decide)⟩

end Eroil.Shm
