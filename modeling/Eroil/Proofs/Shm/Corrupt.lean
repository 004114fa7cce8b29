import Eroil.Lib.Links
import Eroil.Proofs.Shm.RecvSteps

/-! # `recv` on a block of any content

Nothing is assumed of header, meta data and data area here. The positions that the scan inspects
are the links of the wrap records from `tail_bytes` on; they decide whether `recv` comes to an end
and what it returns.
-/

namespace Eroil.Shm

open Lib

namespace ShmBlock

/-- The bytes at a position of the ring, as a record header. -/
def headerAt (block : ShmBlock) (pos : ℕ) : RecordHeader :=
  readRecordHeader block.bytes (getHeaderOffset pos)

/-- The header at a position ends inside the block. -/
def HeaderInside (pos : ℕ) : Prop := pos % dataBlockSize ≤ dataUsableLimit

instance (pos : ℕ) : Decidable (HeaderInside pos) := inferInstanceAs (Decidable (_ ≤ _))

/-- The record at a position carries magic number and generation of the block. -/
def Current (block : ShmBlock) (pos : ℕ) : Prop :=
  (block.headerAt pos).magic = magicNum ∧ (block.headerAt pos).epoch = block.metaData.generation

instance (block : ShmBlock) (pos : ℕ) : Decidable (block.Current pos) :=
  inferInstanceAs (Decidable (_ ∧ _))

/-- The next position below the head, if an acceptable wrap record leads there. -/
def wrapLink (block : ShmBlock) (pos : ℕ) : Option ℕ :=
  let next := wrap64 (pos + (block.headerAt pos).totalSize)
  if HeaderInside pos ∧ block.Current pos ∧ (block.headerAt pos).state = stateWrap ∧
      ¬ wrapInvalid (block.headerAt pos) ∧ next < block.metaData.headBytes then some next
  else none

/-- The first position that the scan inspects. -/
def firstLink (block : ShmBlock) : Option ℕ :=
  if block.metaData.tailBytes < block.metaData.headBytes then some block.metaData.tailBytes
  else none

/-- The positions that the scan inspects, in order. -/
def inspected (block : ShmBlock) : ℕ → Option ℕ := follow block.wrapLink block.firstLink

end ShmBlock

variable {block : ShmBlock} {pos : ℕ}

private theorem mapToType_outside (outside : ¬ ShmBlock.HeaderInside pos) :
    mapToType sizeofRecordHeader (getHeaderOffset pos) = none := by
  have within := Nat.mod_lt pos (show 0 < dataBlockSize by decide)
  rw [ShmBlock.HeaderInside, dataUsableLimit_eq] at outside
  rw [dataBlockSize_eq] at within outside
  simp only [getHeaderOffset, dataBlockOffset_eq, mapToType, shmBlockSize, sizeofRecordHeader,
    dataBlockSize_eq]
  rw [if_neg (by omega), if_pos (by omega)]

theorem firstLink_eq_some :
    block.firstLink = some pos ↔
      block.metaData.tailBytes = pos ∧ block.metaData.tailBytes < block.metaData.headBytes := by
  rw [ShmBlock.firstLink, Option.ite_none_right_eq_some, Option.some_inj, and_comm]

/-- What it takes for the scan to move on. -/
theorem wrapLink_eq_some {next : ℕ} :
    block.wrapLink pos = some next ↔
      (ShmBlock.HeaderInside pos ∧ block.Current pos ∧ (block.headerAt pos).state = stateWrap ∧
        ¬ wrapInvalid (block.headerAt pos)) ∧
      wrap64 (pos + (block.headerAt pos).totalSize) = next ∧ next < block.metaData.headBytes := by
  simp only [ShmBlock.wrapLink, Option.ite_none_right_eq_some, Option.some_inj, and_assoc]
  constructor
  · rintro ⟨inside, current, state, valid, below, rfl⟩
    exact ⟨inside, current, state, valid, rfl, below⟩
  · rintro ⟨inside, current, state, valid, rfl, below⟩
    exact ⟨inside, current, state, valid, below, rfl⟩

/-- Inspected positions lie below the head. -/
theorem inspected_lt {n : ℕ} (visit : block.inspected n = some pos) :
    pos < block.metaData.headBytes := by
  cases n with
  | zero =>
    obtain ⟨rfl, more⟩ := firstLink_eq_some.mp visit
    exact more
  | succ n =>
    obtain ⟨before, _, link⟩ := follow_succ_eq_some.mp visit
    exact (wrapLink_eq_some.mp link).2.2

/-- One iteration of the scan over an acceptable wrap record. -/
theorem recvScan_over (fuel : ℕ) (stores : List ℕ) (more : pos < block.metaData.headBytes)
    (inside : ShmBlock.HeaderInside pos) (current : block.Current pos)
    (state : (block.headerAt pos).state = stateWrap)
    (valid : ¬ wrapInvalid (block.headerAt pos)) :
    recvScan block.metaData.generation (fuel + 1) (block.withTail pos) pos
        block.metaData.headBytes stores =
      let next := wrap64 (pos + (block.headerAt pos).totalSize)
      recvScan block.metaData.generation fuel (block.withTail next) next
        block.metaData.headBytes (stores ++ [next]) := by
  have header : readRecordHeader (block.withTail pos).bytes (getHeaderOffset pos) =
    block.headerAt pos := rfl
  rw [recvScan, if_pos more, mapToType_usable inside]
  simp only [header, state, current.1, current.2]
  rw [if_neg (by decide), if_neg (fun no => no rfl), if_neg (fun no => no rfl),
    if_neg (by decide), if_pos trivial, if_neg valid]
  rfl

private theorem recvScan_link {next fuel : ℕ} {stores : List ℕ}
    (more : pos < block.metaData.headBytes)
    (link : block.wrapLink pos = some next) :
    recvScan block.metaData.generation (fuel + 1) (block.withTail pos) pos
        block.metaData.headBytes stores =
      recvScan block.metaData.generation fuel (block.withTail next) next
        block.metaData.headBytes (stores ++ [next]) := by
  obtain ⟨⟨inside, current, state, valid⟩, rfl, _⟩ := wrapLink_eq_some.mp link
  exact recvScan_over _ _ more inside current state valid

/-- The scan arrives at every inspected position. -/
theorem recvScan_inspected {n : ℕ} (visit : block.inspected n = some pos) :
    ∃ stores, ∀ fuel,
      recvScan block.metaData.generation (n + fuel) block block.metaData.tailBytes
          block.metaData.headBytes [] =
        recvScan block.metaData.generation fuel (block.withTail pos) pos
          block.metaData.headBytes stores := by
  induction n generalizing pos with
  | zero =>
    obtain ⟨rfl, _⟩ := firstLink_eq_some.mp visit
    exact ⟨[], fun fuel => by rw [Nat.zero_add]; rfl⟩
  | succ n ih =>
    obtain ⟨before, visited, link⟩ := follow_succ_eq_some.mp visit
    obtain ⟨stores, arrives⟩ := ih visited
    refine ⟨stores ++ [pos], fun fuel => ?_⟩
    rw [Nat.add_assoc, Nat.add_comm 1 fuel, arrives, recvScan_link (inspected_lt visited) link]

/-- The scan begins only if something is inspected. -/
theorem tail_lt_of_inspected {n : ℕ} (visit : block.inspected n = some pos) :
    block.metaData.tailBytes < block.metaData.headBytes := by
  obtain ⟨first, begins⟩ := follow_some_of_le visit (Nat.zero_le n)
  exact (firstLink_eq_some.mp begins).2

/-- What `recv` makes of the end of its scan. -/
def Scan.outcome (scan : Scan) (buf : ByteMemory) (maxSize : ℕ) : RecvOutcome :=
  match scan.stop with
  | .nullPointer => .nullPointer
  | .outOfFuel => .outOfFuel
  | .error code => .returned ⟨{ code := code }, scan.block, buf, scan.tailStores⟩
  | .notFound => .returned ⟨{ code := .noRecords }, scan.block, buf, scan.tailStores⟩
  | .found => readRecord scan buf maxSize

/-- The scan ended without a record. -/
def Scan.Refused (scan : Scan) : Prop :=
  scan.stop = .notFound ∨ ∃ code, code ≠ .none ∧ scan.stop = .error code

theorem Scan.Refused.of_error {scan : Scan} {code : ShmRecvErr} (stop : scan.stop = .error code)
    (failed : code ≠ .none := by decide) : scan.Refused := .inr ⟨code, failed, stop⟩

theorem recv_outcome {fuel maxSize : ℕ} {buf : ByteMemory} (ready : block.hdr.state = shmReady)
    (more : block.metaData.tailBytes < block.metaData.headBytes) :
    recv fuel block buf maxSize =
      (recvScan block.metaData.generation fuel block block.metaData.tailBytes
        block.metaData.headBytes []).outcome buf maxSize := by
  have different : block.metaData.headBytes ≠ block.metaData.tailBytes := more.ne'
  rw [recv, mapToType_header]
  simp only [ready, ne_eq, not_true_eq_false, ↓reduceIte, mapToType_metaData, different,
    Nat.not_lt.mpr more.le]
  rfl

theorem Scan.Refused.outcome {scan : Scan} (refused : scan.Refused) (buf : ByteMemory)
    (maxSize : ℕ) :
    ∃ run, scan.outcome buf maxSize = .returned run ∧ run.data.code ≠ .none := by
  rcases refused with notFound | ⟨code, failed, stop⟩
  · refine ⟨_, by rw [Scan.outcome, notFound], ?_⟩
    exact nofun
  · exact ⟨_, by rw [Scan.outcome, stop], failed⟩

/-- A committed record of the present generation stands at a position. -/
def ShmBlock.Committed (block : ShmBlock) (pos : ℕ) : Prop :=
  block.Current pos ∧ (block.headerAt pos).state = stateCommitted

instance (block : ShmBlock) (pos : ℕ) : Decidable (block.Committed pos) :=
  inferInstanceAs (Decidable (_ ∧ _))

/-- A committed record leads nowhere. -/
theorem wrapLink_committed (committed : block.Committed pos) : block.wrapLink pos = none := by
  have notWrap : (block.headerAt pos).state ≠ stateWrap := by
    rw [committed.2]
    decide
  apply Option.eq_none_iff_forall_ne_some.mpr
  intro next link
  exact notWrap (wrapLink_eq_some.mp link).1.2.2.1

/-- Where no link leads on, one more iteration ends the scan: with the record if a committed one
stands there, and with an error or nothing otherwise. -/
theorem recvScan_last (more : pos < block.metaData.headBytes)
    (inside : ShmBlock.HeaderInside pos) (last : block.wrapLink pos = none) (stores : List ℕ) :
    ∃ scan, (∀ fuel, recvScan block.metaData.generation (fuel + 1) (block.withTail pos) pos
        block.metaData.headBytes stores = scan) ∧
      if block.Committed pos then scan = ⟨.found, pos, block.withTail pos, stores⟩
      else scan.Refused := by
  have header : readRecordHeader (block.withTail pos).bytes (getHeaderOffset pos) =
    block.headerAt pos := rfl
  have head : (block.withTail pos).metaData.headBytes = block.metaData.headBytes := rfl
  simp only [recvScan, if_pos more, mapToType_usable inside, header, head]
  by_cases writing : (block.headerAt pos).state = stateWriting
  · refine ⟨_, fun fuel => if_pos writing, ?_⟩
    have other : ¬ block.Committed pos := by
      rintro ⟨-, state⟩
      rw [writing] at state
      cases state
    rw [if_neg other]
    exact .of_error rfl
  simp only [if_neg writing]
  by_cases magic : (block.headerAt pos).magic = magicNum
  case neg =>
    refine ⟨_, fun fuel => if_pos magic, ?_⟩
    rw [if_neg fun committed => magic committed.1.1]
    exact .of_error rfl
  simp only [magic, ne_eq, not_true_eq_false, ↓reduceIte]
  by_cases epoch : (block.headerAt pos).epoch = block.metaData.generation
  case neg =>
    refine ⟨_, fun fuel => if_pos epoch, ?_⟩
    rw [if_neg fun committed => epoch committed.1.2]
    exact .of_error rfl
  simp only [epoch, not_true_eq_false, ↓reduceIte]
  by_cases committed : (block.headerAt pos).state = stateCommitted
  · refine ⟨_, fun fuel => if_pos committed, ?_⟩
    rw [if_pos ⟨⟨magic, epoch⟩, committed⟩]
  simp only [if_neg committed]
  have other : ¬ block.Committed pos := fun all => committed all.2
  by_cases wrap : (block.headerAt pos).state = stateWrap
  case neg =>
    refine ⟨_, fun fuel => if_neg wrap, ?_⟩
    rw [if_neg other]
    exact .of_error rfl
  simp only [wrap, ↓reduceIte]
  by_cases invalid : wrapInvalid (block.headerAt pos)
  · refine ⟨_, fun fuel => if_pos invalid, ?_⟩
    rw [if_neg other]
    exact .of_error rfl
  have beyond : block.metaData.headBytes ≤ wrap64 (pos + (block.headerAt pos).totalSize) := by
    by_contra below
    rw [wrapLink_eq_some.mpr ⟨⟨inside, ⟨magic, epoch⟩, wrap, invalid⟩, rfl, Nat.not_le.mp below⟩]
      at last
    cases last
  simp only [if_neg invalid]
  refine ⟨_, fun fuel => recvScan_drained beyond, ?_⟩
  rw [if_neg other]
  exact .inl rfl

/-- A position whose header does not end inside the block is dereferenced as a null pointer. -/
private theorem recvScan_outside {fuel : ℕ} {stores : List ℕ} (more : pos < block.metaData.headBytes)
    (outside : ¬ ShmBlock.HeaderInside pos) :
    recvScan block.metaData.generation (fuel + 1) (block.withTail pos) pos
        block.metaData.headBytes stores = ⟨.nullPointer, pos, block.withTail pos, stores⟩ := by
  rw [recvScan, if_pos more, mapToType_outside outside]

section Recv

variable {buf : ByteMemory} {maxSize n fuel : ℕ} (ready : block.hdr.state = shmReady)
  (visit : block.inspected n = some pos)

include ready visit

/-- Fewer iterations than there are inspected positions do not end the scan. -/
theorem recv_short (short : fuel ≤ n) : recv fuel block buf maxSize = .outOfFuel := by
  obtain ⟨stop, here⟩ := follow_some_of_le visit short
  obtain ⟨stores, arrives⟩ := recvScan_inspected here
  have scan := arrives 0
  rw [Nat.add_zero, recvScan, if_pos (inspected_lt here)] at scan
  rw [recv_outcome ready (tail_lt_of_inspected visit), scan]
  rfl

/-- The null pointer is used for a header that does not end inside the block. -/
theorem recv_outside (outside : ¬ ShmBlock.HeaderInside pos) (enough : n < fuel) :
    recv fuel block buf maxSize = .nullPointer := by
  obtain ⟨stores, arrives⟩ := recvScan_inspected visit
  have scan := arrives (fuel - n - 1 + 1)
  rw [recvScan_outside (inspected_lt visit) outside, show n + (fuel - n - 1 + 1) = fuel by omega]
    at scan
  rw [recv_outcome ready (tail_lt_of_inspected visit), scan]
  rfl

variable (buf maxSize) in
/-- Without a committed record at the last position, `recv` returns an error. -/
theorem recv_refused (inside : ShmBlock.HeaderInside pos) (last : block.wrapLink pos = none)
    (other : ¬ block.Committed pos) :
    ∃ run, run.data.code ≠ .none ∧ ∀ fuel, n < fuel →
      recv fuel block buf maxSize = .returned run := by
  obtain ⟨stores, arrives⟩ := recvScan_inspected visit
  obtain ⟨scan, ends, refused⟩ := recvScan_last (inspected_lt visit) inside last stores
  rw [if_neg other] at refused
  obtain ⟨run, outcome, failed⟩ := refused.outcome buf maxSize
  refine ⟨run, failed, fun fuel enough => ?_⟩
  have whole := arrives (fuel - n - 1 + 1)
  rw [ends, show n + (fuel - n - 1 + 1) = fuel by omega] at whole
  rw [recv_outcome ready (tail_lt_of_inspected visit), whole, outcome]

variable (buf maxSize) in
/-- With a committed record at an inspected position, `recv` goes on to read it. -/
theorem recv_committedAt (inside : ShmBlock.HeaderInside pos) (committed : block.Committed pos) :
    ∃ stores, ∀ fuel, n < fuel →
      recv fuel block buf maxSize =
        readRecord ⟨.found, pos, block.withTail pos, stores⟩ buf maxSize := by
  obtain ⟨stores, arrives⟩ := recvScan_inspected visit
  obtain ⟨scan, ends, found⟩ :=
    recvScan_last (inspected_lt visit) inside (wrapLink_committed committed) stores
  rw [if_pos committed] at found
  refine ⟨stores, fun fuel enough => ?_⟩
  have whole := arrives (fuel - n - 1 + 1)
  rw [ends, found, show n + (fuel - n - 1 + 1) = fuel by omega] at whole
  rw [recv_outcome ready (tail_lt_of_inspected visit), whole]
  rfl

end Recv

/-- Nothing is inspected on a block that is not ready or holds no records. -/
theorem recv_idle (buf : ByteMemory) (maxSize : ℕ)
    (idle : block.hdr.state ≠ shmReady ∨ block.metaData.headBytes ≤ block.metaData.tailBytes) :
    ∃ run, run.data.code ≠ .none ∧ ∀ fuel, recv fuel block buf maxSize = .returned run := by
  simp only [recv, mapToType_header, mapToType_metaData]
  by_cases ready : block.hdr.state = shmReady
  case neg =>
    refine ⟨_, ?_, fun _ => if_pos ready⟩
    rintro ⟨⟩
  have ended := idle.resolve_left (not_not_intro ready)
  simp only [ready, ne_eq, not_true_eq_false, ↓reduceIte]
  by_cases empty : block.metaData.headBytes = block.metaData.tailBytes
  · refine ⟨_, ?_, fun _ => if_pos empty⟩
    rintro ⟨⟩
  · simp only [empty, lt_of_le_of_ne ended empty, ↓reduceIte]
    refine ⟨_, ?_, fun _ => rfl⟩
    rintro ⟨⟩

/-- The links of wrap records that begin and come to an end do so at a last position. -/
theorem inspected_last {n : ℕ} (more : block.metaData.tailBytes < block.metaData.headBytes)
    (ended : block.inspected n = none) :
    ∃ m pos, block.inspected m = some pos ∧ block.wrapLink pos = none :=
  exists_last (firstLink_eq_some.mpr ⟨rfl, more⟩) ended

private theorem readRecord_returned (scan : Scan) (buf : ByteMemory) (maxSize : ℕ) :
    ∃ run, readRecord scan buf maxSize = .returned run := by
  unfold readRecord
  split
  · exact ⟨_, rfl⟩
  · simp only
    split_ifs <;> exact ⟨_, rfl⟩

/-! ## When `recv` comes to an end -/

/-- `recv` returns without having used a null pointer, given enough iterations. -/
def RecvReturns (block : ShmBlock) (buf : ByteMemory) (maxSize : ℕ) : Prop :=
  ∃ least run, ∀ fuel ≥ least, recv fuel block buf maxSize = .returned run

/-- Every header that the scan inspects lies inside the block, and none is inspected twice. -/
structure WrapsSound (block : ShmBlock) : Prop where
  inside : ∀ n pos, block.inspected n = some pos → ShmBlock.HeaderInside pos
  fresh : NeverRepeats block.wrapLink block.firstLink

/-- Positions behind a wrap record are 64-bit words. -/
private theorem inspected_word {n : ℕ} (visit : block.inspected (n + 1) = some pos) :
    pos < 2 ^ 64 := by
  obtain ⟨_, _, link⟩ := follow_succ_eq_some.mp visit
  obtain ⟨_, rfl, _⟩ := wrapLink_eq_some.mp link
  exact Nat.mod_lt _ (by decide)

theorem RecvReturns.wrapsSound {buf : ByteMemory} {maxSize : ℕ}
    (returns : RecvReturns block buf maxSize) (ready : block.hdr.state = shmReady) :
    WrapsSound block := by
  obtain ⟨least, run, returned⟩ := returns
  constructor
  · intro n pos visit
    by_contra outside
    have result := returned (least + n + 1) (by omega)
    rw [recv_outside ready visit outside (by omega)] at result
    cases result
  · cases ended : block.inspected least with
    | none => exact neverRepeats_of_ends ended
    | some pos =>
      have result := returned least le_rfl
      rw [recv_short ready ended le_rfl] at result
      cases result

theorem WrapsSound.recvReturns (sound : WrapsSound block) (buf : ByteMemory) (maxSize : ℕ)
    (ready : block.hdr.state = shmReady) : RecvReturns block buf maxSize := by
  by_cases more : block.metaData.tailBytes < block.metaData.headBytes
  case neg =>
    obtain ⟨run, _, returned⟩ := recv_idle buf maxSize (.inr (Nat.not_lt.mp more))
    exact ⟨0, run, fun fuel _ => returned fuel⟩
  obtain ⟨n, ended⟩ :=
    ends_of_neverRepeats (Set.finite_lt_nat _) (fun _ _ => inspected_word) sound.fresh
  obtain ⟨m, pos, visit, last⟩ := inspected_last more ended
  have inside := sound.inside m pos visit
  by_cases committed : block.Committed pos
  · obtain ⟨stores, reads⟩ :=
      recv_committedAt buf maxSize ready visit inside committed
    obtain ⟨run, returned⟩ :=
      readRecord_returned ⟨.found, pos, block.withTail pos, stores⟩ buf maxSize
    exact ⟨m + 1, run, fun fuel enough => (reads fuel enough).trans returned⟩
  · obtain ⟨run, _, returned⟩ := recv_refused buf maxSize ready visit inside last committed
    exact ⟨m + 1, run, returned⟩

theorem recvReturns_of_wrapsSound (buf : ByteMemory) (maxSize : ℕ)
    (sound : block.hdr.state = shmReady → WrapsSound block) : RecvReturns block buf maxSize := by
  by_cases ready : block.hdr.state = shmReady
  · exact (sound ready).recvReturns buf maxSize ready
  · obtain ⟨run, _, returned⟩ := recv_idle buf maxSize (.inl ready)
    exact ⟨0, run, fun fuel _ => returned fuel⟩

/-- On a block of any content, `recv` comes to an end without a null pointer exactly if the wrap
records from `tail_bytes` on keep their headers inside the block and do not lead in a circle. -/
theorem recv_returns_iff (block : ShmBlock) (buf : ByteMemory) (maxSize : ℕ) :
    RecvReturns block buf maxSize ↔ (block.hdr.state = shmReady → WrapsSound block) :=
  ⟨fun returns ready => returns.wrapsSound ready, recvReturns_of_wrapsSound buf maxSize⟩

/-- A block of the right layout as `recv` may find it, with given positions and bytes. -/
def foundBlock (tail head : ℕ) (bytes : ByteMemory) : ShmBlock where
  hdr := ⟨magicNum, version, shmReady, shmBlockSize⟩
  metaData := ⟨0, dataBlockSize, 1, head, tail, 0⟩
  bytes := bytes

/-- A record header is stored at an offset. -/
def storeHeader (bytes : ByteMemory) (offset : ℕ) (header : RecordHeader) : ByteMemory :=
  storeState (storeFields bytes offset header) offset header.state

theorem readRecordHeader_storeHeader {bytes : ByteMemory} {offset : ℕ} {header : RecordHeader}
    (fits : header.Fits) (state : header.state < 2 ^ 32) :
    readRecordHeader (storeHeader bytes offset header) offset = header := by
  rw [storeHeader, readRecordHeader_storeState _ _ _ state, readRecordHeader_storeFields _ _ _ fits]

/-- A header elsewhere is not changed. -/
theorem readRecordHeader_storeHeader_apart {bytes : ByteMemory} {offset other : ℕ}
    {header : RecordHeader} (apart : offset + 48 ≤ other ∨ other + 48 ≤ offset) :
    readRecordHeader (storeHeader bytes other header) offset = readRecordHeader bytes offset := by
  apply readRecordHeader_congr
  intro query lower upper
  have outside : query < other ∨ other + 48 ≤ query := by omega
  rw [storeHeader, storeState_outside _ _ _ _ outside, storeFields_outside _ _ _ _ outside]

/-- The data area filled with wrap records of 128 bytes. -/
def wrapsEverywhere : ShmBlock :=
  foundBlock 0 (2 ^ 64 - 1) fun query =>
    storeHeader (fun _ => 0) 0 (wrapHeader 128 1 stateWrap) (query % 128)

private theorem wrapsEverywhere_headerAt {pos : ℕ} (aligned : pos % 128 = 0) :
    wrapsEverywhere.headerAt pos = wrapHeader 128 1 stateWrap := by
  have same : wrapsEverywhere.headerAt pos =
      readRecordHeader (storeHeader (fun _ => 0) 0 (wrapHeader 128 1 stateWrap)) 0 := by
    apply readRecordHeader_shifted
    intro index below
    have start : (getHeaderOffset pos + index) % 128 = 0 + index := by
      rw [getHeaderOffset, dataBlockOffset_eq, dataBlockSize_eq]
      omega
    simp only [wrapsEverywhere, foundBlock, start]
  rw [same]
  apply readRecordHeader_storeHeader
  · constructor <;> decide
  · decide

/-- The scan goes around the whole 64-bit range. -/
theorem wrapsEverywhere_inspected (n : ℕ) :
    wrapsEverywhere.inspected n = some (wrap64 (128 * n)) := by
  induction n with
  | zero => rfl
  | succ n ih =>
    have aligned : wrap64 (128 * n) % 128 = 0 := by
      rw [wrap64]
      omega
    have header := wrapsEverywhere_headerAt aligned
    have next : wrap64 (wrap64 (128 * n) + 128) = wrap64 (128 * (n + 1)) := by
      simp only [wrap64]
      omega
    have head : wrapsEverywhere.metaData.headBytes = 2 ^ 64 - 1 := rfl
    refine follow_succ_eq_some.mpr ⟨_, ih, wrapLink_eq_some.mpr ?_⟩
    rw [ShmBlock.Current, header, head]
    refine ⟨⟨?_, ⟨rfl, rfl⟩, rfl, by decide⟩, next, ?_⟩
    · rw [ShmBlock.HeaderInside, dataUsableLimit_eq, dataBlockSize_eq]
      omega
    · rw [wrap64]
      omega

/-- A tail eight bytes before the end of the block makes `recv` use a null pointer. -/
theorem not_recvReturns_null (buf : ByteMemory) (maxSize : ℕ) :
    ¬ RecvReturns (foundBlock (dataBlockSize - 8) dataBlockSize fun _ => 0) buf maxSize := by
  intro returns
  have outside : ¬ ShmBlock.HeaderInside (dataBlockSize - 8) := by decide
  have more : dataBlockSize - 8 < dataBlockSize := by decide
  have visit : (foundBlock (dataBlockSize - 8) dataBlockSize fun _ => 0).firstLink =
    some (dataBlockSize - 8) := firstLink_eq_some.mpr ⟨rfl, more⟩
  exact outside ((returns.wrapsSound rfl).inside 0 _ visit)

/-- A tail eight bytes before the end of the block is a null pointer, and a data area full of wrap
records with the largest head keeps `recv` going forever. -/
theorem recv_never_returns :
    ¬ RecvReturns (foundBlock (dataBlockSize - 8) dataBlockSize fun _ => 0) (fun _ => 0)
        recvBufSize ∧
      ¬ RecvReturns wrapsEverywhere (fun _ => 0) recvBufSize := by
  refine ⟨not_recvReturns_null _ _, fun returns => ?_⟩
  have again : wrapsEverywhere.inspected (2 ^ 57) = wrapsEverywhere.inspected 0 := by
    rw [wrapsEverywhere_inspected, wrapsEverywhere_inspected]
    decide
  have same := (returns.wrapsSound rfl).fresh (2 ^ 57) 0 0
    (again.trans (wrapsEverywhere_inspected 0)) (wrapsEverywhere_inspected 0)
  exact absurd same (by decide)

end Eroil.Shm
