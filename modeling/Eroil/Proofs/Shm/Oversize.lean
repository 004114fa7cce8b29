import Eroil.Lib.Ring
import Eroil.Model.Shm.Worker
import Eroil.Proofs.Shm.Consume

/-! # Records that are larger than the receive buffer

The worker drains a ring of published records without senders running. A record that fits the
buffer is delivered and passed. One that does not fit is reported as skipped, but `recv` leaves the
tail in front of it, so every later drain finds it again. The worker therefore delivers the records
up to the first one that does not fit, and no others.
-/

namespace Eroil.Shm

open Lib

/-- A record of the ring: its position, the bytes it takes, and whether it is a wrap record. -/
structure RingRecord where
  pos : ℕ
  size : ℕ
  wrap : Bool
deriving DecidableEq

namespace ShmBlock

variable {block next : ShmBlock} {records wraps rest : List RingRecord} {r : RingRecord}

/-- The block stores a published wrap record or a committed data record. -/
structure Stores (block : ShmBlock) (r : RingRecord) : Prop where
  boundary : Boundary r.pos
  current : block.Current r.pos
  size : (block.headerAt r.pos).totalSize = r.size
  aligned : r.size % 8 = 0
  within : r.pos % dataBlockSize + r.size ≤ dataBlockSize
  holds : 48 + (block.headerAt r.pos).payloadSize ≤ r.size
  wrap : r.wrap = true →
    (block.headerAt r.pos).state = stateWrap ∧ (block.headerAt r.pos).payloadSize = 0
  data : r.wrap = false →
    (block.headerAt r.pos).state = stateCommitted ∧ 0 < (block.headerAt r.pos).payloadSize

/-- The block is ready, and published records fill the ring from the tail to the head. -/
structure Holds (block : ShmBlock) (records : List RingRecord) : Prop where
  ready : block.hdr.state = shmReady
  word : block.metaData.headBytes < 2 ^ 64
  tiles : Tiles RingRecord.pos RingRecord.size block.metaData.tailBytes records
    block.metaData.headBytes
  stores : ∀ r ∈ records, block.Stores r

/-- A data record whose payload the worker's buffer can hold. -/
def Fits (block : ShmBlock) (r : RingRecord) : Prop :=
  r.wrap = false ∧ (block.headerAt r.pos).payloadSize ≤ recvBufSize

instance (block : ShmBlock) (r : RingRecord) : Decidable (block.Fits r) :=
  inferInstanceAs (Decidable (_ ∧ _))

/-- What a record is delivered as. -/
def deliveryAt (block : ShmBlock) (r : RingRecord) : Delivery :=
  ⟨r.pos, block.dataAt r.pos,
    block.bytes.load (getDataOffset r.pos) (block.headerAt r.pos).payloadSize⟩

/-- The scan moves past one published wrap record. -/
private theorem Stores.scan_over {fuel : ℕ} {stores : List ℕ} (stored : block.Stores r)
    (isWrap : r.wrap = true) (more : r.pos < block.metaData.headBytes)
    (small : r.pos + r.size < 2 ^ 64) :
    recvScan block.metaData.generation (fuel + 1) (block.withTail r.pos) r.pos
        block.metaData.headBytes stores =
      recvScan block.metaData.generation fuel (block.withTail (r.pos + r.size)) (r.pos + r.size)
        block.metaData.headBytes (stores ++ [r.pos + r.size]) := by
  obtain ⟨state, empty⟩ := stored.wrap isWrap
  have valid : ¬ wrapInvalid (block.headerAt r.pos) := by
    have low : r.size &&& 7 = r.size % 2 ^ 3 := Nat.and_two_pow_sub_one_eq_mod r.size 3
    have holds := stored.holds
    have within := stored.within
    have aligned := stored.aligned
    simp only [wrapInvalid, stored.size, sizeofRecordHeader, low, empty]
    omega
  have scan := recvScan_over fuel stores more stored.boundary.2 stored.current
    state valid
  rw [stored.size] at scan
  simp only [wrap64_of_lt small] at scan
  exact scan

/-- The scan moves past any number of published wrap records. -/
private theorem scan_wraps {lower stop fuel : ℕ} {stores : List ℕ}
    (word : block.metaData.headBytes < 2 ^ 64)
    (stored : ∀ r ∈ wraps, block.Stores r) (skipped : ∀ r ∈ wraps, r.wrap = true)
    (tiles : Tiles RingRecord.pos RingRecord.size lower wraps stop)
    (below : stop ≤ block.metaData.headBytes) :
    ∃ later, recvScan block.metaData.generation (wraps.length + fuel) (block.withTail lower) lower
        block.metaData.headBytes stores =
      recvScan block.metaData.generation fuel (block.withTail stop) stop
        block.metaData.headBytes later := by
  induction wraps generalizing lower stores with
  | nil =>
    obtain rfl : lower = stop := tiles
    exact ⟨stores, by rw [List.length_nil, Nat.zero_add]⟩
  | cons r rest ih =>
    obtain ⟨rfl, positive, after⟩ := tiles
    have grows := after.le
    obtain ⟨later, scan⟩ := ih (fun x member => stored x (List.mem_cons_of_mem _ member))
      (fun x member => skipped x (List.mem_cons_of_mem _ member)) after
    refine ⟨later, ?_⟩
    rw [← scan, List.length_cons, Nat.add_right_comm]
    exact (stored r List.mem_cons_self).scan_over (skipped r List.mem_cons_self) (by omega)
      (by omega)

/-- The scan arrives behind the leading wrap records with iterations left. -/
theorem Holds.scan (holds : block.Holds (wraps ++ rest)) (skipped : ∀ r ∈ wraps, r.wrap = true) :
    ∃ stop fuel stores, rest.length ≤ fuel ∧
      Tiles RingRecord.pos RingRecord.size stop rest block.metaData.headBytes ∧
      recvScan block.metaData.generation (recvFuel block) block block.metaData.tailBytes
          block.metaData.headBytes [] =
        recvScan block.metaData.generation fuel (block.withTail stop) stop
          block.metaData.headBytes stores := by
  obtain ⟨stop, before, after⟩ := Tiles.append_iff.mp holds.tiles
  have length := holds.tiles.length_le
  rw [List.length_append] at length
  have total : recvFuel block = wraps.length + (recvFuel block - wraps.length) := by
    rw [recvFuel]
    omega
  obtain ⟨stores, scan⟩ := scan_wraps holds.word
    (fun r member => holds.stores r (List.mem_append_left _ member)) skipped before after.le
  refine ⟨stop, recvFuel block - wraps.length, stores, ?_, after, ?_⟩
  · rw [recvFuel]
    omega
  · rw [total, Nat.add_sub_cancel_left]
    exact scan

/-- Without a data record, `recv` moves the tail to the head. -/
private theorem Holds.recv_wraps (holds : block.Holds wraps) (skipped : ∀ r ∈ wraps, r.wrap = true)
    (buf : ByteMemory) (maxSize : ℕ) :
    ∃ stores, recv (recvFuel block) block buf maxSize = .returned
      ⟨{ code := .noRecords }, block.withTail block.metaData.headBytes, buf, stores⟩ := by
  by_cases empty : block.metaData.headBytes = block.metaData.tailBytes
  · refine ⟨[], ?_⟩
    have same : block.withTail block.metaData.headBytes = block := by
      rw [empty]
      rfl
    rw [recv, mapToType_header]
    simp only [holds.ready, ne_eq, not_true_eq_false, ↓reduceIte, mapToType_metaData, if_pos empty,
      same]
  · have ordered := holds.tiles.le
    rw [← List.append_nil wraps] at holds
    obtain ⟨stop, fuel, stores, _, ended, scan⟩ := holds.scan skipped
    obtain rfl : stop = block.metaData.headBytes := ended
    rw [recvScan_drained le_rfl] at scan
    refine ⟨stores, ?_⟩
    rw [recv_outcome holds.ready (by omega), scan]
    rfl

/-- The scan ends at the first data record. -/
theorem Holds.scan_data (holds : block.Holds (wraps ++ r :: rest))
    (skipped : ∀ r ∈ wraps, r.wrap = true) (isData : r.wrap = false) :
    ∃ stores, recvScan block.metaData.generation (recvFuel block) block block.metaData.tailBytes
      block.metaData.headBytes [] = ⟨.found, r.pos, block.withTail r.pos, stores⟩ := by
  obtain ⟨stop, fuel, stores, enough, ⟨rfl, positive, after⟩, scan⟩ := holds.scan skipped
  have stored := holds.stores r (List.mem_append_right _ List.mem_cons_self)
  have committed : block.Committed r.pos := ⟨stored.current, (stored.data isData).1⟩
  have more : r.pos < block.metaData.headBytes := by
    have := after.le
    omega
  obtain ⟨found, ends, result⟩ :=
    recvScan_last more stored.boundary.2 (wrapLink_committed committed) stores
  rw [if_pos committed] at result
  obtain ⟨less, rfl⟩ : ∃ less, fuel = less + 1 := ⟨fuel - 1, by
    simp only [List.length_cons] at enough
    omega⟩
  exact ⟨stores, by rw [scan, ends, result]⟩

/-- At the first data record, `recv` delivers what fits the buffer and reports the rest. -/
theorem Holds.recv_data (holds : block.Holds (wraps ++ r :: rest))
    (skipped : ∀ r ∈ wraps, r.wrap = true) (isData : r.wrap = false) (buf : ByteMemory) :
    ∃ stores, recv (recvFuel block) block buf recvBufSize = .returned
      (if block.Fits r then
        ⟨block.dataAt r.pos, block.consumed (r.pos + r.size),
          buf.store 0 (block.deliveryAt r).payload, stores⟩
      else ⟨{ code := .labelTooLarge }, block.withTail r.pos, buf, stores⟩) := by
  obtain ⟨stores, scan⟩ := holds.scan_data skipped isData
  have stored := holds.stores r (List.mem_append_right _ List.mem_cons_self)
  have bounds := holds.tiles.mem_bounds (List.mem_append_right wraps List.mem_cons_self)
  have word := holds.word
  have positive := (stored.data isData).2
  have holdsPayload := stored.holds
  have within := stored.within
  have valid : ¬ recordInvalid (block.headerAt r.pos) := by
    have low : r.size &&& 7 = r.size % 2 ^ 3 := Nat.and_two_pow_sub_one_eq_mod r.size 3
    have aligned := stored.aligned
    simp only [recordInvalid, stored.size, sizeofRecordHeader, low]
    omega
  have outcome : recv (recvFuel block) block buf recvBufSize = _ :=
    recv_outcome holds.ready (by omega)
  have found : Scan.outcome ⟨.found, r.pos, block.withTail r.pos, stores⟩ buf recvBufSize =
    readRecord ⟨.found, r.pos, block.withTail r.pos, stores⟩ buf recvBufSize := rfl
  rw [scan, found, readRecord_at stored.boundary.2, if_neg valid] at outcome
  by_cases fits : block.Fits r
  · have ends : wrap64 (r.pos + r.size) = r.pos + r.size := wrap64_of_lt (by omega)
    refine ⟨stores ++ [r.pos + r.size], ?_⟩
    rw [if_neg (Nat.not_lt.mpr fits.2), stored.size, read_payload _ _ _ _ (by omega)] at outcome
    simp only [ends] at outcome
    rw [outcome, if_pos fits, deliveryAt]
  · have large : recvBufSize < (block.headerAt r.pos).payloadSize :=
      Nat.not_le.mp fun small => fits ⟨isData, small⟩
    exact ⟨stores, by rw [outcome, if_pos large, if_neg fits]⟩

/-- What the ring holds after the tail has moved past some of its records. -/
theorem Holds.moved (holds : block.Holds (records ++ rest)) (bytes : next.bytes = block.bytes)
    (state : next.hdr.state = block.hdr.state)
    (generation : next.metaData.generation = block.metaData.generation)
    (head : next.metaData.headBytes = block.metaData.headBytes)
    (tail : Tiles RingRecord.pos RingRecord.size next.metaData.tailBytes rest
      block.metaData.headBytes) : next.Holds rest := by
  have header (pos : ℕ) : next.headerAt pos = block.headerAt pos := by
    rw [headerAt, headerAt, bytes]
  refine ⟨state.trans holds.ready, head.trans_lt holds.word, by rw [head]; exact tail, ?_⟩
  intro r member
  obtain ⟨boundary, current, size, aligned, within, payload, wrap, data⟩ :=
    holds.stores r (List.mem_append_right _ member)
  refine ⟨boundary, ?_, by rw [header, size], aligned, within, by rw [header]; exact payload, ?_, ?_⟩
  · rw [Current, header, generation]
    exact current
  · rw [header]
    exact wrap
  · rw [header]
    exact data

/-- Records are a run of wrap records up to the first data record. -/
private theorem wraps_split (records : List RingRecord) :
    ∃ wraps rest, records = wraps ++ rest ∧ (∀ r ∈ wraps, r.wrap = true) ∧
      (rest = [] ∨ ∃ r later, rest = r :: later ∧ r.wrap = false) := by
  induction records with
  | nil => exact ⟨[], [], rfl, nofun, .inl rfl⟩
  | cons r later ih =>
    cases kind : r.wrap with
    | false => exact ⟨[], r :: later, rfl, nofun, .inr ⟨r, later, rfl, kind⟩⟩
    | true =>
      obtain ⟨wraps, rest, split, skipped, first⟩ := ih
      refine ⟨r :: wraps, rest, by rw [split, List.cons_append], ?_, first⟩
      intro x member
      rcases List.mem_cons.mp member with rfl | inside
      · exact kind
      · exact skipped x inside

/-- The records that fit the buffer, as they are delivered. -/
def deliveries (block : ShmBlock) (records : List RingRecord) : List Delivery :=
  (records.filter fun r => block.Fits r).map block.deliveryAt

theorem deliveries_append (records rest : List RingRecord) :
    block.deliveries (records ++ rest) = block.deliveries records ++ block.deliveries rest := by
  rw [deliveries, List.filter_append, List.map_append]
  rfl

theorem deliveries_wraps (skipped : ∀ r ∈ wraps, r.wrap = true) : block.deliveries wraps = [] := by
  rw [deliveries, List.map_eq_nil_iff, List.filter_eq_nil_iff]
  intro r member fits
  rw [decide_eq_true_eq] at fits
  exact absurd (fits.1.symm.trans (skipped r member)) nofun

private theorem deliveries_fits (fits : block.Fits r) :
    block.deliveries [r] = [block.deliveryAt r] := by
  rw [deliveries, List.filter_cons_of_pos (by simpa using fits), List.filter_nil]
  rfl

/-- The number of data records. -/
def dataRecords (records : List RingRecord) : ℕ := (records.filter (!·.wrap)).length

theorem dataRecords_append (records rest : List RingRecord) :
    dataRecords (records ++ rest) = dataRecords records + dataRecords rest := by
  rw [dataRecords, List.filter_append, List.length_append]
  rfl

private theorem dataRecords_cons (isData : r.wrap = false) :
    dataRecords (r :: rest) = dataRecords rest + 1 := by
  rw [dataRecords, List.filter_cons_of_pos (by rw [isData]; rfl), List.length_cons]
  rfl

private theorem data_of_dataRecords (none : dataRecords records = 0) :
    ∀ r ∈ records, r.wrap = true := by
  intro r member
  have empty := List.filter_eq_nil_iff.mp (List.eq_nil_of_length_eq_zero none) r member
  simpa using empty

end ShmBlock

namespace ShmRecvWorker

open ShmBlock

variable {ι : Type*} {first worker last : ShmRecvWorker ι} {done left : List RingRecord}

/-- The worker waits, and all posts are used up. -/
def Blocked (worker : ShmRecvWorker ι) : Prop := worker.pc = .waiting ∧ worker.sys.semaphore = 0

/-- The steps that the worker takes while no sender runs. -/
def OwnStep (_ : ShmRecvWorker ι) : Action ι → Prop
  | .wake => True
  | .poll _ => True
  | _ => False

/-- Every record that fits the buffer was delivered, in order and once, and every data record was
passed. -/
structure Emptied (first last : ShmRecvWorker ι) (records : List RingRecord) : Prop where
  delivered : last.sys.delivered = first.sys.delivered ++ first.sys.block.deliveries records
  passed : ∀ r ∈ records, r.wrap = false → r.pos < last.sys.tail

/-- A data record that does not fit the buffer stands first. -/
def Stuck (block : ShmBlock) (left : List RingRecord) : Prop :=
  ∃ r rest, left = r :: rest ∧ r.wrap = false ∧ ¬ block.Fits r

/-- The worker has passed the records `done` and finds the records `left`. -/
structure Progress (first worker : ShmRecvWorker ι) (done left : List RingRecord) : Prop where
  bytes : worker.sys.block.bytes = first.sys.block.bytes
  head : worker.sys.head = first.sys.head
  holds : worker.sys.block.Holds left
  running : worker.stop = false
  alive : worker.pc ≠ .exited
  fits : ∀ r ∈ done, r.wrap = false → first.sys.block.Fits r
  delivered : worker.sys.delivered = first.sys.delivered ++ first.sys.block.deliveries done
  posts : dataRecords left ≤ worker.sys.semaphore + (if worker.pc = .draining then 1 else 0) ∨
    Stuck first.sys.block left

/-- What the worker can still do: every post is good for a drain, every record for a step of it. -/
def rank (worker : ShmRecvWorker ι) (left : List RingRecord) : ℕ :=
  2 * worker.sys.semaphore + dataRecords left + (if worker.pc = .draining then 1 else 0)

/-- Headers, payloads and what fits depend on the bytes of the block only. -/
theorem Progress.same (progress : Progress first worker done left) (r : RingRecord) :
    worker.sys.block.deliveryAt r = first.sys.block.deliveryAt r ∧
      (worker.sys.block.Fits r ↔ first.sys.block.Fits r) := by
  simp only [deliveryAt, dataAt, headerAt, Fits, progress.bytes, and_self]

/-- A drain step that passes some of the records. -/
theorem Progress.pass (progress : Progress first worker done left) {passed rest : List RingRecord}
    {next : ShmRecvWorker ι} (split : left = passed ++ rest) (draining : worker.pc = .draining)
    (bytes : next.sys.block.bytes = worker.sys.block.bytes) (head : next.sys.head = worker.sys.head)
    (holds : next.sys.block.Holds rest)
    (running : next.stop = false) (pc : next.pc = .draining ∨ next.pc = .waiting)
    (semaphore : next.sys.semaphore = worker.sys.semaphore)
    (fits : ∀ r ∈ passed, r.wrap = false → first.sys.block.Fits r)
    (delivered : next.sys.delivered = worker.sys.delivered ++ first.sys.block.deliveries passed)
    (less : next.pc = .draining → dataRecords rest < dataRecords left)
    (outcome : dataRecords rest = 0 ∨ dataRecords rest < dataRecords left ∨
      Stuck first.sys.block rest) :
    Progress first next (done ++ passed) rest ∧ next.rank rest < worker.rank left := by
  have total := dataRecords_append passed rest
  rw [← split] at total
  refine ⟨⟨bytes.trans progress.bytes, head.trans progress.head, holds, running, ?_, ?_, ?_, ?_⟩, ?_⟩
  · rcases pc with again | ended
    · rw [again]
      exact nofun
    · rw [ended]
      exact nofun
  · intro r member isData
    rcases List.mem_append.mp member with before | now
    · exact progress.fits r before isData
    · exact fits r now isData
  · rw [delivered, progress.delivered, deliveries_append, List.append_assoc]
  · rcases outcome with none | fewer | stuck
    · exact .inl (by omega)
    · rcases progress.posts with enough | ⟨r, later, head, isData, large⟩
      · rw [if_pos draining] at enough
        exact .inl (by omega)
      · -- What stands first in front of the tail was passed, so it fits.
        cases passed with
        | nil =>
          rw [List.nil_append] at split
          rw [split] at fewer
          exact absurd fewer (lt_irrefl _)
        | cons x others =>
          rw [split, List.cons_append] at head
          obtain ⟨rfl, _⟩ := List.cons.inj head
          exact absurd (fits _ List.mem_cons_self isData) large
    · exact .inr stuck
  · rcases pc with again | ended
    · have fewer := less again
      simp only [rank, draining, again, semaphore, ↓reduceIte]
      omega
    · simp only [rank, draining, ended, semaphore, ↓reduceIte, reduceCtorEq]
      omega

theorem Progress.wake (progress : Progress first worker done left) (waiting : worker.pc = .waiting)
    (posted : worker.sys.semaphore ≠ 0) :
    Progress first worker.wake done left ∧ worker.wake.rank left < worker.rank left := by
  have woken : worker.wake = { worker with
      sys.semaphore := worker.sys.semaphore - 1, waitErrCount := 0, pc := .draining } := by
    rw [ShmRecvWorker.wake, if_neg (by rw [waiting]; simp [posted]), progress.running]
    rfl
  obtain ⟨bytes, head, holds, running, alive, fits, delivered, posts⟩ := progress
  rw [waiting, if_neg nofun] at posts
  rw [woken]
  refine ⟨⟨bytes, head, holds, running, nofun, fits, delivered, ?_⟩, ?_⟩
  · refine posts.imp_left fun enough => ?_
    simp only [↓reduceIte]
    omega
  · simp only [rank, waiting, ↓reduceIte, reduceCtorEq]
    omega

/-- What the drain loop makes of a record leaves the block alone and goes on or waits. -/
private theorem take_view (run : RecvRun) (running : worker.stop = false) :
    (worker.take run).sys = worker.sys ∧ (worker.take run).stop = false ∧
      ((worker.take run).pc = worker.pc ∨ (worker.take run).pc = .waiting) := by
  unfold take
  split
  · exact ⟨rfl, running, .inl rfl⟩
  · exact ⟨rfl, running, .inr (by rw [again, running]; rfl)⟩
  · exact ⟨rfl, running, .inl rfl⟩

/-- The worker after a `recv` that returned, before it looks at the result. -/
def received (worker : ShmRecvWorker ι) (run : RecvRun) : ShmRecvWorker ι :=
  { worker with sys := { worker.sys with
      block := run.block
      recvBuf := run.buf
      delivered := worker.sys.delivered ++ Sys.deliveryOf worker.sys.consumedAt run } }

theorem poll_returned {run : RecvRun} (draining : worker.pc = .draining) (expired : Bool)
    (returned : recv (recvFuel worker.sys.block) worker.sys.block worker.sys.recvBuf recvBufSize =
      .returned run) :
    worker.poll expired = (worker.received run).getNextRecord expired run := by
  rw [poll, if_neg (by rw [draining]; exact not_not_intro rfl), returned]
  simp only [Sys.receive_eq returned]
  rfl

/-- The delivery that a `recv` of the first data record makes. -/
private theorem delivery_of_data {wraps rest : List RingRecord} {r : RingRecord} (stores : List ℕ)
    (holds : worker.sys.block.Holds (wraps ++ r :: rest)) (skipped : ∀ r ∈ wraps, r.wrap = true)
    (isData : r.wrap = false) :
    Sys.deliveryOf worker.sys.consumedAt
        ⟨worker.sys.block.dataAt r.pos, worker.sys.block.consumed (r.pos + r.size),
          worker.sys.recvBuf.store 0 (worker.sys.block.deliveryAt r).payload, stores⟩ =
      [worker.sys.block.deliveryAt r] := by
  obtain ⟨_, scan⟩ := holds.scan_data skipped isData
  have position : worker.sys.consumedAt = r.pos := by rw [Sys.consumedAt, scan]
  have length : (worker.sys.block.deliveryAt r).payload.length =
      (worker.sys.block.dataAt r.pos).bufSize := by
    simp only [deliveryAt, dataAt, ByteMemory.length_load]
  have loaded := ByteMemory.load_store_same worker.sys.recvBuf 0
    (worker.sys.block.deliveryAt r).payload
  rw [length] at loaded
  have success : (worker.sys.block.dataAt r.pos).code = .none := rfl
  simp only [Sys.deliveryOf, success, ↓reduceIte, position, loaded]
  rw [deliveryAt]

section Drain

variable {wraps rest : List RingRecord} {r : RingRecord}
  (progress : Progress first worker done left) (draining : worker.pc = .draining)
  (skipped : ∀ r ∈ wraps, r.wrap = true)

include progress draining skipped

/-- Nothing but wrap records is left: the tail moves to the head. -/
private theorem Progress.poll_wraps (split : left = wraps) (expired : Bool) :
    Progress first (worker.poll expired) (done ++ wraps) [] ∧
      (worker.poll expired).rank [] < worker.rank left := by
  have running := progress.running
  have holds := progress.holds
  rw [split] at holds
  obtain ⟨stores, returned⟩ := holds.recv_wraps skipped worker.sys.recvBuf recvBufSize
  rw [← List.append_nil wraps] at holds split
  rw [poll_returned draining expired returned]
  refine progress.pass split draining rfl rfl (holds.moved rfl rfl rfl rfl rfl) running (.inr ?_) rfl
    (fun r member isData => absurd (isData.symm.trans (skipped r member)) nofun) ?_ ?_ (.inl rfl)
  · simp only [getNextRecord, again, received, running]
    rfl
  · rw [deliveries_wraps skipped]
    rfl
  · simp only [getNextRecord, again, received, running]
    exact nofun

/-- The first data record does not fit: the tail stops in front of it. -/
private theorem Progress.poll_large (split : left = wraps ++ r :: rest) (isData : r.wrap = false)
    (large : ¬ worker.sys.block.Fits r) (expired : Bool) :
    Progress first (worker.poll expired) (done ++ wraps) (r :: rest) ∧
      (worker.poll expired).rank (r :: rest) < worker.rank left := by
  have running := progress.running
  have holds := progress.holds
  rw [split] at holds
  obtain ⟨stores, returned⟩ := holds.recv_data skipped isData worker.sys.recvBuf
  obtain ⟨_, _, rfl, after⟩ := Tiles.append_iff.mp holds.tiles
  rw [if_neg large] at returned
  rw [poll_returned draining expired returned]
  refine progress.pass split draining rfl rfl (holds.moved rfl rfl rfl rfl ⟨rfl, after⟩) running
    (.inr ?_) rfl (fun r member isData => absurd (isData.symm.trans (skipped r member)) nofun) ?_ ?_
    (.inr (.inr ⟨r, rest, rfl, isData, ?_⟩))
  · simp only [getNextRecord, again, received, running]
    rfl
  · rw [deliveries_wraps skipped]
    rfl
  · simp only [getNextRecord, again, received, running]
    exact nofun
  · exact fun small => large ((progress.same r).2.mpr small)

/-- The first data record fits: it is delivered, and the loop goes on or abandons the drain. -/
private theorem Progress.poll_fits (split : left = wraps ++ r :: rest) (isData : r.wrap = false)
    (fits : worker.sys.block.Fits r) (expired : Bool) :
    Progress first (worker.poll expired) (done ++ (wraps ++ [r])) rest ∧
      (worker.poll expired).rank rest < worker.rank left := by
  have running := progress.running
  have holds := progress.holds
  rw [split] at holds
  obtain ⟨stores, returned⟩ := holds.recv_data skipped isData worker.sys.recvBuf
  have delivery := delivery_of_data stores holds skipped isData
  obtain ⟨_, _, rfl, _, after⟩ := Tiles.append_iff.mp holds.tiles
  obtain ⟨sameDelivery, sameFits⟩ := progress.same r
  have passed : left = (wraps ++ [r]) ++ rest := by
    rw [split, List.append_assoc, List.singleton_append]
  have fewer : dataRecords rest < dataRecords left := by
    rw [split, dataRecords_append, dataRecords_cons isData]
    omega
  rw [if_pos fits] at returned
  rw [List.append_cons] at holds
  have moved := poll_returned draining expired returned
  generalize eq : RecvRun.mk (worker.sys.block.dataAt r.pos)
    (worker.sys.block.consumed (r.pos + r.size))
    (worker.sys.recvBuf.store 0 (worker.sys.block.deliveryAt r).payload) stores = run
    at moved delivery
  have success : run.data.code = .none := by
    rw [← eq]
    rfl
  have block : run.block = worker.sys.block.consumed (r.pos + r.size) := by rw [← eq]
  obtain ⟨sys, stop, pc⟩ := take_view run (show (worker.received run).stop = false from running)
  have next : worker.poll expired = (worker.received run).take run := by
    rw [moved, getNextRecord, success]
  rw [next]
  refine progress.pass passed draining ?_ ?_ ?_ stop ?_ (by rw [sys]; rfl) ?_ ?_ (fun _ => fewer)
    (.inr (.inl fewer))
  · rw [sys, received, block]
    rfl
  · rw [Sys.head, sys, received, block]
    rfl
  · rw [sys, received, block]
    exact holds.moved rfl rfl rfl rfl after
  · exact pc.imp_left fun same => same.trans draining
  · intro x member data
    rcases List.mem_append.mp member with skip | here
    · exact absurd (data.symm.trans (skipped x skip)) nofun
    · rw [List.mem_singleton.mp here]
      exact sameFits.mp fits
  · rw [sys, received, delivery, deliveries_append, deliveries_wraps skipped,
      deliveries_fits (sameFits.mp fits), sameDelivery]
    rfl

end Drain

/-- One `recv` of the drain passes the leading wrap records and a data record that fits. -/
theorem Progress.poll (progress : Progress first worker done left) (draining : worker.pc = .draining)
    (expired : Bool) :
    ∃ passed rest, left = passed ++ rest ∧
      Progress first (worker.poll expired) (done ++ passed) rest ∧
      (worker.poll expired).rank rest < worker.rank left := by
  obtain ⟨wraps, rest, split, skipped, ends⟩ := wraps_split left
  rcases ends with rfl | ⟨r, later, rfl, isData⟩
  · have all : left = wraps := by rw [split, List.append_nil]
    exact ⟨wraps, [], split, progress.poll_wraps draining skipped all expired⟩
  · by_cases fits : worker.sys.block.Fits r
    · refine ⟨wraps ++ [r], later, ?_, progress.poll_fits draining skipped split isData fits expired⟩
      rw [split, List.append_assoc, List.singleton_append]
    · exact ⟨wraps, r :: later, split,
        progress.poll_large draining skipped split isData fits expired⟩

theorem Progress.start {records : List RingRecord} (holds : worker.sys.block.Holds records)
    (waiting : worker.pc = .waiting) (running : worker.stop = false)
    (posts : dataRecords records ≤ worker.sys.semaphore) : Progress worker worker [] records :=
  ⟨rfl, rfl, holds, running, by rw [waiting]; exact nofun, nofun, (List.append_nil _).symm,
    .inl (by omega)⟩

/-- A worker that is blocked has delivered everything in front of a record that does not fit. -/
theorem Progress.blocked (progress : Progress first last done left) (blocked : last.Blocked) :
    dataRecords left = 0 ∨ Stuck first.sys.block left := by
  obtain ⟨waiting, none⟩ := blocked
  refine progress.posts.imp_left fun enough => ?_
  rw [waiting, if_neg nofun, none] at enough
  omega

variable [DecidableEq ι]

/-- The worker keeps its place in the ring with each of its own steps. -/
theorem Progress.step (progress : Progress first worker done left) {action : Action ι}
    (own : OwnStep worker action) :
    ∃ passed rest, left = passed ++ rest ∧
      Progress first (step worker action) (done ++ passed) rest := by
  have stays : Progress first worker (done ++ []) left := by
    rw [List.append_nil]
    exact progress
  cases action with
  | wake =>
    refine ⟨[], left, rfl, ?_⟩
    by_cases idle : worker.pc ≠ .waiting ∨ worker.sys.semaphore = 0
    · have still : worker.wake = worker := if_pos idle
      rw [ShmRecvWorker.step, still]
      exact stays
    · rw [not_or, not_not] at idle
      rw [List.append_nil]
      exact (progress.wake idle.1 idle.2).1
  | poll expired =>
    by_cases draining : worker.pc = .draining
    · obtain ⟨passed, rest, split, next, _⟩ := progress.poll draining expired
      exact ⟨passed, rest, split, next⟩
    · have still : worker.poll expired = worker := if_pos draining
      refine ⟨[], left, rfl, ?_⟩
      rw [ShmRecvWorker.step, still]
      exact stays
  | begin | advanceMarked | waitError | requestStop => exact own.elim

/-- Along a run of its own steps the worker passes records from the front. -/
theorem Progress.run {records : List RingRecord} (progress : Progress first first [] records)
    (run : Reaches ShmRecvWorker.step OwnStep first last) :
    ∃ done left, records = done ++ left ∧ Progress first last done left := by
  refine run.invariant (fun worker => ∃ done left, records = done ++ left ∧
    Progress first worker done left) ⟨[], records, rfl, progress⟩ ?_
  rintro worker action ⟨done, left, split, here⟩ own
  obtain ⟨passed, rest, more, next⟩ := here.step own
  exact ⟨done ++ passed, rest, by rw [split, more, List.append_assoc], next⟩

/-- The worker comes to block: every step of its own that is not idle lowers its rank. -/
theorem Progress.blocks (progress : Progress first worker done left) :
    ∃ last, Reaches ShmRecvWorker.step OwnStep worker last ∧ last.Blocked := by
  induction measure : worker.rank left using Nat.strong_induction_on
    generalizing worker done left with
  | _ n ih =>
    cases place : worker.pc with
    | exited => exact absurd place progress.alive
    | waiting =>
      by_cases none : worker.sys.semaphore = 0
      · exact ⟨worker, .refl, place, none⟩
      · obtain ⟨next, lower⟩ := progress.wake place none
        obtain ⟨last, run, blocked⟩ := ih _ (measure ▸ lower) next rfl
        exact ⟨last, (Reaches.single Action.wake trivial).trans run, blocked⟩
    | draining =>
      obtain ⟨passed, rest, _, next, lower⟩ := progress.poll place false
      obtain ⟨last, run, blocked⟩ := ih _ (measure ▸ lower) next rfl
      exact ⟨last, (Reaches.single (Action.poll false) trivial).trans run, blocked⟩

/-- After its own steps the worker has drained the ring when it blocks, and it comes to that. -/
def DrainsAll (worker : ShmRecvWorker ι) (records : List RingRecord) : Prop :=
  (∃ last, Reaches step OwnStep worker last ∧ last.Blocked) ∧
    ∀ last, Reaches step OwnStep worker last → last.Blocked → Emptied worker last records

section Drains

variable {records : List RingRecord} (holds : worker.sys.block.Holds records)
  (waiting : worker.pc = .waiting) (running : worker.stop = false)
  (posts : dataRecords records ≤ worker.sys.semaphore)

include holds waiting running posts

/-- A record that does not fit is never passed. -/
theorem DrainsAll.fits (drains : DrainsAll worker records) :
    ∀ r ∈ records, r.wrap = false → worker.sys.block.Fits r := by
  intro r member isData
  have progress := Progress.start holds waiting running posts
  obtain ⟨⟨last, run, blocked⟩, all⟩ := drains
  obtain ⟨done, left, split, here⟩ := progress.run run
  have passed := (all last run blocked).passed r member isData
  rw [split] at member
  rcases List.mem_append.mp member with before | after
  · exact here.fits r before isData
  · have behind : last.sys.tail ≤ r.pos := (here.holds.tiles.mem_bounds after).1
    exact absurd passed (Nat.not_lt.mpr behind)

private theorem drainsAll_of_fits (fits : ∀ r ∈ records, r.wrap = false → worker.sys.block.Fits r) :
    DrainsAll worker records := by
  have progress := Progress.start holds waiting running posts
  refine ⟨progress.blocks, fun last run blocked => ?_⟩
  obtain ⟨done, left, split, here⟩ := progress.run run
  -- Nothing that is left can be stuck, so only wrap records are left.
  have wraps : ∀ r ∈ left, r.wrap = true := by
    rcases here.blocked blocked with none | ⟨r, rest, first, isData, large⟩
    · exact data_of_dataRecords none
    · refine absurd (fits r ?_ isData) large
      rw [split, first]
      exact List.mem_append_right _ List.mem_cons_self
  constructor
  · rw [split, deliveries_append, deliveries_wraps wraps, List.append_nil]
    exact here.delivered
  · intro r member isData
    have tiles := holds.tiles
    rw [split] at member tiles
    rcases List.mem_append.mp member with before | after
    · obtain ⟨middle, early, late⟩ := Tiles.append_iff.mp tiles
      have bounds := early.mem_bounds before
      have rest := here.holds.tiles
      rw [show last.sys.block.metaData.headBytes = _ from here.head] at rest
      have tail : middle = last.sys.tail := late.lower_unique rest
      omega
    · exact absurd (isData.symm.trans (wraps r after)) nofun

/-- Nothing behind a record that does not fit is ever delivered. -/
private theorem delivers_before {front rest : List RingRecord} {r : RingRecord}
    (split : records = front ++ r :: rest) (isData : r.wrap = false)
    (large : ¬ worker.sys.block.Fits r) (run : Reaches step OwnStep worker last) :
    ∃ passed, passed <+: front ∧
      last.sys.delivered = worker.sys.delivered ++ worker.sys.block.deliveries passed := by
  obtain ⟨done, left, whole, here⟩ := (Progress.start holds waiting running posts).run run
  refine ⟨done, ?_, here.delivered⟩
  rw [split] at whole
  rcases List.append_eq_append_iff.mp whole with ⟨more, rfl, behind⟩ | ⟨more, ahead, _⟩
  · cases more with
    | nil =>
      rw [List.append_nil]
    | cons x others =>
      rw [List.cons_append] at behind
      obtain ⟨rfl, _⟩ := List.cons.inj behind
      exact absurd (here.fits r (List.mem_append_right _ List.mem_cons_self) isData) large
  · exact ⟨more, ahead.symm⟩

/-- On a ring of published records with a post for each, the worker delivers every record that fits,
once and in order, and passes every record, exactly if there is no record that does not fit. -/
theorem drainsAll_iff : DrainsAll worker records ↔ ∀ r ∈ records, r.wrap = false →
    (worker.sys.block.headerAt r.pos).payloadSize ≤ recvBufSize := by
  constructor
  · intro drains r member isData
    exact (drains.fits holds waiting running posts r member isData).2
  · intro small
    exact drainsAll_of_fits holds waiting running posts
      fun r member isData => ⟨isData, small r member isData⟩

end Drains

/-- Two records: a large one with a payload of given size, and a small one behind it. -/
def pairRecords : List RingRecord := [⟨0, 1048656, false⟩, ⟨1048656, 56, false⟩]

def pairRing (payloadSize : ℕ) : ShmBlock :=
  foundBlock 0 1048712 (storeHeader (storeHeader (fun _ => 0) (getHeaderOffset 0)
    (committedHeader 1048656 payloadSize)) (getHeaderOffset 1048656) (committedHeader 56 8))

theorem pairRing_headers {payloadSize : ℕ} (small : payloadSize < 2 ^ 64) :
    (pairRing payloadSize).headerAt 0 = committedHeader 1048656 payloadSize ∧
      (pairRing payloadSize).headerAt 1048656 = committedHeader 56 8 := by
  constructor
  · have apart : getHeaderOffset 0 + 48 ≤ getHeaderOffset 1048656 := by decide
    exact (readRecordHeader_storeHeader_apart (.inl apart)).trans
      (read_committedHeader (by decide) small)
  · exact read_committedHeader (by decide) (by decide)

theorem pairRing_holds {payloadSize : ℕ} (positive : 0 < payloadSize) (room : payloadSize ≤ 1048608) :
    (pairRing payloadSize).Holds pairRecords := by
  obtain ⟨first, second⟩ := pairRing_headers (room.trans_lt (by decide))
  have word : 1048712 < 2 ^ 64 := by decide
  have tiles : Tiles RingRecord.pos RingRecord.size 0 pairRecords 1048712 :=
    ⟨rfl, by decide, by decide, by decide, show 0 + 1048656 + 56 = 1048712 by decide⟩
  refine ⟨rfl, word, tiles, ?_⟩
  simp only [pairRecords, List.forall_mem_cons, List.not_mem_nil, IsEmpty.forall_iff, implies_true,
    and_true]
  constructor
  · refine ⟨⟨by decide, by decide⟩, ?_, ?_, by decide, by decide, ?_, by rintro ⟨⟩, fun _ => ?_⟩
    · rw [Current, first]
      exact ⟨rfl, rfl⟩
    · rw [first]
      rfl
    · rw [first]
      simp only [committedHeader]
      omega
    · rw [first]
      exact ⟨rfl, positive⟩
  · refine ⟨⟨by decide, by decide⟩, ?_, ?_, by decide, by decide, ?_, by rintro ⟨⟩, fun _ => ?_⟩
    · rw [Current, second]
      exact ⟨rfl, rfl⟩
    all_goals rw [second]
    · rfl
    · decide
    · decide

/-- The worker waits with two posts on the ring of two records. -/
def pairWorker (payloadSize : ℕ) : ShmRecvWorker Unit :=
  start 0 (Sys.initial (pairRing payloadSize) (fun _ => 0) 2)

theorem drainsAll_iff_pair : (pairWorker recvBufSize).sys.block.Holds pairRecords ∧
    DrainsAll (pairWorker recvBufSize) pairRecords := by
  have holds : (pairWorker recvBufSize).sys.block.Holds pairRecords :=
    pairRing_holds (by decide) (by decide)
  obtain ⟨first, second⟩ := pairRing_headers (show recvBufSize < 2 ^ 64 by decide)
  refine ⟨holds, (drainsAll_iff holds rfl rfl (by decide)).mpr ?_⟩
  intro r member _
  rcases List.mem_cons.mp member with rfl | later
  · exact (congrArg RecordHeader.payloadSize first).le
  · rw [List.mem_singleton.mp later]
    exact (congrArg RecordHeader.payloadSize second).trans_le (by decide)

/-- One byte too many in the first record keeps the worker from ever delivering the second. -/
theorem oversize_blocks : (pairWorker (recvBufSize + 1)).sys.block.Holds pairRecords ∧
    dataRecords pairRecords = (pairWorker (recvBufSize + 1)).sys.semaphore ∧
    ¬ DrainsAll (pairWorker (recvBufSize + 1)) pairRecords ∧
    ∀ last, Reaches step OwnStep (pairWorker (recvBufSize + 1)) last → last.sys.delivered = [] := by
  have holds : (pairWorker (recvBufSize + 1)).sys.block.Holds pairRecords :=
    pairRing_holds (by decide) (by decide)
  have large : ¬ (pairWorker (recvBufSize + 1)).sys.block.Fits ⟨0, 1048656, false⟩ := by
    intro fits
    have payload := congrArg RecordHeader.payloadSize
      (pairRing_headers (show recvBufSize + 1 < 2 ^ 64 by decide)).1
    exact absurd (payload.symm.trans_le fits.2) (by decide)
  refine ⟨holds, rfl, ?_, ?_⟩
  · intro drains
    exact large (drains.fits holds rfl rfl le_rfl _ List.mem_cons_self rfl)
  · intro last run
    obtain ⟨passed, nothing, delivered⟩ :=
      delivers_before holds rfl rfl le_rfl
        (show pairRecords = [] ++ _ :: pairRecords.tail from rfl) rfl large run
    rw [List.prefix_nil.mp nothing] at delivered
    exact delivered

end ShmRecvWorker

end Eroil.Shm
