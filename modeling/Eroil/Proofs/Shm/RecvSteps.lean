import Eroil.Proofs.Shm.SendSteps

/-! # What `recv` does on a consistent ring

The unread part of the log decides the result. The scan moves past published wrap records, stops
at the first other reservation, and returns its record if the owner has committed it. The tail
therefore only ever moves to a boundary of the log.
-/

namespace Eroil.Shm

open Lib

/-- The block after `tail_bytes` has been stored. -/
def ShmBlock.withTail (block : ShmBlock) (tail : ℕ) : ShmBlock :=
  { block with metaData.tailBytes := tail }

/-- One iteration of the scan over a published wrap record. -/
private theorem recvScan_wrap {gen fuel tail head size : ℕ} {block : ShmBlock} {stores : List ℕ}
    (boundary : Boundary tail) (more : tail < head) (small : tail + size < 2 ^ 64)
    (least : 48 ≤ size) (aligned : size % 8 = 0) (bounded : size ≤ dataBlockSize)
    (published : readRecordHeader block.bytes (getHeaderOffset tail) =
      wrapHeader size gen stateWrap) :
    recvScan gen (fuel + 1) block tail head stores =
      recvScan gen fuel (block.withTail (tail + size)) (tail + size) block.metaData.headBytes
        (stores ++ [tail + size]) := by
  have valid : ¬ wrapInvalid (wrapHeader size gen stateWrap) := by
    have low : size &&& 7 = size % 2 ^ 3 := Nat.and_two_pow_sub_one_eq_mod size 3
    simp only [wrapInvalid, wrapHeader, sizeofRecordHeader, low]
    omega
  rw [recvScan, if_pos more, mapToType_boundary boundary]
  simp only [published]
  rw [if_neg (by simp only [wrapHeader]; decide), if_neg (by simp only [wrapHeader]; decide),
    if_neg (by simp only [wrapHeader, ne_eq, not_true_eq_false, not_false_eq_true]),
    if_neg (by simp only [wrapHeader]; decide), if_pos (by simp only [wrapHeader]), if_neg valid]
  simp only [wrapHeader, wrap64_of_lt small, ShmBlock.withTail]

/-- The scan stops at the head. -/
theorem recvScan_drained {gen fuel tail head : ℕ} {block : ShmBlock} {stores : List ℕ}
    (drained : head ≤ tail) :
    recvScan gen fuel block tail head stores = ⟨.notFound, tail, block, stores⟩ := by
  cases fuel with
  | zero => rw [recvScan, if_neg (by omega)]
  | succ fuel => rw [recvScan, if_neg (by omega)]

/-- The scan stops at a record that its owner is still writing. -/
private theorem recvScan_writing {gen fuel tail head : ℕ} {block : ShmBlock} {stores : List ℕ}
    (boundary : Boundary tail) (more : tail < head)
    (writing : (readRecordHeader block.bytes (getHeaderOffset tail)).state = stateWriting) :
    recvScan gen (fuel + 1) block tail head stores =
      ⟨.error .notYetPublished, tail, block, stores⟩ := by
  rw [recvScan, if_pos more, mapToType_boundary boundary]
  simp only [if_pos writing]

/-- The scan stops at a committed record of the present generation. -/
theorem recvScan_committed {gen fuel tail head : ℕ} {block : ShmBlock} {stores : List ℕ}
    {message : Message} (boundary : Boundary tail) (more : tail < head)
    (committed : readRecordHeader block.bytes (getHeaderOffset tail) =
      message.header gen stateCommitted) :
    recvScan gen (fuel + 1) block tail head stores = ⟨.found, tail, block, stores⟩ := by
  rw [recvScan, if_pos more, mapToType_boundary boundary]
  simp only [committed]
  rw [if_neg (by simp only [Message.header]; decide), if_neg (by simp only [Message.header]; decide),
    if_neg (by simp only [Message.header, ne_eq, not_true_eq_false, not_false_eq_true]),
    if_pos (by simp only [Message.header])]

/-- What `recv` reports for the record of a call. -/
def Message.recvData (message : Message) : ShmRecvData :=
  ⟨.none, message.id, message.label, message.seq.toNat, message.buf.length⟩

/-- The block after a record that ends at `tail` has been consumed. -/
def ShmBlock.consumed (block : ShmBlock) (tail : ℕ) : ShmBlock :=
  { block with
    metaData.tailBytes := tail
    metaData.publishedCount := wrap64 (block.metaData.publishedCount + (2 ^ 64 - 1)) }

/-- A committed record in range is handed out as it was sent. -/
theorem readRecord_committed {scan : Scan} {buf : ByteMemory} {gen : ℕ} {message : Message}
    (boundary : Boundary scan.tail) (range : message.InRange)
    (inside : scan.tail % dataBlockSize + message.reserved ≤ dataBlockSize)
    (committed : readRecordHeader scan.block.bytes (getHeaderOffset scan.tail) =
      message.header gen stateCommitted)
    (payload : scan.block.bytes.load (getHeaderOffset scan.tail + 48) message.buf.length =
      message.buf) :
    readRecord scan buf recvBufSize =
      .returned ⟨message.recvData, scan.block.consumed (wrap64 (scan.tail + message.reserved)),
        buf.store 0 message.buf, scan.tailStores ++ [wrap64 (scan.tail + message.reserved)]⟩ := by
  have bounds := range.bounds
  have valid : ¬ recordInvalid (message.header gen stateCommitted) := by
    have low : message.reserved &&& 7 = message.reserved % 2 ^ 3 :=
      Nat.and_two_pow_sub_one_eq_mod message.reserved 3
    have positive := range.1
    simp only [recordInvalid, Message.header, sizeofRecordHeader, low, dataBlockSize_eq]
    omega
  have copied : (read scan.block.bytes buf message.buf.length (getDataOffset scan.tail)).2 =
      buf.store 0 message.buf := by
    rw [read_payload _ _ _ _ (by omega)]
    simp only [getDataOffset, sizeofRecordHeader, payload]
  rw [readRecord, mapToType_boundary boundary]
  simp only [committed]
  rw [if_neg valid, if_neg (by simp only [Message.header]; exact Nat.not_lt.mpr range.2)]
  simp only [Message.header, copied, Message.recvData, ShmBlock.consumed]

namespace Sys

variable {ι : Type*}

/-- The reservations that the tail has not passed. -/
def unread (sys : Sys ι) : List (Reservation ι) := sys.log.filter fun r => sys.tail ≤ r.pos

/-- Published wrap records, which the scan moves past. -/
def Skipped (sys : Sys ι) (r : Reservation ι) : Prop := r.wrap = true ∧ sys.phase r = .final

instance (sys : Sys ι) (r : Reservation ι) : Decidable (sys.Skipped r) :=
  inferInstanceAs (Decidable (_ ∧ _))

variable {sys next : Sys ι}

/-- The unread reservations are the part of the log behind the tail. -/
theorem Inv.unread_split (inv : sys.Inv) : ∃ old, sys.log = old ++ sys.unread ∧
    Tiles Reservation.pos Reservation.size 0 old sys.tail ∧
    Tiles Reservation.pos Reservation.size sys.tail sys.unread sys.head := by
  obtain ⟨old, live, log, oldTiles, liveTiles⟩ := inv.tiled
  have unread : sys.unread = live := by
    have passed : old.filter (fun r => sys.tail ≤ r.pos) = [] := by
      rw [List.filter_eq_nil_iff]
      intro r member
      have := oldTiles.mem_bounds member
      simp only [decide_eq_true_eq]
      omega
    have kept : live.filter (fun r => sys.tail ≤ r.pos) = live := by
      rw [List.filter_eq_self]
      intro r member
      have := liveTiles.mem_bounds member
      simp only [decide_eq_true_eq]
      omega
    rw [Sys.unread, log, List.filter_append, passed, kept, List.nil_append]
  exact ⟨old, by rw [unread, log], oldTiles, by rw [unread]; exact liveTiles⟩

theorem mem_unread {r : Reservation ι} : r ∈ sys.unread ↔ r ∈ sys.log ∧ sys.tail ≤ r.pos := by
  simp only [unread, List.mem_filter, decide_eq_true_eq]

theorem mem_unread_of_split {wraps rest : List (Reservation ι)} {r : Reservation ι}
    (split : sys.unread = wraps ++ r :: rest) : r ∈ sys.unread := by
  rw [split]
  exact List.mem_append_right _ List.mem_cons_self

/-- What a `recv` that returns leaves of the system. -/
theorem receive_eq {run : RecvRun}
    (returned : recv (recvFuel sys.block) sys.block sys.recvBuf recvBufSize = .returned run) :
    sys.receive = { sys with
      block := run.block
      recvBuf := run.buf
      delivered := sys.delivered ++ deliveryOf sys.consumedAt run } := by
  unfold Sys.receive
  rw [returned]

/-- Moving the tail to another boundary of the log keeps the invariant. -/
theorem Inv.consume (inv : sys.Inv) {first second : List (Reservation ι)} {tail : ℕ}
    (split : sys.unread = first ++ second)
    (passed : Tiles Reservation.pos Reservation.size sys.tail first tail)
    (boundary : Boundary tail) (newTail : next.tail = tail)
    (bytes : next.block.bytes = sys.block.bytes)
    (state : next.block.hdr.state = sys.block.hdr.state)
    (generation : next.generation = sys.generation) (head : next.head = sys.head)
    (calls : next.calls = sys.calls) (log : next.log = sys.log)
    (incarnation : next.incarnation = sys.incarnation)
    (reservedBytes : next.reservedBytes = sys.reservedBytes) : next.Inv := by
  obtain ⟨old, whole, oldTiles, liveTiles⟩ := inv.unread_split
  have grows := passed.le
  have rest : Tiles Reservation.pos Reservation.size tail second sys.head := by
    rw [split] at liveTiles
    obtain ⟨middle, left, right⟩ := Tiles.append_iff.mp liveTiles
    rwa [passed.upper_unique left]
  have ordered := rest.le
  have phase (r : Reservation ι) : next.phase r = sys.phase r := by
    unfold Sys.phase
    rw [calls]
  refine {
    ready := state.trans inv.ready
    generation := by rw [generation]; exact inv.generation
    counted := by rw [head, reservedBytes]; exact inv.counted
    window := by have := inv.window; omega
    headBoundary := by rw [head]; exact inv.headBoundary
    tailBoundary := by rw [newTail]; exact boundary
    tiled := ⟨old ++ first, second, by rw [log, whole, split, List.append_assoc], ?_, ?_⟩
    placed := by rw [log]; exact inv.placed
    owned := ?_
    unique := by rw [log]; exact inv.unique
    held := ?_
    born := by rw [calls, incarnation]; exact inv.born
    range := by rw [calls]; exact inv.range
    stored := by rw [calls]; exact inv.stored
    locals := ?_ }
  · rw [newTail]
    exact Tiles.append_iff.mpr ⟨_, oldTiles, passed⟩
  · rw [newTail, head]
    exact rest
  · rw [log]
    intro r member
    obtain ⟨current, range, data⟩ := inv.owned r member
    exact ⟨by rw [calls, incarnation, current], by rw [calls]; exact range, by rw [calls]; exact data⟩
  · rw [log, newTail]
    intro r member unread
    exact (inv.held r member (by omega)).congr (fun _ _ _ => by rw [bytes])
      ((inv.owned r member).fits (inv.placed r member)) (by rw [calls]) generation (phase r)
  · intro c current
    rw [calls, incarnation] at current
    exact (inv.locals c current).mono (by rw [calls]) generation head.ge (by omega)
      (by rw [log]; exact fun _ member => member)

/-- What a reservation reads as once its owner has published it. -/
theorem Inv.read_final (inv : sys.Inv) {r : Reservation ι} (member : r ∈ sys.unread)
    (final : sys.phase r = .final) :
    readRecordHeader sys.block.bytes (getHeaderOffset r.pos) =
        r.header (sys.calls r.owner).message sys.generation ∧
      sys.block.bytes.load (getHeaderOffset r.pos + 48)
        (r.payload (sys.calls r.owner).message).length = r.payload (sys.calls r.owner).message := by
  have held := inv.held r (mem_unread.mp member).1 (mem_unread.mp member).2
  rw [Held, final] at held
  exact held

/-- What a reservation reads as before its owner has published it. -/
theorem Inv.read_unfinished (inv : sys.Inv) {r : Reservation ι} (member : r ∈ sys.unread)
    (unfinished : sys.phase r ≠ .final)
    (safe : sys.phase r = .unmarked →
      sys.block.bytes.loadWord (getHeaderOffset r.pos) 4 = stateWriting) :
    (readRecordHeader sys.block.bytes (getHeaderOffset r.pos)).state = stateWriting := by
  have held := inv.held r (mem_unread.mp member).1 (mem_unread.mp member).2
  unfold Held at held
  cases stage : sys.phase r <;> rw [stage] at held
  case unmarked => exact safe stage
  case marked => exact held
  case filled =>
    simp only [Phase.Holds] at held
    rw [held]
  case copied => rw [held.1]
  case final => exact absurd stage unfinished

/-- The scan moves past any number of published wrap records. -/
private theorem Inv.scan_skips (inv : sys.Inv) (bound : sys.reservedBytes < 2 ^ 64)
    {wraps : List (Reservation ι)} {lower upper fuel : ℕ} {stores : List ℕ}
    (members : ∀ r ∈ wraps, r ∈ sys.unread) (skipped : ∀ r ∈ wraps, sys.Skipped r)
    (tiles : Tiles Reservation.pos Reservation.size lower wraps upper) :
    recvScan sys.generation (wraps.length + fuel) (sys.block.withTail lower) lower sys.head stores =
      recvScan sys.generation fuel (sys.block.withTail upper) upper sys.head
        (stores ++ wraps.map fun r => r.pos + r.size) := by
  induction wraps generalizing lower stores with
  | nil =>
    obtain rfl : lower = upper := tiles
    simp only [List.length_nil, Nat.zero_add, List.map_nil, List.append_nil]
  | cons r rest ih =>
    obtain ⟨here, _, later⟩ := tiles
    have member := members r List.mem_cons_self
    have inLog := (mem_unread.mp member).1
    obtain ⟨isWrap, final⟩ := skipped r List.mem_cons_self
    obtain ⟨boundary, aligned, least, _⟩ := inv.placed r inLog
    have within := (inv.placed r inLog).within
    have bounds := inv.tiles.mem_bounds inLog
    have counted := inv.counted
    have published := (inv.read_final member final).1
    simp only [Reservation.header, isWrap, ↓reduceIte] at published
    subst here
    have size : (r :: rest).length + fuel = rest.length + fuel + 1 := by
      simp only [List.length_cons]
      omega
    have once : recvScan sys.generation (rest.length + fuel + 1) (sys.block.withTail r.pos) r.pos
        sys.head stores = recvScan sys.generation (rest.length + fuel)
          (sys.block.withTail (r.pos + r.size)) (r.pos + r.size) sys.head
          (stores ++ [r.pos + r.size]) :=
      recvScan_wrap boundary (by omega) (by omega) least aligned (by omega) published
    rw [size, once, ih (fun x mem => members x (List.mem_cons_of_mem _ mem))
      (fun x mem => skipped x (List.mem_cons_of_mem _ mem)) later]
    simp only [List.map_cons, List.append_assoc, List.cons_append, List.nil_append]

/-- The three outcomes of `recv` on a consistent ring, with the position its scan stopped at. -/
inductive RecvView (sys : Sys ι) : RecvRun → ℕ → Prop
  | drained (skipped : ∀ r ∈ sys.unread, sys.Skipped r) :
      RecvView sys
        ⟨{ code := .noRecords }, sys.block.withTail sys.head, sys.recvBuf,
          sys.unread.map fun r => r.pos + r.size⟩ sys.head
  | waiting (wraps rest : List (Reservation ι)) (r : Reservation ι)
      (split : sys.unread = wraps ++ r :: rest) (skipped : ∀ r ∈ wraps, sys.Skipped r)
      (unfinished : sys.phase r ≠ .final) :
      RecvView sys
        ⟨{ code := .notYetPublished }, sys.block.withTail r.pos, sys.recvBuf,
          wraps.map fun r => r.pos + r.size⟩ r.pos
  | found (wraps rest : List (Reservation ι)) (r : Reservation ι)
      (split : sys.unread = wraps ++ r :: rest) (skipped : ∀ r ∈ wraps, sys.Skipped r)
      (isData : r.wrap = false) (final : sys.phase r = .final) :
      RecvView sys
        ⟨(sys.calls r.owner).message.recvData, sys.block.consumed (r.pos + r.size),
          sys.recvBuf.store 0 (sys.calls r.owner).message.buf,
          (wraps.map fun r => r.pos + r.size) ++ [r.pos + r.size]⟩ r.pos

/-- A list of reservations is a run of skipped ones up to the first that is not. -/
private theorem skipped_split (sys : Sys ι) (live : List (Reservation ι)) :
    ∃ wraps rest, live = wraps ++ rest ∧ (∀ r ∈ wraps, sys.Skipped r) ∧
      ∀ r later, rest = r :: later → ¬ sys.Skipped r := by
  induction live with
  | nil => exact ⟨[], [], rfl, nofun, nofun⟩
  | cons r rest ih =>
    by_cases skipped : sys.Skipped r
    · obtain ⟨wraps, others, split, before, after⟩ := ih
      refine ⟨r :: wraps, others, by rw [split, List.cons_append], ?_, after⟩
      intro x member
      rcases List.mem_cons.mp member with rfl | later
      · exact skipped
      · exact before x later
    · refine ⟨[], r :: rest, rfl, nofun, ?_⟩
      rintro x later same
      rw [(List.cons.inj same).1] at skipped
      exact skipped

/-- The scan on a consistent ring: it skips wrap records and stops at the first other one. -/
theorem Inv.scan_split (inv : sys.Inv) (bound : sys.reservedBytes < 2 ^ 64)
    {wraps rest : List (Reservation ι)} (split : sys.unread = wraps ++ rest)
    (skipped : ∀ r ∈ wraps, sys.Skipped r) :
    ∃ middle fuel, Tiles Reservation.pos Reservation.size sys.tail wraps middle ∧
      Tiles Reservation.pos Reservation.size middle rest sys.head ∧ rest.length ≤ fuel ∧
      recvScan sys.generation (recvFuel sys.block) sys.block sys.tail sys.head [] =
        recvScan sys.generation fuel (sys.block.withTail middle) middle sys.head
          (wraps.map fun r => r.pos + r.size) := by
  obtain ⟨old, log, _, tiles⟩ := inv.unread_split
  have length := tiles.length_le
  have total : recvFuel sys.block = sys.head - sys.tail := rfl
  rw [split] at tiles length
  obtain ⟨middle, left, right⟩ := Tiles.append_iff.mp tiles
  rw [List.length_append] at length
  refine ⟨middle, recvFuel sys.block - wraps.length, left, right, by omega, ?_⟩
  · have fuel : recvFuel sys.block = wraps.length + (recvFuel sys.block - wraps.length) := by omega
    have members : ∀ r ∈ wraps, r ∈ sys.unread := by
      rw [split]
      exact fun r member => List.mem_append_left _ member
    rw [fuel, Nat.add_sub_cancel_left]
    exact inv.scan_skips bound members skipped left

/-- The unread reservations before a split point are those at smaller positions. -/
theorem Inv.reached (inv : sys.Inv) {wraps rest : List (Reservation ι)} {r : Reservation ι}
    (split : sys.unread = wraps ++ r :: rest) (skipped : ∀ r ∈ wraps, sys.Skipped r) :
    sys.Reached r := by
  obtain ⟨_, _, _, tiles⟩ := inv.unread_split
  have member := mem_unread_of_split split
  refine ⟨(mem_unread.mp member).1, (mem_unread.mp member).2, ?_⟩
  intro r' inLog notRead before
  have member' : r' ∈ sys.unread := mem_unread.mpr ⟨inLog, notRead⟩
  rw [split] at member' tiles
  rcases List.mem_append.mp member' with skip | other
  · exact skipped r' skip
  · obtain ⟨middle, _, here, _, later⟩ := Tiles.append_iff.mp tiles
    rcases List.mem_cons.mp other with rfl | behind
    · omega
    · have := later.mem_bounds behind
      omega

/-- How the end of the scan decides the outcome of `recv`. -/
def outcomeOf (sys : Sys ι) (scan : Scan) : RecvOutcome :=
  match scan.stop with
  | .nullPointer => .nullPointer
  | .outOfFuel => .outOfFuel
  | .error code => .returned ⟨{ code := code }, scan.block, sys.recvBuf, scan.tailStores⟩
  | .notFound => .returned ⟨{ code := .noRecords }, scan.block, sys.recvBuf, scan.tailStores⟩
  | .found => readRecord scan sys.recvBuf recvBufSize

theorem recv_eq (ready : sys.block.hdr.state = shmReady) (ordered : sys.tail ≤ sys.head) :
    recv (recvFuel sys.block) sys.block sys.recvBuf recvBufSize =
      if sys.head = sys.tail then .returned ⟨{ code := .noRecords }, sys.block, sys.recvBuf, []⟩
      else sys.outcomeOf
        (recvScan sys.generation (recvFuel sys.block) sys.block sys.tail sys.head []) := by
  have forward : ¬ sys.block.metaData.headBytes < sys.block.metaData.tailBytes :=
    Nat.not_lt.mpr ordered
  rw [recv, mapToType_header]
  simp only [ready, ne_eq, not_true_eq_false, ↓reduceIte, mapToType_metaData, forward]
  rfl

/-- The outcome when the unread part of the log holds published wrap records only. -/
private theorem Inv.recv_drained (inv : sys.Inv) (bound : sys.reservedBytes < 2 ^ 64)
    (skipped : ∀ r ∈ sys.unread, sys.Skipped r) :
    ∃ run, recv (recvFuel sys.block) sys.block sys.recvBuf recvBufSize = .returned run ∧
      sys.RecvView run sys.consumedAt := by
  obtain ⟨middle, fuel, left, right, _, scan⟩ :=
    inv.scan_split bound (List.append_nil _).symm skipped
  obtain rfl : middle = sys.head := right
  rw [recvScan_drained le_rfl] at scan
  refine ⟨_, ?_, by rw [Sys.consumedAt, scan]; exact .drained skipped⟩
  rw [recv_eq inv.ready left.le, scan]
  by_cases empty : sys.head = sys.tail
  · have none : sys.unread = [] := by
      have length := left.length_le
      exact List.eq_nil_of_length_eq_zero (by omega)
    rw [if_pos empty, none, empty]
    rfl
  · rw [if_neg empty]
    rfl

/-- On a consistent ring `recv` returns, with one of the three outcomes. -/
theorem Inv.recv_view (inv : sys.Inv) (bound : sys.reservedBytes < 2 ^ 64) (safe : sys.RecvSafe) :
    ∃ run, recv (recvFuel sys.block) sys.block sys.recvBuf recvBufSize = .returned run ∧
      sys.RecvView run sys.consumedAt := by
  obtain ⟨wraps, rest, split, skipped, stops⟩ := sys.skipped_split sys.unread
  cases rest with
  | nil =>
    rw [List.append_nil] at split
    exact inv.recv_drained bound (by rw [split]; exact skipped)
  | cons r rest =>
    obtain ⟨middle, fuel, left, ⟨here, positive, later⟩, enough, scan⟩ :=
      inv.scan_split bound split skipped
    subst here
    have unpassed := left.le
    have below := later.le
    have more : r.pos < sys.head := by omega
    have member := mem_unread_of_split split
    have inLog := (mem_unread.mp member).1
    have placed := inv.placed r inLog
    obtain ⟨less, rfl⟩ : ∃ less, fuel = less + 1 := ⟨fuel - 1, by
      simp only [List.length_cons] at enough
      omega⟩
    have unfolded := recv_eq inv.ready (unpassed.trans (by omega))
    rw [if_neg (by omega)] at unfolded
    by_cases final : sys.phase r = .final
    · have isData : r.wrap = false := by
        by_contra notData
        exact stops r rest rfl ⟨by simpa using notData, final⟩
      have owned := inv.owned r inLog
      have size := (owned.data isData).1
      have within := placed.within
      have counted := inv.counted
      obtain ⟨committed, payload⟩ := inv.read_final member final
      simp only [Reservation.header, Reservation.payload, isData, Bool.false_eq_true, ↓reduceIte]
        at committed payload
      have stop := scan.trans (recvScan_committed placed.boundary more committed)
      refine ⟨_, ?_, by
        rw [Sys.consumedAt, stop]
        exact .found wraps rest r split skipped isData final⟩
      have small : r.pos + (sys.calls r.owner).message.reserved < 2 ^ 64 := by
        rw [← size]
        exact lt_of_le_of_lt (below.trans counted) bound
      rw [unfolded, stop, size, ← wrap64_of_lt small]
      exact readRecord_committed placed.boundary owned.range (by rw [← size]; exact within) committed
        payload
    · have writing := inv.read_unfinished member final
        (fun unmarked => safe r (inv.reached split skipped) unmarked)
      have stop := scan.trans (recvScan_writing placed.boundary more writing)
      refine ⟨_, ?_, by rw [Sys.consumedAt, stop]; exact .waiting wraps rest r split skipped final⟩
      rw [unfolded, stop]
      rfl

end Sys

end Eroil.Shm
