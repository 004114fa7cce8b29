import Eroil.Proofs.Shm.Runs
import Eroil.Proofs.Shm.Laps

/-! # Reservations whose header is not marked yet

Between the compare-exchange and the store of WRITING the header bytes of a reservation are those
of an earlier lap. A `recv` that reaches such a reservation takes them for the record. It is
honest exactly as long as the scan finds every reservation it reaches marked, or finds bytes there
that happen to read WRITING, as the zero bytes of the first lap do.
-/

namespace Eroil.Shm.Sys

open Lib

variable {ι : Type*} {sys : Sys ι}

/-- The next `recv` returns only a record that the reservation at its position has committed and
that was not delivered before, and moves the tail only over published reservations. -/
structure RecvHonest (sys : Sys ι) : Prop where
  recv : ∃ run, recv (recvFuel sys.block) sys.block sys.recvBuf recvBufSize = .returned run ∧
    (run.data.code = .none ∨ run.data.code = .noRecords ∨ run.data.code = .notYetPublished) ∧
    (run.data.code = .none → ∃ r ∈ sys.log, r.pos = sys.consumedAt ∧ r.wrap = false ∧
      sys.phase r = .final ∧ run.data = (sys.calls r.owner).message.recvData ∧
      run.buf.load 0 run.data.bufSize = (sys.calls r.owner).message.buf ∧
      ∀ entry ∈ sys.delivered, entry.pos ≠ r.pos) ∧
    ∀ value ∈ run.tailStores, ∃ r ∈ sys.log, sys.tail ≤ r.pos ∧ sys.phase r = .final ∧
      value = r.pos + r.size

/-- Schedules with separate compare-exchange and marking in which every `recv` meets the
condition on unmarked reservations. -/
def SplitMarked [DecidableEq ι] (sys : Sys ι) (action : Action ι) : Prop :=
  sys.Split action ∧ (action = .recv → sys.RecvSafe)

/-- On a consistent ring a `recv` that meets no stale header is honest. -/
theorem Inv.recvHonest (inv : sys.Inv) (account : sys.Account) (bound : sys.reservedBytes < 2 ^ 64)
    (safe : sys.RecvSafe) : sys.RecvHonest := by
  obtain ⟨run, returned, view⟩ := inv.recv_view bound safe
  have passed (r : Reservation ι) (member : r ∈ sys.unread) : r ∈ sys.log ∧ sys.tail ≤ r.pos :=
    mem_unread.mp member
  refine ⟨run, returned, ?_⟩
  generalize sys.consumedAt = stop at view ⊢
  cases view with
  | drained skipped =>
    refine ⟨.inr (.inl rfl), nofun, ?_⟩
    intro value member
    obtain ⟨r, inside, rfl⟩ := List.mem_map.mp member
    exact ⟨r, (passed r inside).1, (passed r inside).2, (skipped r inside).2, rfl⟩
  | waiting wraps rest r split skipped unfinished =>
    refine ⟨.inr (.inr rfl), nofun, ?_⟩
    intro value member
    obtain ⟨x, inside, rfl⟩ := List.mem_map.mp member
    have unread : x ∈ sys.unread := by
      rw [split]
      exact List.mem_append_left _ inside
    exact ⟨x, (passed x unread).1, (passed x unread).2, (skipped x inside).2, rfl⟩
  | found wraps rest r split skipped isData final =>
    have unread := mem_unread_of_split split
    obtain ⟨inLog, notRead⟩ := passed r unread
    refine ⟨.inl rfl, fun _ => ⟨r, inLog, rfl, isData, final, rfl,
      ByteMemory.load_store_same .., ?_⟩, ?_⟩
    · intro entry member
      rw [account.delivered] at member
      obtain ⟨x, inTaken, rfl⟩ := List.mem_map.mp member
      have before := (List.mem_filter.mp (List.mem_of_mem_filter inTaken)).2
      simp only [decide_eq_true_eq] at before
      simp only [delivery]
      omega
    · intro value member
      rcases List.mem_append.mp member with skip | last
      · obtain ⟨x, inside, rfl⟩ := List.mem_map.mp skip
        have unreadX : x ∈ sys.unread := by
          rw [split]
          exact List.mem_append_left _ inside
        exact ⟨x, (passed x unreadX).1, (passed x unreadX).2, (skipped x inside).2, rfl⟩
      · exact ⟨r, inLog, notRead, final, List.mem_singleton.mp last⟩

variable [DecidableEq ι]

/-- What holds along schedules with separate marking, without flush or re-initialisation. -/
structure SplitSound (sys : Sys ι) : Prop where
  inv : sys.Inv
  account : sys.Account
  first : sys.incarnation = 0

theorem SplitSound.step (sound : sys.SplitSound) {action : Action ι}
    (allowed : sys.SplitMarked action)
    (bound : (step sys action).reservedBytes < 2 ^ 64) : (step sys action).SplitSound := by
  have before : sys.reservedBytes < 2 ^ 64 := (sys.reservedBytes_le_step action).trans_lt bound
  obtain ⟨inv, account, first⟩ := sound
  obtain ⟨kind, safe⟩ := allowed
  have nextFirst : (Shm.step sys action).incarnation = 0 :=
    (sys.incarnation_step action (by rintro id rfl; exact kind)).trans first
  cases action with
  | begin c message => exact ⟨inv.begin kind, account.begin inv message, nextFirst⟩
  | advance c spurious =>
    have current := inv.current_of_first first c
    exact ⟨inv.advance (account.storeSafe inv current) (fun _ => current) bound,
      account.advance inv, nextFirst⟩
  | recv =>
    exact ⟨inv.receive before (safe rfl), account.receive inv before (safe rfl), nextFirst⟩
  | advanceMarked | flush | reinit | mangle => exact kind.elim

/-- Along every schedule in which each `recv` meets no stale header, every `recv` is honest. -/
theorem recv_never_stale {id : NodeId} {opened : OpenedBlock} {block : ShmBlock}
    (success : createOrOpen id opened = (true, block)) {buf : ByteMemory} {semaphore : ℕ}
    (run : Reaches step SplitMarked (Sys.initial block buf semaphore) sys)
    (bound : sys.reservedBytes < 2 ^ 64) (safe : sys.SplitMarked .recv) : sys.RecvHonest := by
  have fresh := createOrOpen_fresh success
  have sound := invariant_while_bounded SplitSound
    ⟨initial_inv fresh buf semaphore, initial_account buf semaphore, rfl⟩
    (fun _ _ sound allowed small => sound.step allowed small) run bound
  exact sound.inv.recvHonest sound.account bound (safe.2 rfl)

/-- A call that has reserved and not yet marked its record on the first lap, where the header bytes
are zero and read WRITING. -/
def unmarkedSend : List (Action Unit) :=
  .begin () ⟨3, 7, 9, [1, 2, 3]⟩ :: List.replicate 5 (.advance () false)

def afterUnmarked : Sys Unit :=
  unmarkedSend.foldl step (Sys.initial (createOrOpen 0 .created).2 (fun _ => 0) 0)

theorem recv_never_stale_first_lap :
    afterUnmarked.RecvHonest ∧ (afterUnmarked.calls ()).pc = .reserved 1 0 := by
  have inRange : Message.InRange ⟨3, 7, 9, [1, 2, 3]⟩ := by decide
  have reach : Reaches step SplitMarked (Sys.initial (createOrOpen 0 .created).2 (fun _ => 0) 0)
      afterUnmarked := by
    apply Reaches.foldl
    simp [unmarkedSend, SplitMarked, Split, or_imp, forall_and, inRange]
  have only : ∀ r ∈ afterUnmarked.log,
      afterUnmarked.block.bytes.loadWord (getHeaderOffset r.pos) 4 = stateWriting := by
    decide +kernel
  have marked : afterUnmarked.SplitMarked .recv := ⟨trivial, fun _ r reached _ => only r reached.1⟩
  exact ⟨recv_never_stale (createOrOpen_created 0) reach (by decide +kernel) marked,
    by decide +kernel⟩

/-! ## A record that is returned twice -/

omit [DecidableEq ι] in
theorem split_permits : Permits (Split : Sys ι → Action ι → Prop) false where
  begin _ _ _ range := range
  move _ _ := trivial
  recv _ := trivial

/-- The message whose record is left behind at the start of the block. -/
def early : Message := ⟨1, 2, 3, [7]⟩

/-- The message whose sender is slow to mark its header one lap later. -/
def late : Message := ⟨1, 2, 4, [9]⟩

theorem early_inRange : early.InRange := by decide
theorem late_inRange : late.InRange := by decide
theorem early_reserved : early.reserved = 56 := by decide
theorem late_reserved : late.reserved = 56 := by decide

/-- A record is sent and received at the start of the block, and the ring goes around once: the
record is still there. -/
private theorem record_survives_lap {ok : Sys ℕ → Action ℕ → Prop} {fused : Bool}
    (permits : Permits ok fused)
    {sys : Sys ℕ} (inv : sys.Inv) (idle : sys.IdleFrom 0) (head : sys.head = 0)
    (tail : sys.tail = 0) (bytes : sys.reservedBytes = 0) :
    ∃ next m, Reaches step ok sys next ∧ next.Inv ∧ next.IdleFrom m ∧
      next.head = dataBlockSize ∧ next.tail = dataBlockSize ∧ next.reservedBytes = dataBlockSize ∧
      readRecordHeader next.block.bytes dataBlockOffset =
        early.header next.generation stateCommitted ∧
      next.block.bytes.load (dataBlockOffset + 48) 1 = early.buf := by
  have offset : getHeaderOffset sys.head = dataBlockOffset := by rw [head]; rfl
  have small : sys.reservedBytes + early.reserved < 2 ^ 64 := by
    rw [bytes, early_reserved]
    decide
  obtain ⟨base, sent, reach, obtained, alone⟩ :=
    send_alone inv permits.toMoves (idle 0 le_rfl) early_inRange
    (tail.trans head.symm) (by rw [head, early_reserved]; decide) small (Nat.zero_le _)
  have unread := obtained.unread inv (tail.trans head.symm) rfl alone
  have published : sent.phase ⟨sys.head, early.reserved, 0, false⟩ = .final := by
    simp only [Sys.phase, alone.self]
    rfl
  have record := alone.inv.read_final (by rw [unread]; exact List.mem_singleton_self _) published
  simp only [Reservation.header, Reservation.payload, alone.self, offset, Bool.false_eq_true,
    ↓reduceIte] at record
  obtain ⟨drained, same⟩ := obtained.drain inv (tail.trans head.symm) rfl rfl small alone rfl
  have position : sent.receive.head = 56 := by
    have moved := drained.head
    simp only [head, early_reserved] at moved
    exact moved
  have idleRest : sent.receive.IdleFrom 1 := by
    intro k later
    rw [drained.other k (by omega)]
    exact idle k (Nat.zero_le k)
  have space : spaceTilWrap sent.receive.head = dataBlockSize - 56 := by
    rw [position]
    decide
  have counted : sent.receive.reservedBytes = 56 := by
    have moved := drained.reservedBytes
    simp only [bytes, early_reserved] at moved
    exact moved
  obtain ⟨next, reachNext, lap⟩ := drained.inv.lap permits idleRest drained.drained
    (by rw [counted, space]; decide) (le_refl (getHeaderOffset sent.receive.head))
  obtain ⟨m, _, idleNext⟩ := lap.idle
  have floor : getHeaderOffset sent.receive.head = dataBlockOffset + 56 := by
    rw [position]
    decide
  have low (query : ℕ) (below : query < dataBlockOffset + 56) :
      next.block.bytes query = sent.block.bytes query := by
    rw [lap.low query (by omega), same]
  have generation : next.generation = sent.generation := by
    rw [lap.generation, drained.generation, alone.ring.generation, obtained.generation]
  have size : 56 + (dataBlockSize - 56) = dataBlockSize := by decide
  have nextHead : next.head = dataBlockSize := by rw [lap.head, space, position, size]
  refine ⟨next, m, (reach.tail (permits.recv sent)).trans reachNext, lap.inv, idleNext, nextHead,
    lap.drained.trans nextHead, by rw [lap.reservedBytes, counted, space, size], ?_, ?_⟩
  · rw [generation, ← record.1]
    exact readRecordHeader_congr fun query _ upper => low query (by omega)
  · rw [← record.2]
    exact ByteMemory.load_congr fun query _ upper => low query (by omega)

omit [DecidableEq ι] in
/-- What `recv` does when a committed record stands at the tail, whoever wrote it. -/
theorem recv_committed (message : Message) (ready : sys.block.hdr.state = shmReady)
    (boundary : Boundary sys.tail) (more : sys.tail < sys.head) (range : message.InRange)
    (inside : sys.tail % dataBlockSize + message.reserved ≤ dataBlockSize)
    (committed : readRecordHeader sys.block.bytes (getHeaderOffset sys.tail) =
      message.header sys.generation stateCommitted)
    (payload : sys.block.bytes.load (getHeaderOffset sys.tail + 48) message.buf.length =
      message.buf) :
    recv (recvFuel sys.block) sys.block sys.recvBuf recvBufSize =
        .returned ⟨message.recvData, sys.block.consumed (wrap64 (sys.tail + message.reserved)),
          sys.recvBuf.store 0 message.buf, [wrap64 (sys.tail + message.reserved)]⟩ ∧
      sys.consumedAt = sys.tail := by
  obtain ⟨fuel, enough⟩ : ∃ fuel, recvFuel sys.block = fuel + 1 := ⟨sys.head - sys.tail - 1, by
    have total : recvFuel sys.block = sys.head - sys.tail := rfl
    omega⟩
  have scan : recvScan sys.generation (recvFuel sys.block) sys.block sys.tail sys.head [] =
      ⟨.found, sys.tail, sys.block, []⟩ := by
    rw [enough]
    exact recvScan_committed boundary more committed
  refine ⟨?_, by rw [consumedAt, scan]⟩
  rw [recv_eq ready more.le, if_neg (by omega), scan]
  exact readRecord_committed boundary range inside committed payload

/-- A committed record of an earlier lap, a sender that has just reserved its place, and a `recv`:
the old record is returned as if it were new. -/
theorem stale_record_returned : ¬ ∀ sys : Sys ℕ,
    Reaches step Split (Sys.initial (createOrOpen 0 .created).2 (fun _ => 0) 0) sys →
    sys.reservedBytes < 2 ^ 64 → sys.RecvHonest := by
  intro honest
  have fresh := createOrOpen_fresh (createOrOpen_created 0)
  obtain ⟨around, m, reach, inv, idle, head, tail, bytes, record, payload⟩ :=
    record_survives_lap split_permits (initial_inv fresh (fun _ => 0) 0) (fun _ _ => rfl) fresh.head
      fresh.tail rfl
  have small : around.reservedBytes + late.reserved < 2 ^ 64 := by
    rw [bytes, late_reserved]
    decide
  obtain ⟨searched, reachSearch, alone⟩ := search_alone inv split_permits.toMoves (idle m le_rfl)
    late_inRange (by omega) (dataBlockOffset + 56)
  rw [checkSpace_drained inv late_inRange (tail.trans head.symm),
    if_neg (by rw [head, late_reserved]; decide)] at alone
  obtain ⟨_, obtained, reserved⟩ := alone.claimData small
  have reachStuck : Reaches step Split searched (searched.advance m false) :=
    Reaches.single (Action.advance m false) trivial
  -- The reservation is made; its header is still the one of the first lap.
  generalize searched.advance m false = stuck at obtained reserved reachStuck
  have stuckTail : stuck.tail = dataBlockSize := by rw [obtained.tail, tail]
  have stuckHead : stuck.head = dataBlockSize + 56 := by
    have moved := obtained.head
    simp only [head, late_reserved] at moved
    exact moved
  have offset : getHeaderOffset stuck.tail = dataBlockOffset := by rw [stuckTail]; decide
  have bound : stuck.reservedBytes < 2 ^ 64 := by
    have counted := obtained.reservedBytes
    simp only at counted
    omega
  obtain ⟨returned, position⟩ := recv_committed early reserved.inv.ready
    (by rw [stuckTail]; exact ⟨by decide, by decide⟩) (by omega) early_inRange
    (by rw [stuckTail, early_reserved]; decide)
    (by
      rw [offset, obtained.generation, ← record]
      exact readRecordHeader_congr fun query _ upper => obtained.low query (by omega))
    (by
      rw [offset]
      refine (ByteMemory.load_congr fun query _ upper => obtained.low query ?_).trans payload
      have length : early.buf.length = 1 := rfl
      omega)
  obtain ⟨run, outcome, _, fromOwner, _⟩ :=
    (honest stuck ((reach.trans reachSearch).trans reachStuck) bound).recv
  rw [returned] at outcome
  cases outcome
  obtain ⟨r, member, here, _, final, _⟩ := fromOwner rfl
  have unread : r ∈ stuck.unread := mem_unread.mpr ⟨member, by rw [here, position]⟩
  rw [obtained.unread inv (tail.trans head.symm) rfl reserved] at unread
  rw [List.mem_singleton.mp unread] at final
  simp only [Sys.phase, reserved.self] at final
  cases final

end Eroil.Shm.Sys
