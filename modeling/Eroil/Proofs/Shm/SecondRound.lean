import Eroil.Proofs.Shm.Stale
import Eroil.Proofs.Shm.Wakeup

/-! # A wakeup that is lost after the positions have wrapped around

The first round sends small records, each received before the next is sent, up to the end of the
64-bit range. Before each of them another call loads head and tail and is held before its
compare-exchange. The call that passes the end of the range sets the head back to zero. The
compare-exchanges that were held back then succeed one after the other, and the head climbs a second
time up to the tail. The last of these calls commits its record and posts; the worker wakes up,
finds head and tail equal, and waits again. The next record that it abandons ends at `2 ^ 64`, so
the tail becomes zero, and the committed record lies between tail and head with nobody left to post.
-/

namespace Eroil.Shm

open Lib

namespace Sys

variable {ι : Type*} [DecidableEq ι] {sys next base : Sys ι} {c : ι} {message : Message}
  {pc : SendPc} {floor : ℕ}

/-- Schedules in which only senders move. -/
def Sends (_ : Sys ι) : Action ι → Prop
  | .begin _ message => message.InRange
  | .advanceMarked _ _ => True
  | _ => False

omit [DecidableEq ι] in
theorem sends_moves : Moves (Sends : Sys ι → Action ι → Prop) true where
  begin _ _ _ range := range
  move _ _ := trivial

/-- Senders post at least as often as calls come to have posted. -/
private theorem sends_posted (run : Reaches step Sends sys next) :
    next.posted.card + sys.semaphore ≤ sys.posted.card + next.semaphore := by
  induction run with
  | refl => exact le_rfl
  | @tail middle action _ allowed ih =>
    cases action with
    | begin c message =>
      have fewer := Finset.card_le_card (middle.posted_begin c message)
      have semaphore : (middle.begin c message).semaphore = middle.semaphore := by
        unfold Sys.begin
        split <;> rfl
      simp only [Shm.step]
      omega
    | advanceMarked c spurious =>
      have more := middle.posted_advanceMarked c spurious
      simp only [Shm.step]
      omega
    | advance | recv | flush | reinit | mangle => exact allowed.elim

/-- Senders do not take from the semaphore. -/
private theorem sends_semaphore (run : Reaches step Sends sys next) :
    sys.semaphore ≤ next.semaphore := by
  induction run with
  | refl => exact le_rfl
  | @tail middle action _ allowed ih =>
    cases action with
    | begin c message =>
      refine ih.trans_eq ?_
      simp only [Shm.step, Sys.begin]
      split <;> rfl
    | advanceMarked c spurious =>
      refine ih.trans ?_
      have first := middle.semaphore_le_advance c spurious
      have second := (middle.advance c spurious).semaphore_le_advance c false
      have third := ((middle.advance c spurious).advance c false).semaphore_le_advance c false
      simp only [Shm.step, Sys.advanceMarked]
      split
      · exact first
      · split
        · exact ((first.trans second).trans third).trans (semaphore_le_advance ..)
        · exact (first.trans second).trans third
    | advance | recv | flush | reinit | mangle => exact allowed.elim

/-- A call that ran alone to its end has posted. -/
theorem Obtained.posts {r : Reservation ι} (obtained : Obtained sys base c floor r)
    (mine : r.owner = c) (idle : (sys.calls c).pc = .idle)
    (alone : Alone base next c message floor (.done .none))
    (run : Reaches Shm.step Sends sys next) : sys.semaphore + 1 ≤ next.semaphore := by
  have fresh : c ∉ sys.posted := by
    intro member
    rw [(mem_posted.mp member).2] at idle
    cases idle
  have log : next.log = sys.log ++ [r] := alone.ring.log.trans obtained.log
  have subset : insert c sys.posted ⊆ next.posted := by
    intro d member
    rcases Finset.mem_insert.mp member with rfl | earlier
    · refine mem_posted.mpr ⟨⟨r, ?_, mine⟩, by rw [alone.self]⟩
      rw [log]
      exact List.mem_append_right _ (List.mem_singleton_self r)
    · have distinct : d ≠ c := fun same => fresh (same ▸ earlier)
      obtain ⟨⟨r', inLog, owner⟩, finished⟩ := mem_posted.mp earlier
      refine mem_posted.mpr ⟨⟨r', ?_, owner⟩, ?_⟩
      · rw [log]
        exact List.mem_append_left _ inLog
      · rw [alone.other d distinct, obtained.other d distinct]
        exact finished
  have more := Finset.card_le_card subset
  rw [Finset.card_insert_of_notMem fresh] at more
  have posts := sends_posted run
  omega

omit [DecidableEq ι] in
theorem receive_calls (sys : Sys ι) : sys.receive.calls = sys.calls := by
  unfold Sys.receive
  split <;> rfl

omit [DecidableEq ι] in
theorem Alone.withSemaphore (alone : Alone base next c message floor pc) (count : ℕ) :
    Alone base { next with semaphore := count } c message floor pc where
  inv := alone.inv.withSemaphore count
  ring := ⟨alone.ring.state, alone.ring.generation, alone.ring.head, alone.ring.tail, alone.ring.log,
    alone.ring.incarnation, alone.ring.reservedBytes⟩
  delivered := alone.delivered
  self := alone.self
  other := alone.other
  low := alone.low

end Sys

/-! ## The first round -/

/-- Where the record after `k` small ones starts, when wrap records take the rest of each lap. -/
def mile (k : ℕ) : ℕ := k / 2396738 * dataBlockSize + k % 2396738 * 56

theorem mile_mod (k : ℕ) : mile k % dataBlockSize = k % 2396738 * 56 := by
  have offset := Nat.mod_lt k (show 0 < 2396738 by decide)
  rw [mile, Nat.mul_add_mod', Nat.mod_eq_of_lt]
  rw [dataBlockSize_eq]
  omega

theorem mile_boundary (k : ℕ) : Boundary (mile k) := by
  have offset := Nat.mod_lt k (show 0 < 2396738 by decide)
  refine ⟨?_, ?_⟩
  · rw [mile, dataBlockSize_eq]
    omega
  · rw [mile_mod, dataUsableLimit_eq]
    omega

/-- Only the rest of a lap after its last record is too short for another one. -/
theorem mile_overflows (k : ℕ) :
    mile k % dataBlockSize + Sys.early.reserved > dataUsableLimit ↔ k % 2396738 = 2396737 := by
  have offset := Nat.mod_lt k (show 0 < 2396738 by decide)
  rw [mile_mod, Sys.early_reserved, dataUsableLimit_eq]
  omega

theorem mile_succ (k : ℕ) : mile (k + 1) = mile k + Sys.stride Sys.early (mile k) := by
  have offset := Nat.mod_lt k (show 0 < 2396738 by decide)
  simp only [Sys.stride, mile_overflows]
  rw [Sys.early_reserved, spaceTilWrap, mile_mod]
  unfold mile
  rw [dataBlockSize_eq]
  split_ifs <;> omega

namespace ShmRecvWorker

section

variable {ι : Type*} {worker : ShmRecvWorker ι} {run : RecvRun}

theorem wake_eq (waiting : worker.pc = .waiting) (posted : worker.sys.semaphore ≠ 0)
    (running : worker.stop = false) :
    worker.wake = { worker with
      sys.semaphore := worker.sys.semaphore - 1
      waitErrCount := 0
      pc := .draining } := by
  simp [wake, waiting, posted, running]

/-- A drain goes on after a record that is too short for a label header. -/
private theorem poll_short {message : Message} (draining : worker.pc = .draining)
    (returned : recv (recvFuel worker.sys.block) worker.sys.block worker.sys.recvBuf recvBufSize =
      .returned run)
    (data : run.data = message.recvData) (short : message.buf.length < sizeofLabelHeader) :
    worker.poll false = { worker with sys := worker.sys.receive } := by
  have skipped : handleRecord run.data.bufSize run.buf = .skipped := by
    rw [data]
    exact if_pos short
  have found : run.data.code = .none := by rw [data]; rfl
  rw [poll, if_neg (not_not.mpr draining), returned]
  simp only [getNextRecord, found, take, skipped]

/-- A drain ends at an empty ring. -/
theorem poll_empty (draining : worker.pc = .draining) (running : worker.stop = false)
    (returned : recv (recvFuel worker.sys.block) worker.sys.block worker.sys.recvBuf recvBufSize =
      .returned run)
    (empty : run.data.code = .noRecords) :
    worker.poll false = { worker with sys := worker.sys.receive, pc := .waiting } := by
  rw [poll, if_neg (not_not.mpr draining), returned]
  simp only [getNextRecord, empty, again, running, Bool.false_eq_true, ↓reduceIte]

/-- Senders move while the worker stands still. -/
theorem sends_run [DecidableEq ι] {sys : Sys ι} (run : Reaches Shm.step Sys.Sends worker.sys sys) :
    Reaches step Calm worker { worker with sys := sys } := by
  have followed : ∃ next, Reaches step Calm worker next ∧ next = { worker with sys := sys } := by
    refine run.simulates (fun sys next => next = { worker with sys := sys }) rfl ?_
    rintro middle _ action rfl allowed
    cases action with
    | begin c message =>
      exact ⟨_, .single (Action.begin c message) (show message.InRange from allowed), rfl⟩
    | advanceMarked c spurious => exact ⟨_, .single (Action.advanceMarked c spurious) trivial, rfl⟩
    | advance | recv | flush | reinit | mangle => exact allowed.elim
  obtain ⟨_, reached, rfl⟩ := followed
  exact reached

end

open Sys

variable {worker : ShmRecvWorker ℕ} {k : ℕ}

/-- Where a call stands that has loaded a drained head and made its checks. -/
def heldAt (gen pos : ℕ) : SendPc :=
  if pos % dataBlockSize + early.reserved > dataUsableLimit then .casWrap gen pos 0
  else .casData gen pos 0

/-- `k` small records were sent and received, and before each of them a call was held. -/
structure Milestone (worker : ShmRecvWorker ℕ) (k : ℕ) : Prop where
  inv : worker.sys.Inv
  head : worker.sys.head = mile k
  tail : worker.sys.tail = mile k
  reservedBytes : worker.sys.reservedBytes = mile k
  generation : worker.sys.generation = 1
  incarnation : worker.sys.incarnation = 0
  idle : worker.sys.IdleFrom (2 * k)
  held : ∀ j < k, worker.sys.calls (2 * j) = ⟨early, heldAt 1 (mile j), 0⟩
  quiet : ∀ c, (worker.sys.calls c).pc.awaitsPost = false
  running : worker.stop = false
  drains : worker.pc = .draining ∨ k = 0 ∧ worker.pc = .waiting
  -- the wrap record at the end of a lap is not posted: the drain that skips it needs a post in hand
  credit : 1 ≤ worker.sys.semaphore ∨ k % 2396738 ≤ 1

/-- The next call loads head and tail and is held. -/
theorem Milestone.hold (milestone : worker.Milestone k) (room : mile k < 2 ^ 64) :
    ∃ next, Reaches Shm.step Sends worker.sys next ∧
      Alone worker.sys next (2 * k) early 0 (heldAt 1 (mile k)) := by
  obtain ⟨next, reach, alone⟩ := search_alone milestone.inv sends_moves
    (milestone.idle (2 * k) le_rfl) early_inRange (by rw [milestone.reservedBytes]; exact room) 0
  rw [checkSpace_drained milestone.inv early_inRange (milestone.tail.trans milestone.head.symm),
    milestone.head, milestone.generation] at alone
  exact ⟨next, reach, alone⟩

/-- A record was sent and received after a call was held. -/
theorem Milestone.arrive (milestone : worker.Milestone k) {held passed : Sys ℕ} {count : ℕ}
    (alone : Alone worker.sys held (2 * k) early 0 (heldAt 1 (mile k)))
    (drained : Drained held passed (2 * k + 1) 0 (stride early (mile k)))
    (quiet : (passed.calls (2 * k + 1)).pc.awaitsPost = false)
    (credit : 1 ≤ count ∨ (k + 1) % 2396738 ≤ 1) {next : ShmRecvWorker ℕ}
    (sys : next.sys = { passed with semaphore := count }) (drains : next.pc = .draining)
    (running : next.stop = false) : next.Milestone (k + 1) := by
  have head : passed.head = mile (k + 1) := by
    rw [drained.head, alone.ring.head, milestone.head, mile_succ]
  have others (c : ℕ) (first : c ≠ 2 * k) (second : c ≠ 2 * k + 1) :
      passed.calls c = worker.sys.calls c := by
    rw [drained.other c second, alone.other c first]
  have mine : passed.calls (2 * k) = ⟨early, heldAt 1 (mile k), 0⟩ := by
    rw [drained.other _ (by omega), alone.self, milestone.incarnation]
  refine ⟨?_, ?_, ?_, ?_, ?_, ?_, ?_, ?_, ?_, running, .inl drains, ?_⟩ <;> rw [sys]
  · exact drained.inv.withSemaphore count
  · exact head
  · exact drained.drained.trans head
  · change passed.reservedBytes = mile (k + 1)
    rw [drained.reservedBytes, alone.ring.reservedBytes, milestone.reservedBytes, mile_succ]
  · exact drained.generation.trans (alone.ring.generation.trans milestone.generation)
  · exact drained.incarnation.trans (alone.ring.incarnation.trans milestone.incarnation)
  · intro c later
    change (passed.calls c).pc = .idle
    rw [others c (by omega) (by omega)]
    exact milestone.idle c (by omega)
  · intro j before
    rcases Nat.lt_succ_iff_lt_or_eq.mp before with earlier | rfl
    · exact (others (2 * j) (by omega) (by omega)).trans (milestone.held j earlier)
    · exact mine
  · intro c
    change (passed.calls c).pc.awaitsPost = false
    by_cases first : c = 2 * k
    · rw [first, mine]
      unfold heldAt
      split <;> rfl
    · by_cases second : c = 2 * k + 1
      · rw [second]
        exact quiet
      · rw [others c first second]
        exact milestone.quiet c
  · exact credit

/-- A small record is sent and received. -/
theorem Milestone.data (milestone : worker.Milestone k) (fits : k % 2396738 ≠ 2396737)
    (room : mile (k + 1) < 2 ^ 64) :
    ∃ next, Reaches step Calm worker next ∧ next.Milestone (k + 1) := by
  have below : ¬ mile k % dataBlockSize + early.reserved > dataUsableLimit := by
    rwa [mile_overflows]
  have size : stride early (mile k) = early.reserved := if_neg below
  rw [mile_succ, size] at room
  obtain ⟨held, reachHeld, holds⟩ := milestone.hold (by omega)
  have head : held.head = mile k := holds.ring.head.trans milestone.head
  have drained : held.tail = held.head :=
    (holds.ring.tail.trans milestone.tail).trans head.symm
  have bytes : held.reservedBytes + early.reserved < 2 ^ 64 := by
    rwa [holds.ring.reservedBytes, milestone.reservedBytes]
  have idle : (held.calls (2 * k + 1)).pc = .idle := by
    rw [holds.other _ (by omega)]
    exact milestone.idle _ (by omega)
  obtain ⟨base, sent, reachSent, obtained, alone⟩ := send_alone holds.inv sends_moves idle
    early_inRange drained (by rw [head]; omega) bytes (Nat.zero_le _)
  have posted := obtained.posts rfl idle alone reachSent
  -- the worker is in its drain loop already, except before the first record
  obtain ⟨ready, count, reachReady, credit, sys, drains, running⟩ :
      ∃ (ready : ShmRecvWorker ℕ) (count : ℕ), Reaches step Calm worker ready ∧
        (1 ≤ count ∨ (k + 1) % 2396738 ≤ 1) ∧ ready.sys = { sent with semaphore := count } ∧
        ready.pc = .draining ∧ ready.stop = false := by
    have reach := sends_run (reachHeld.trans reachSent)
    rcases milestone.drains with draining | ⟨first, waiting⟩
    · exact ⟨_, sent.semaphore, reach, .inl (by omega), rfl, draining, milestone.running⟩
    · have woken : wake { worker with sys := sent } = _ :=
        wake_eq waiting (show sent.semaphore ≠ 0 by omega) milestone.running
      refine ⟨_, sent.semaphore - 1, reach.trans (.single Action.wake trivial), ?_, ?_⟩
      · exact .inr (by rw [first])
      · rw [step, woken]
        exact ⟨rfl, rfl, milestone.running⟩
  have aloneReady := alone.withSemaphore count
  rw [← sys] at aloneReady
  obtain ⟨run, returned, data⟩ := obtained.answer holds.inv drained rfl rfl bytes aloneReady rfl
  have passes : Drained held ready.sys.receive (2 * k + 1) 0 (stride early (mile k)) := by
    rw [size]
    exact (obtained.drain holds.inv drained rfl rfl bytes aloneReady rfl).1
  have polled : ready.poll false = { ready with sys := ready.sys.receive } :=
    poll_short drains returned data (by decide)
  have calm : ready.Calm (.poll false) := calm_poll returned (.inl (by rw [data]; rfl))
  refine ⟨ready.poll false, reachReady.tail calm, ?_⟩
  have saved : 1 ≤ ready.sys.receive.semaphore ∨ (k + 1) % 2396738 ≤ 1 := by
    rw [receive_semaphore, sys]
    exact credit
  rw [polled]
  refine milestone.arrive holds passes ?_ saved rfl drains running
  rw [receive_calls, aloneReady.self]
  rfl

/-- A wrap record is published and skipped, and the worker takes one post to drain on. -/
theorem Milestone.wrap (milestone : worker.Milestone k) (last : k % 2396738 = 2396737)
    (room : mile (k + 1) < 2 ^ 64) :
    ∃ next, Reaches step Calm worker next ∧ next.Milestone (k + 1) := by
  have overflow : mile k % dataBlockSize + early.reserved > dataUsableLimit :=
    (mile_overflows k).mpr last
  have size : stride early (mile k) = spaceTilWrap (mile k) := if_pos overflow
  rw [mile_succ, size] at room
  have draining : worker.pc = .draining := by
    rcases milestone.drains with draining | ⟨first, _⟩
    · exact draining
    · omega
  obtain ⟨held, reachHeld, holds⟩ := milestone.hold (by omega)
  have head : held.head = mile k := holds.ring.head.trans milestone.head
  have drained : held.tail = held.head :=
    (holds.ring.tail.trans milestone.tail).trans head.symm
  have bytes : held.reservedBytes + spaceTilWrap held.head < 2 ^ 64 := by
    rwa [holds.ring.reservedBytes, milestone.reservedBytes, head]
  have idle : (held.calls (2 * k + 1)).pc = .idle := by
    rw [holds.other _ (by omega)]
    exact milestone.idle _ (by omega)
  obtain ⟨base, sent, reachSent, obtained, alone⟩ := wrap_alone holds.inv sends_moves idle
    early_inRange drained (by rw [head]; exact overflow) bytes (Nat.zero_le _)
  have more := sends_semaphore (reachHeld.trans reachSent)
  have final : Reservation.phase ⟨held.head, spaceTilWrap held.head, 2 * k + 1, true⟩
      (retry held.generation (wrap64 (held.head + spaceTilWrap held.head)) 1) = .final :=
    Reservation.phase_of_wrap rfl (retry_unbound ..).wrap
  obtain ⟨run, returned, data⟩ := obtained.answer holds.inv drained rfl rfl bytes alone final
  have passes : Drained held sent.receive (2 * k + 1) 0 (stride early (mile k)) := by
    rw [size, ← head]
    exact (obtained.drain holds.inv drained rfl rfl bytes alone final).1
  have polled : poll { worker with sys := sent } false =
      { worker with sys := sent.receive, pc := .waiting } :=
    poll_empty draining milestone.running returned (by rw [data]; rfl)
  have calm : Calm { worker with sys := sent } (.poll false) :=
    calm_poll returned (.inr (by rw [data]; rfl))
  have posted : sent.receive.semaphore ≠ 0 := by
    rw [receive_semaphore]
    have credit := milestone.credit
    omega
  have woken : wake { worker with sys := sent.receive, pc := .waiting } = _ :=
    wake_eq rfl posted milestone.running
  refine
    ⟨_, ((sends_run (reachHeld.trans reachSent)).tail calm).trans (.single Action.wake trivial), ?_⟩
  rw [step, step, polled, woken]
  refine milestone.arrive holds passes ?_ (.inr ?_) rfl rfl milestone.running
  · rw [receive_calls, alone.self]
    rcases retry_cases held.generation (wrap64 (held.head + spaceTilWrap held.head)) 1 with
      again | stops
    · rw [again]
      rfl
    · rw [stops]
      rfl
  · omega

/-- The first round goes on to the end of the 64-bit range. -/
private theorem milestone_reached {start : ShmRecvWorker ℕ} (initial : start.Milestone 0) (k : ℕ)
    (room : mile k < 2 ^ 64) : ∃ worker, Reaches step Calm start worker ∧ worker.Milestone k := by
  induction k with
  | zero => exact ⟨start, .refl, initial⟩
  | succ k ih =>
    have climbs := mile_succ k
    obtain ⟨worker, reach, milestone⟩ := ih (by omega)
    obtain ⟨next, reachNext, arrived⟩ :
        ∃ next, Reaches step Calm worker next ∧ next.Milestone (k + 1) := by
      by_cases last : k % 2396738 = 2396737
      · exact milestone.wrap last room
      · exact milestone.data last room
    exact ⟨next, reach.trans reachNext, arrived⟩

end ShmRecvWorker

/-! ## The second round -/

namespace Sys

variable {ι : Type*} [DecidableEq ι] {sys : Sys ι} {c : ι} {message : Message} {gen pos born : ℕ}

/-- No step of a call changes header, generation or tail of the block. -/
theorem advanceMarked_frame (sys : Sys ι) (c : ι) (spurious : Bool) :
    (sys.advanceMarked c spurious).block.hdr = sys.block.hdr ∧
      (sys.advanceMarked c spurious).generation = sys.generation ∧
      (sys.advanceMarked c spurious).tail = sys.tail := by
  have frame (state : Sys ι) (flag : Bool) : (state.advance c flag).block.hdr = state.block.hdr ∧
      (state.advance c flag).generation = state.generation ∧
      (state.advance c flag).tail = state.tail :=
    sendStep_frame flag state.block (state.calls c).message (state.calls c).pc
  unfold Sys.advanceMarked
  split
  · exact frame sys spurious
  · split <;> simp only [frame, and_self]

/-- Seen from `sys`, call `c` has written its record at `pos`, committed and posted. -/
structure Published (sys next : Sys ι) (c : ι) (message : Message) (gen pos born : ℕ) : Prop where
  ring : SameRing sys next
  calls : next.calls = Function.update sys.calls c ⟨message, .done .none, born⟩
  semaphore : next.semaphore = sys.semaphore + 1
  header : readRecordHeader next.block.bytes (getHeaderOffset pos) = message.header gen stateCommitted
  payload : next.block.bytes.load (getHeaderOffset pos + 48) message.buf.length = message.buf
  low : ∀ query, query < getHeaderOffset pos → next.block.bytes query = sys.block.bytes query

/-- A call that has marked its record goes on to the end. -/
theorem publish_run (place : sys.calls c = ⟨message, .marked gen pos, born⟩)
    (range : message.InRange) (genSmall : gen < 2 ^ 64)
    (inside : pos % dataBlockSize + 48 + message.buf.length ≤ dataBlockSize) :
    ∃ next, Reaches step Sends sys next ∧ Published sys next c message gen pos born := by
  have run : Reaches step Sends sys
      ((List.replicate 5 (Action.advanceMarked c false)).foldl step sys) := by
    apply Reaches.foldl
    intro action member state
    rw [List.eq_of_mem_replicate member]
    trivial
  have stores : (List.replicate 5 (Action.advanceMarked c false)).foldl step sys = { sys with
      block.metaData.publishedCount := wrap64 (sys.block.metaData.publishedCount + 1)
      block.bytes := storeState ((storeFields sys.block.bytes (getHeaderOffset pos)
        (message.header gen stateWriting)).store (getHeaderOffset pos + 48) message.buf)
        (getHeaderOffset pos) stateCommitted
      calls := Function.update sys.calls c ⟨message, .done .none, born⟩
      semaphore := sys.semaphore + 1 } := by
    simp [List.replicate, step, advanceMarked, claimed, advance, sendStep, place,
      write_payload _ _ _ inside]
    rfl
  rw [stores] at run
  refine ⟨_, run, ⟨rfl, rfl, rfl, rfl, rfl, rfl, rfl⟩, rfl, rfl, ?_, ?_, ?_⟩
  · dsimp only
    rw [readRecordHeader_storeState _ _ _ (by decide),
      readRecordHeader_congr fun query _ upper => ByteMemory.store_outside _ _ _ _ (.inl upper),
      readRecordHeader_storeFields _ _ _ (range.header_fits genSmall)]
    rfl
  · refine (ByteMemory.load_congr fun query lower _ =>
      storeState_outside _ _ _ _ (.inr lower)).trans ?_
    exact ByteMemory.load_store_same ..
  · intro query below
    dsimp only
    rw [storeState_outside _ _ _ _ (.inl below), ByteMemory.store_outside _ _ _ _ (.inl (by omega)),
      storeFields_outside _ _ _ _ (.inl below)]

end Sys

private theorem mile_le {j k : ℕ} (le : j ≤ k) : mile j ≤ mile k := by
  refine monotone_nat_of_le_succ (fun n => ?_) le
  rw [mile_succ]
  exact Nat.le_add_right _ _

/-- The last record of the first round, and the record that it ends with. -/
def lastSmall : ℕ := 329406104905000079

theorem mile_last : mile (lastSmall + 1) = 2 ^ 64 - 112 := by decide

private theorem mile_lastSmall : mile lastSmall = 2 ^ 64 - 168 := by decide

theorem mile_small {k : ℕ} (le : k ≤ lastSmall + 1) : mile k < 2 ^ 64 := by
  refine (mile_le le).trans_lt ?_
  rw [mile_last]
  decide

/-- A label header that announces too large a label, and enough bytes to reach `2 ^ 64`. -/
def oversized : Message where
  id := 1
  label := 2
  seq := 5
  buf := LabelHeader.bytes ⟨magicNum, version, 1, LabelFlag.data.value, 2, maxLabelSize + 1, 0⟩ ++
    List.replicate 36 0

theorem oversized_inRange : oversized.InRange := by decide
theorem oversized_reserved : oversized.reserved = 112 := by decide

namespace Sys

/-- The head has climbed a second time up to the `k`-th small record; the calls from there on are
still held, and the call that passed the end of the range has not written its record yet. -/
structure SecondRound (sys : Sys ℕ) (k : ℕ) : Prop where
  ready : sys.block.hdr.state = shmReady
  generation : sys.generation = 1
  head : sys.head = mile k
  tail : sys.tail = mile (lastSmall + 1)
  held : ∀ j, k ≤ j → j ≤ lastSmall + 1 →
    sys.calls (2 * j) = ⟨early, ShmRecvWorker.heldAt 1 (mile j), 0⟩
  slow : sys.calls (2 * lastSmall + 3) = ⟨oversized, .marked 1 (mile (lastSmall + 1)), 0⟩
  quiet : ∀ c, (sys.calls c).pc.awaitsPost = false

variable {sys : Sys ℕ} {k : ℕ}

/-- One compare-exchange that was held back succeeds. -/
theorem SecondRound.next (second : sys.SecondRound k) (before : k ≤ lastSmall) :
    (sys.advanceMarked (2 * k) false).SecondRound (k + 1) := by
  have place := second.held k le_rfl (by omega)
  have others (pc : SendPc) (quiet : pc.awaitsPost = false) :
      (∀ j, k + 1 ≤ j → j ≤ lastSmall + 1 →
        Function.update sys.calls (2 * k) ⟨early, pc, 0⟩ (2 * j) =
          ⟨early, ShmRecvWorker.heldAt 1 (mile j), 0⟩) ∧
      Function.update sys.calls (2 * k) ⟨early, pc, 0⟩ (2 * lastSmall + 3) =
        ⟨oversized, .marked 1 (mile (lastSmall + 1)), 0⟩ ∧
      ∀ c, (Function.update sys.calls (2 * k) ⟨early, pc, 0⟩ c).pc.awaitsPost = false := by
    refine ⟨?_, ?_, ?_⟩
    · intro j later upTo
      rw [Function.update_of_ne (by omega)]
      exact second.held j (by omega) upTo
    · rw [Function.update_of_ne (by omega)]
      exact second.slow
    · intro c
      by_cases mine : c = 2 * k
      · rw [mine, Function.update_self]
        exact quiet
      · rw [Function.update_of_ne mine]
        exact second.quiet c
  have climbs : wrap64 (mile k + stride early (mile k)) = mile (k + 1) := by
    rw [← mile_succ, wrap64_of_lt (mile_small (by omega))]
  obtain ⟨pc, quiet, head, calls⟩ : ∃ pc, SendPc.awaitsPost pc = false ∧
      (sys.advanceMarked (2 * k) false).head = mile (k + 1) ∧
      (sys.advanceMarked (2 * k) false).calls = Function.update sys.calls (2 * k) ⟨early, pc, 0⟩ := by
    unfold ShmRecvWorker.heldAt at place
    unfold stride at climbs
    split_ifs at place climbs
    · rw [advanceMarked_casWrap place second.head (mile_boundary k)]
      exact ⟨_, rfl, climbs, rfl⟩
    · rw [advanceMarked_casData place second.head second.ready second.generation (mile_boundary k)]
      exact ⟨_, rfl, climbs, rfl⟩
  obtain ⟨hdr, generation, tail⟩ := sys.advanceMarked_frame (2 * k) false
  obtain ⟨held, slow, silent⟩ := others pc quiet
  rw [← calls] at held slow silent
  exact ⟨by rw [hdr]; exact second.ready, generation.trans second.generation, head,
    tail.trans second.tail, held, slow, silent⟩

/-- All of them in turn. -/
private theorem SecondRound.climb (second : sys.SecondRound 0) (upTo : k ≤ lastSmall) :
    ∃ next, Reaches step Sends sys next ∧ next.SecondRound k := by
  induction k with
  | zero => exact ⟨sys, .refl, second⟩
  | succ k ih =>
    obtain ⟨middle, reach, climbed⟩ := ih (by omega)
    exact ⟨_, reach.trans (.single (Action.advanceMarked (2 * k) false) trivial),
      climbed.next (by omega)⟩

end Sys

namespace Sys

/-- The last call of the second round has committed and posted, and head and tail are equal
again. -/
structure Stranded (sys : Sys ℕ) : Prop where
  ready : sys.block.hdr.state = shmReady
  generation : sys.generation = 1
  head : sys.head = mile (lastSmall + 1)
  tail : sys.tail = mile (lastSmall + 1)
  reserved : ⟨mile lastSmall, early.reserved, 2 * lastSmall, false⟩ ∈ sys.log
  committed : (readRecordHeader sys.block.bytes (getHeaderOffset (mile lastSmall))).state =
    stateCommitted
  held : sys.calls (2 * (lastSmall + 1)) = ⟨early, .casData 1 (mile (lastSmall + 1)) 0, 0⟩
  slow : sys.calls (2 * lastSmall + 3) = ⟨oversized, .marked 1 (mile (lastSmall + 1)), 0⟩
  quiet : ∀ c, (sys.calls c).pc.awaitsPost = false

variable {sys : Sys ℕ}

private theorem lastSmall_fits : lastSmall % 2396738 ≠ 2396737 := by decide

theorem lastSmall_offset : (lastSmall + 1) % 2396738 = 299598 := by decide

theorem heldAt_fits {k : ℕ} (fits : k % 2396738 ≠ 2396737) :
    ShmRecvWorker.heldAt 1 (mile k) = .casData 1 (mile k) 0 :=
  if_neg (by rwa [mile_overflows])

private theorem SecondRound.strand (second : sys.SecondRound lastSmall) :
    ∃ next, Reaches step Sends sys next ∧ next.Stranded := by
  have place := second.held lastSmall le_rfl (by omega)
  rw [heldAt_fits lastSmall_fits] at place
  have claims := advanceMarked_casData place second.head second.ready second.generation
    (mile_boundary lastSmall)
  have after := second.next le_rfl
  have reach : Reaches step Sends sys (sys.advanceMarked (2 * lastSmall) false) :=
    Reaches.single (Action.advanceMarked (2 * lastSmall) false) trivial
  have calls : (sys.advanceMarked (2 * lastSmall) false).calls =
      Function.update sys.calls (2 * lastSmall) ⟨early, .marked 1 (mile lastSmall), 0⟩ := by
        rw [claims]
  have marked : (sys.advanceMarked (2 * lastSmall) false).calls (2 * lastSmall) =
      ⟨early, .marked 1 (mile lastSmall), 0⟩ := by rw [calls, Function.update_self]
  have logged : ⟨mile lastSmall, early.reserved, 2 * lastSmall, false⟩ ∈
      (sys.advanceMarked (2 * lastSmall) false).log := by
    rw [claims]
    exact List.mem_append_right _ (List.mem_singleton_self _)
  generalize sys.advanceMarked (2 * lastSmall) false = claimed at after reach marked logged
  obtain ⟨next, reachNext, published⟩ := publish_run marked early_inRange (by decide) (by
    rw [mile_mod, dataBlockSize_eq]
    decide)
  refine ⟨next, reach.trans reachNext, ?_⟩
  have others (c : ℕ) (distinct : c ≠ 2 * lastSmall) : next.calls c = claimed.calls c := by
    rw [published.calls, Function.update_of_ne distinct]
  refine ⟨published.ring.state.trans after.ready, published.ring.generation.trans after.generation,
    published.ring.head.trans after.head, published.ring.tail.trans after.tail, ?_, ?_, ?_, ?_, ?_⟩
  · rw [published.ring.log]
    exact logged
  · rw [published.header]
    rfl
  · rw [others _ (by omega), after.held _ le_rfl le_rfl,
      heldAt_fits (by rw [lastSmall_offset]; decide)]
  · rw [others _ (by omega)]
    exact after.slow
  · intro c
    by_cases mine : c = 2 * lastSmall
    · rw [mine, published.calls, Function.update_self]
      rfl
    · rw [others c mine]
      exact after.quiet c

/-- On a ready block with equal head and tail a `recv` changes nothing. -/
private theorem receive_drained {ι : Type*} {sys : Sys ι} (ready : sys.block.hdr.state = shmReady)
    (empty : sys.head = sys.tail) :
    recv (recvFuel sys.block) sys.block sys.recvBuf recvBufSize =
      .returned ⟨{ code := .noRecords }, sys.block, sys.recvBuf, []⟩ ∧ sys.receive = sys := by
  have returned := recv_eq ready empty.ge
  rw [if_pos empty] at returned
  refine ⟨returned, ?_⟩
  rw [receive_eq returned]
  simp only [deliveryOf, reduceCtorEq, ↓reduceIte, List.append_nil]

end Sys

namespace ShmRecvWorker

open Sys

variable {worker : ShmRecvWorker ℕ}

/-- The call that passes the end of the 64-bit range sets the head back to zero. -/
theorem Milestone.overrun (milestone : worker.Milestone (lastSmall + 1)) :
    ∃ next, Reaches Shm.step Sends worker.sys next ∧ next.SecondRound 0 := by
  have small := mile_small (le_refl (lastSmall + 1))
  obtain ⟨held, reachHeld, holds⟩ := milestone.hold small
  have head : held.head = mile (lastSmall + 1) := holds.ring.head.trans milestone.head
  have tail : held.tail = mile (lastSmall + 1) := holds.ring.tail.trans milestone.tail
  have generation : held.generation = 1 := holds.ring.generation.trans milestone.generation
  have idle : (held.calls (2 * lastSmall + 3)).pc = .idle := by
    rw [holds.other _ (by omega)]
    exact milestone.idle _ (by omega)
  obtain ⟨searched, reachSearch, alone⟩ := search_alone holds.inv sends_moves idle
    oversized_inRange (by rw [holds.ring.reservedBytes, milestone.reservedBytes]; exact small) 0
  rw [checkSpace_drained holds.inv oversized_inRange (tail.trans head.symm), head, generation,
    if_neg (by
      rw [mile_mod, lastSmall_offset, oversized_reserved, dataUsableLimit_eq]
      decide)] at alone
  have searchedHead : searched.head = mile (lastSmall + 1) := alone.ring.head.trans head
  have claims := advanceMarked_casData alone.self searchedHead alone.inv.ready
    (alone.ring.generation.trans generation) (mile_boundary (lastSmall + 1))
  obtain ⟨hdr, sameGeneration, sameTail⟩ := searched.advanceMarked_frame (2 * lastSmall + 3) false
  have calls : (searched.advanceMarked (2 * lastSmall + 3) false).calls = Function.update
      searched.calls (2 * lastSmall + 3)
      ⟨oversized, .marked 1 (mile (lastSmall + 1)), held.incarnation⟩ := by rw [claims]
  have others (c : ℕ) (first : c ≠ 2 * (lastSmall + 1)) (second : c ≠ 2 * lastSmall + 3) :
      (searched.advanceMarked (2 * lastSmall + 3) false).calls c = worker.sys.calls c := by
    rw [calls, Function.update_of_ne second, alone.other c second, holds.other c first]
  have parked : (searched.advanceMarked (2 * lastSmall + 3) false).calls (2 * (lastSmall + 1)) =
      ⟨early, heldAt 1 (mile (lastSmall + 1)), 0⟩ := by
    rw [calls, Function.update_of_ne (by omega), alone.other _ (by omega), holds.self,
      milestone.incarnation]
  have slow : (searched.advanceMarked (2 * lastSmall + 3) false).calls (2 * lastSmall + 3) =
      ⟨oversized, .marked 1 (mile (lastSmall + 1)), 0⟩ := by
    rw [calls, Function.update_self, holds.ring.incarnation, milestone.incarnation]
  have reach : Reaches Shm.step Sends searched (searched.advanceMarked (2 * lastSmall + 3) false) :=
    Reaches.single (Shm.Action.advanceMarked (2 * lastSmall + 3) false) trivial
  refine ⟨_, (reachHeld.trans reachSearch).trans reach, ?_⟩
  refine ⟨by rw [hdr]; exact alone.inv.ready,
    sameGeneration.trans (alone.ring.generation.trans generation), ?_,
    sameTail.trans (alone.ring.tail.trans tail), ?_, slow, ?_⟩
  · rw [claims]
    change wrap64 (mile (lastSmall + 1) + oversized.reserved) = mile 0
    rw [mile_last, oversized_reserved]
    decide
  · intro j _ upTo
    by_cases last : j = lastSmall + 1
    · rw [last]
      exact parked
    · rw [others _ (by omega) (by omega)]
      exact milestone.held j (by omega)
  · intro c
    by_cases second : c = 2 * lastSmall + 3
    · rw [second, slow]
      rfl
    · by_cases first : c = 2 * (lastSmall + 1)
      · rw [first, parked, heldAt_fits (by rw [lastSmall_offset]; decide)]
        rfl
      · rw [others c first second]
        exact milestone.quiet c

end ShmRecvWorker

/-! ## The lost wakeup -/

namespace Sys

variable {sys : Sys ℕ}

theorem Stranded.withSemaphore (stranded : sys.Stranded) (count : ℕ) :
    Stranded { sys with semaphore := count } :=
  ⟨stranded.ready, stranded.generation, stranded.head, stranded.tail, stranded.reserved,
    stranded.committed, stranded.held, stranded.slow, stranded.quiet⟩

/-- The call that passed the end of the range commits its record where another one was reserved in
the meantime. -/
structure Overwritten (sys : Sys ℕ) : Prop where
  ready : sys.block.hdr.state = shmReady
  generation : sys.generation = 1
  head : sys.head = mile (lastSmall + 1) + early.reserved
  tail : sys.tail = mile (lastSmall + 1)
  reserved : ⟨mile lastSmall, early.reserved, 2 * lastSmall, false⟩ ∈ sys.log
  committed : (readRecordHeader sys.block.bytes (getHeaderOffset (mile lastSmall))).state =
    stateCommitted
  header : readRecordHeader sys.block.bytes (getHeaderOffset (mile (lastSmall + 1))) =
    oversized.header 1 stateCommitted
  payload : sys.block.bytes.load (getHeaderOffset (mile (lastSmall + 1)) + 48) oversized.buf.length =
    oversized.buf
  quiet : ∀ c, (sys.calls c).pc.awaitsPost = false
  semaphore : sys.semaphore = 1

theorem Stranded.overwrite (stranded : sys.Stranded) (blocked : sys.semaphore = 0) :
    ∃ next, Reaches step Sends sys next ∧ next.Overwritten := by
  have claims := advanceMarked_casData stranded.held stranded.head stranded.ready stranded.generation
    (mile_boundary (lastSmall + 1))
  have reach : Reaches step Sends sys (sys.advanceMarked (2 * (lastSmall + 1)) false) :=
    Reaches.single (Action.advanceMarked (2 * (lastSmall + 1)) false) trivial
  obtain ⟨hdr, generation, tail⟩ := sys.advanceMarked_frame (2 * (lastSmall + 1)) false
  have head : (sys.advanceMarked (2 * (lastSmall + 1)) false).head =
      wrap64 (mile (lastSmall + 1) + early.reserved) := by rw [claims]
  have calls : (sys.advanceMarked (2 * (lastSmall + 1)) false).calls = Function.update sys.calls
      (2 * (lastSmall + 1)) ⟨early, .marked 1 (mile (lastSmall + 1)), 0⟩ := by rw [claims]
  have log : (sys.advanceMarked (2 * (lastSmall + 1)) false).log =
      sys.log ++ [⟨mile (lastSmall + 1), early.reserved, 2 * (lastSmall + 1), false⟩] := by
        rw [claims]
  have semaphore : (sys.advanceMarked (2 * (lastSmall + 1)) false).semaphore = sys.semaphore := by
    rw [claims]
  have bytes : (sys.advanceMarked (2 * (lastSmall + 1)) false).block.bytes =
      storeState sys.block.bytes (getHeaderOffset (mile (lastSmall + 1))) stateWriting := by
        rw [claims]
  generalize sys.advanceMarked (2 * (lastSmall + 1)) false = claimed at *
  have slow : claimed.calls (2 * lastSmall + 3) =
      ⟨oversized, .marked 1 (mile (lastSmall + 1)), 0⟩ := by
    rw [calls, Function.update_of_ne (by omega)]
    exact stranded.slow
  obtain ⟨next, reachNext, published⟩ := publish_run slow oversized_inRange (by decide) (by
    rw [mile_mod, lastSmall_offset, dataBlockSize_eq]
    decide)
  refine ⟨next, reach.trans reachNext, ?_⟩
  have lower : getHeaderOffset (mile lastSmall) + 48 ≤ getHeaderOffset (mile (lastSmall + 1)) := by
    unfold getHeaderOffset
    rw [mile_mod, mile_mod]
    decide
  refine ⟨?_, ?_, ?_, ?_, ?_, ?_, published.header, published.payload, ?_, ?_⟩
  · rw [published.ring.state, hdr]
    exact stranded.ready
  · exact published.ring.generation.trans (generation.trans stranded.generation)
  · rw [published.ring.head, head, wrap64_of_lt (by rw [mile_last, early_reserved]; decide)]
  · exact published.ring.tail.trans (tail.trans stranded.tail)
  · rw [published.ring.log, log]
    exact List.mem_append_left _ stranded.reserved
  · have same : readRecordHeader next.block.bytes (getHeaderOffset (mile lastSmall)) =
        readRecordHeader sys.block.bytes (getHeaderOffset (mile lastSmall)) := by
      refine readRecordHeader_congr fun query _ upper => ?_
      rw [published.low query (by omega), bytes, storeState_outside _ _ _ _ (.inl (by omega))]
    rw [same]
    exact stranded.committed
  · intro c
    rw [published.calls]
    by_cases mine : c = 2 * lastSmall + 3
    · rw [mine, Function.update_self]
      rfl
    · rw [Function.update_of_ne mine, calls]
      by_cases other : c = 2 * (lastSmall + 1)
      · rw [other, Function.update_self]
        rfl
      · rw [Function.update_of_ne other]
        exact stranded.quiet c
  · rw [published.semaphore, semaphore, blocked]

end Sys

namespace ShmRecvWorker

open Sys

variable {worker : ShmRecvWorker ℕ}

/-- A drain that meets an empty ring ends and changes nothing. -/
theorem poll_drained (ready : worker.sys.block.hdr.state = shmReady)
    (empty : worker.sys.head = worker.sys.tail) (running : worker.stop = false)
    (draining : worker.pc = .draining) :
    worker.Calm (.poll false) ∧ worker.poll false = { worker with pc := .waiting } := by
  obtain ⟨returned, same⟩ := receive_drained ready empty
  refine ⟨calm_poll returned (.inr rfl), ?_⟩
  rw [poll_empty draining running returned rfl, same]

/-- A drain ends after a record whose label is too large. -/
private theorem poll_abandoned {run : RecvRun} (draining : worker.pc = .draining)
    (running : worker.stop = false)
    (returned : recv (recvFuel worker.sys.block) worker.sys.block worker.sys.recvBuf recvBufSize =
      .returned run)
    (found : run.data.code = .none) (abandoned : handleRecord run.data.bufSize run.buf = .abandoned) :
    worker.poll false = { worker with sys := worker.sys.receive, pc := .waiting } := by
  rw [poll, if_neg (not_not.mpr draining), returned]
  simp only [getNextRecord, found, take, abandoned, again, running, Bool.false_eq_true, ↓reduceIte]

/-- A worker with an empty ring uses up the posts. -/
private theorem exhaust (ready : worker.sys.block.hdr.state = shmReady)
    (empty : worker.sys.head = worker.sys.tail) (running : worker.stop = false)
    (waiting : worker.pc = .waiting) :
    ∃ next, Reaches step Calm worker next ∧ next.sys = { worker.sys with semaphore := 0 } ∧
      next.stop = false ∧ next.pc = .waiting := by
  induction posts : worker.sys.semaphore generalizing worker with
  | zero =>
    refine ⟨worker, .refl, ?_, running, waiting⟩
    rw [← posts]
  | succ count ih =>
    have woken := wake_eq waiting (by omega) running
    obtain ⟨calm, polled⟩ : worker.wake.Calm (.poll false) ∧
        worker.wake.poll false = { worker.wake with pc := .waiting } := by
      rw [woken]
      exact poll_drained ready empty running rfl
    have wakes : Reaches step Calm worker worker.wake := Reaches.single Action.wake trivial
    have reach : Reaches step Calm worker (worker.wake.poll false) := wakes.tail calm
    obtain ⟨next, reachNext, found⟩ : ∃ next, Reaches step Calm (worker.wake.poll false) next ∧
        next.sys = { worker.sys with semaphore := 0 } ∧ next.stop = false ∧ next.pc = .waiting := by
      rw [polled, woken]
      refine ih ?_ ?_ ?_ ?_ ?_
      · exact ready
      · exact empty
      · exact running
      · rfl
      · change worker.sys.semaphore - 1 = count
        omega
    exact ⟨next, reach.trans reachNext, found⟩

/-- The worker abandons the record that ends at `2 ^ 64` and waits, with the tail at zero. -/
private theorem abandons (overwritten : worker.sys.Overwritten) (running : worker.stop = false)
    (waiting : worker.pc = .waiting) :
    ∃ next, Reaches step Calm worker next ∧ next.pc = .waiting ∧ next.sys.semaphore = 0 ∧
      (∀ c, (next.sys.calls c).pc.awaitsPost = false) ∧ next.sys.CommittedRemains := by
  have woken := wake_eq waiting (by rw [overwritten.semaphore]; decide) running
  have reach : Reaches step Calm worker worker.wake := Reaches.single Action.wake trivial
  obtain ⟨ready, generation, head, tail, reserved, committed, header, payload, quiet, semaphore⟩ :=
    overwritten
  have tailEnd : wrap64 (worker.sys.tail + oversized.reserved) = 0 := by
    rw [tail, mile_last, oversized_reserved]
    decide
  obtain ⟨returned, _⟩ := recv_committed oversized ready
    (by rw [tail]; exact mile_boundary _) (by rw [head, tail, early_reserved]; omega)
    oversized_inRange
    (by rw [tail, mile_mod, lastSmall_offset, oversized_reserved, dataBlockSize_eq]; decide)
    (by rw [tail, generation]; exact header) (by rw [tail]; exact payload)
  rw [tailEnd] at returned
  have loaded : (worker.sys.recvBuf.store 0 oversized.buf).load 0 sizeofLabelHeader =
      oversized.buf.take sizeofLabelHeader := by
    have whole := ByteMemory.load_store_same worker.sys.recvBuf 0 oversized.buf
    have part := ByteMemory.load_slice (worker.sys.recvBuf.store 0 oversized.buf) 0
      (show 0 + sizeofLabelHeader ≤ oversized.buf.length by decide)
    rw [whole] at part
    exact part.symm
  have abandoned :
      handleRecord oversized.recvData.bufSize (worker.sys.recvBuf.store 0 oversized.buf) =
      .abandoned := by
    unfold handleRecord
    rw [loaded]
    dsimp only
    rw [if_neg (by decide), if_neg (by decide), if_pos (by decide)]
  obtain ⟨calm, polled⟩ : worker.wake.Calm (.poll false) ∧
      worker.wake.poll false =
        { worker.wake with sys := worker.wake.sys.receive, pc := .waiting } := by
    rw [woken]
    exact ⟨calm_poll returned (.inl rfl), poll_abandoned rfl running returned rfl abandoned⟩
  have found : recv (recvFuel worker.wake.sys.block) worker.wake.sys.block worker.wake.sys.recvBuf
      recvBufSize = .returned ⟨oversized.recvData, worker.sys.block.consumed 0,
        worker.sys.recvBuf.store 0 oversized.buf, [0]⟩ := by
    rw [woken]
    exact returned
  refine ⟨_, reach.tail calm, ?_⟩
  rw [step, polled, receive_eq found, woken]
  refine ⟨rfl, ?_, quiet, _, reserved, rfl, Nat.zero_le _, ?_, committed⟩
  · change worker.sys.semaphore - 1 = 0
    rw [semaphore]
  · change mile lastSmall < worker.sys.head
    rw [head, mile_last, mile_lastSmall]
    omega

/-- Without the bound on the bytes ever reserved, a committed record is left behind while the worker
waits and no post is outstanding. -/
theorem wakeup_lost_after_wrap_around : ¬ ∀ worker : ShmRecvWorker ℕ,
    Reaches step Calm (start 0 (Sys.initial (createOrOpen 0 .created).2 (fun _ => 0) 0)) worker →
    worker.pc = .waiting → worker.sys.semaphore = 0 →
    (∀ c, (worker.sys.calls c).pc.awaitsPost = false) → ¬ worker.sys.CommittedRemains := by
  intro never
  have fresh := createOrOpen_fresh (createOrOpen_created 0)
  have initial : (start 0 (Sys.initial (createOrOpen 0 .created).2 (fun _ => 0) 0) :
      ShmRecvWorker ℕ).Milestone 0 :=
    ⟨initial_inv fresh _ _, fresh.head, fresh.tail, rfl, rfl, rfl, fun _ _ => rfl, nofun,
      fun _ => rfl, rfl, .inr ⟨rfl, rfl⟩, .inr (by decide)⟩
  obtain ⟨worker, reach, milestone⟩ :=
    milestone_reached initial (lastSmall + 1) (mile_small le_rfl)
  obtain ⟨second, reachSecond, zero⟩ := milestone.overrun
  obtain ⟨climbed, reachClimbed, high⟩ := zero.climb le_rfl
  obtain ⟨sys, reachSys, stranded⟩ := high.strand
  have sends := sends_run ((reachSecond.trans reachClimbed).trans reachSys)
  have draining : worker.pc = .draining := by
    rcases milestone.drains with draining | ⟨zero, _⟩
    · exact draining
    · cases zero
  have level : sys.head = sys.tail := stranded.head.trans stranded.tail.symm
  obtain ⟨calm, polled⟩ : Calm { worker with sys := sys } (.poll false) ∧
      poll { worker with sys := sys } false = { worker with sys := sys, pc := .waiting } :=
    poll_drained stranded.ready level milestone.running draining
  have drained := sends.tail calm
  rw [step, polled] at drained
  obtain ⟨empty, reachEmpty, emptySys, running, waiting⟩ : ∃ next, Reaches step Calm
      { worker with sys := sys, pc := .waiting } next ∧ next.sys = { sys with semaphore := 0 } ∧
        next.stop = false ∧ next.pc = .waiting :=
    exhaust stranded.ready level milestone.running rfl
  have still := stranded.withSemaphore 0
  rw [← emptySys] at still
  obtain ⟨written, reachWritten, overwritten⟩ := still.overwrite (by rw [emptySys])
  obtain ⟨last, reachLast, blocked, none, quiet, remains⟩ : ∃ next, Reaches step Calm
      { empty with sys := written } next ∧ next.pc = .waiting ∧ next.sys.semaphore = 0 ∧
        (∀ c, (next.sys.calls c).pc.awaitsPost = false) ∧ next.sys.CommittedRemains :=
    abandons overwritten running waiting
  exact never last ((((reach.trans drained).trans reachEmpty).trans (sends_run reachWritten)).trans
    reachLast) blocked none quiet remains

end ShmRecvWorker

end Eroil.Shm
