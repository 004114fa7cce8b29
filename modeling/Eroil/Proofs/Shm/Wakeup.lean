import Eroil.Model.Shm.Worker
import Eroil.Proofs.Shm.Fifo
import Mathlib.Data.Finset.Card

/-! # No lost wakeup

A sender posts the semaphore once after it has committed its record, and the worker waits once
before it drains. One drain may consume many records, some of them not yet posted, and may stop
early after a record that it abandons. The invariant counts: the posts that were made are at most
the present count of the semaphore and the records that were delivered, with one more post in hand
while the worker drains. A drain that ends without a delivery has found nothing outstanding.
-/

namespace Eroil.Shm

open Lib

/-- The sender has committed its record and has not posted the semaphore yet. -/
def SendPc.awaitsPost : SendPc → Bool
  | .committed _ _ => true
  | .counted _ _ => true
  | _ => false

private theorem SendPc.done_of_hasCommitted {pc : SendPc} (committed : pc.hasCommitted = true)
    (posted : pc.awaitsPost = false) : pc = .done .none := by
  cases pc with
  | done result =>
    cases result with
    | none => rfl
    | _ => cases committed
  | committed | counted => cases posted
  | _ => cases committed

/-- A send returns success only through its post. -/
private theorem sendStep_done {spurious : Bool} {block : ShmBlock} {message : Message} {pc : SendPc}
    (success : (sendStep spurious block message pc).2 = .done .none) :
    (∃ gen head, pc = .counted gen head) ∨ pc = .done .none := by
  have retried (gen head tries : ℕ) : retry gen head tries ≠ .done .none := by
    rcases retry_cases gen head tries with loop | stop
    · rw [loop]
      exact nofun
    · rw [stop]
      exact nofun
  have checked (gen head tail tries : ℕ) : checkSpace message gen head tail tries ≠ .done .none := by
    unfold checkSpace
    split_ifs <;> exact nofun
  revert success
  fun_cases sendStep spurious block message pc <;> intro success
  all_goals
    first
    | exact .inl ⟨_, _, rfl⟩
    | exact .inr success
    | exact absurd success (retried _ _ _)
    | exact absurd success (checked _ _ _ _)
    | cases success
    | skip
  split at success
  · exact absurd success (retried _ _ _)
  · cases success

namespace Sys

variable {ι : Type*} {sys : Sys ι} {c : ι}

private theorem claimed_owner {spurious : Bool} {r : Reservation ι}
    (claim : sys.claimed c spurious = some r) :
    r.owner = c ∧ (sys.calls c).pc ≠ .done .none := by
  unfold claimed at claim
  split at claim
  · next place =>
    split_ifs at claim
    cases claim
    rw [place]
    exact ⟨rfl, nofun⟩
  · next place =>
    split_ifs at claim
    cases claim
    rw [place]
    exact ⟨rfl, nofun⟩
  · cases claim

/-- A data record whose header reads COMMITTED lies between tail and head. -/
def CommittedRemains (sys : Sys ι) : Prop :=
  ∃ r ∈ sys.log, r.wrap = false ∧ sys.tail ≤ r.pos ∧ r.pos < sys.head ∧
    (readRecordHeader sys.block.bytes (getHeaderOffset r.pos)).state = stateCommitted

/-- A header that reads COMMITTED was stored by a sender that has committed. -/
theorem Sound.hasCommitted (sound : sys.Sound) {r : Reservation ι} (member : r ∈ sys.log)
    (isData : r.wrap = false) (unread : sys.tail ≤ r.pos)
    (committed : (readRecordHeader sys.block.bytes (getHeaderOffset r.pos)).state = stateCommitted) :
    (sys.calls r.owner).pc.hasCommitted = true := by
  have owner := ((sound.inv.owned r member).data isData).2
  rw [← Reservation.phase_final_iff isData owner]
  have held := sound.inv.held r member unread
  have differs : stateWriting ≠ stateCommitted := by decide
  unfold Held at held
  change sys.phase r = .final
  cases stage : sys.phase r with
  | final => rfl
  | unmarked => exact absurd stage (Reservation.phase_of_settled (sound.settled r.owner))
  | marked =>
    rw [stage] at held
    exact absurd (held.symm.trans committed) differs
  | filled =>
    rw [stage] at held
    exact absurd ((congrArg RecordHeader.state held).symm.trans committed) differs
  | copied =>
    rw [stage] at held
    exact absurd ((congrArg RecordHeader.state held.1).symm.trans committed) differs

/-- The representation does not depend on the count of the semaphore. -/
theorem Inv.withSemaphore (inv : sys.Inv) (count : ℕ) : Inv { sys with semaphore := count } where
  ready := inv.ready
  generation := inv.generation
  counted := inv.counted
  window := inv.window
  headBoundary := inv.headBoundary
  tailBoundary := inv.tailBoundary
  tiled := inv.tiled
  placed := inv.placed
  owned r member :=
    ⟨(inv.owned r member).current, (inv.owned r member).range, (inv.owned r member).data⟩
  unique := inv.unique
  held := inv.held
  born := inv.born
  range := inv.range
  stored := inv.stored
  locals c current :=
    ⟨(inv.locals c current).searching, (inv.locals c current).wrap, (inv.locals c current).data,
      (inv.locals c current).done⟩

theorem Sound.withSemaphore (sound : sys.Sound) (count : ℕ) :
    Sound { sys with semaphore := count } :=
  ⟨sound.inv.withSemaphore count, ⟨sound.account.published, sound.account.delivered⟩, sound.settled,
    sound.first⟩

theorem receive_semaphore (sys : Sys ι) : sys.receive.semaphore = sys.semaphore := by
  unfold Sys.receive
  split <;> rfl

theorem receive_reservedBytes (sys : Sys ι) : sys.receive.reservedBytes = sys.reservedBytes := by
  unfold Sys.receive
  split <;> rfl

/-- With an empty queue every reserved record was delivered. -/
private theorem delivered_all (empty : sys.queue = []) :
    sys.reservations.length ≤ sys.delivered.length := by
  have nothing : sys.reservations.drop sys.delivered.length = [] := List.map_eq_nil_iff.mp empty
  exact List.drop_eq_nil_iff.mp nothing

variable [DecidableEq ι]

/-- The calls that have posted the semaphore. -/
def posted (sys : Sys ι) : Finset ι :=
  ((sys.log.filter fun r => (sys.calls r.owner).pc = .done .none).map Reservation.owner).toFinset

theorem mem_posted {d : ι} : d ∈ sys.posted ↔
    (∃ r ∈ sys.log, r.owner = d) ∧ (sys.calls d).pc = .done .none := by
  simp only [posted, List.mem_toFinset, List.mem_map, List.mem_filter, decide_eq_true_eq]
  constructor
  · rintro ⟨r, ⟨member, finished⟩, rfl⟩
    exact ⟨⟨r, member, rfl⟩, finished⟩
  · rintro ⟨⟨r, member, rfl⟩, finished⟩
    exact ⟨r, ⟨member, finished⟩, rfl⟩

theorem semaphore_le_advance (sys : Sys ι) (c : ι) (spurious : Bool) :
    sys.semaphore ≤ (sys.advance c spurious).semaphore := by
  simp only [Sys.advance]
  split <;> omega

/-- A step of a call posts at most once, and then the semaphore counts it. -/
theorem posted_advance (sys : Sys ι) (c : ι) (spurious : Bool) :
    (sys.advance c spurious).posted.card + sys.semaphore ≤
      sys.posted.card + (sys.advance c spurious).semaphore := by
  have moved := sys.advance_moved c spurious
  have others {d : ι} (member : d ∈ (sys.advance c spurious).posted) :
      d ∈ sys.posted ∨ d = c ∧ ∃ gen head, (sys.calls c).pc = .counted gen head := by
    obtain ⟨⟨r, inLog, owner⟩, finished⟩ := mem_posted.mp member
    have known : r ∈ sys.log ∨ r.owner = c ∧ (sys.calls c).pc ≠ .done .none := by
      rcases List.mem_append.mp inLog with earlier | new
      · exact .inl earlier
      · exact .inr (claimed_owner (Option.mem_toList.mp new))
    by_cases mine : d = c
    · subst mine
      rw [advance_pc] at finished
      rcases sendStep_done finished with posts | before
      · exact .inr ⟨rfl, posts⟩
      · rcases known with earlier | ⟨_, running⟩
        · exact .inl (mem_posted.mpr ⟨⟨r, earlier, owner⟩, before⟩)
        · exact absurd before running
    · rw [moved.other mine] at finished
      rcases known with earlier | ⟨here, _⟩
      · exact .inl (mem_posted.mpr ⟨⟨r, earlier, owner⟩, finished⟩)
      · exact absurd (owner.symm.trans here) mine
  by_cases posts : ∃ gen head, (sys.calls c).pc = .counted gen head
  · have subset : (sys.advance c spurious).posted ⊆ insert c sys.posted := by
      intro d member
      rcases others member with earlier | ⟨rfl, _⟩
      · exact Finset.mem_insert_of_mem earlier
      · exact Finset.mem_insert_self ..
    have count := (Finset.card_le_card subset).trans (Finset.card_insert_le c sys.posted)
    obtain ⟨gen, head, place⟩ := posts
    have semaphore : (sys.advance c spurious).semaphore = sys.semaphore + 1 := by
      simp only [Sys.advance, place]
    omega
  · have subset : (sys.advance c spurious).posted ⊆ sys.posted := by
      intro d member
      rcases others member with earlier | ⟨_, now⟩
      · exact earlier
      · exact absurd now posts
    have count := Finset.card_le_card subset
    have semaphore := sys.semaphore_le_advance c spurious
    omega

theorem posted_advanceMarked (sys : Sys ι) (c : ι) (spurious : Bool) :
    (sys.advanceMarked c spurious).posted.card + sys.semaphore ≤
      sys.posted.card + (sys.advanceMarked c spurious).semaphore := by
  have first := sys.posted_advance c spurious
  unfold Sys.advanceMarked
  split
  · exact first
  · have second := (sys.advance c spurious).posted_advance c false
    have third := ((sys.advance c spurious).advance c false).posted_advance c false
    split
    · have fourth :=
        (((sys.advance c spurious).advance c false).advance c false).posted_advance c false
      dsimp only
      omega
    · dsimp only
      omega

theorem posted_begin (sys : Sys ι) (c : ι) (message : Message) :
    (sys.begin c message).posted ⊆ sys.posted := by
  unfold Sys.begin
  split
  · intro d member
    obtain ⟨inLog, finished⟩ := mem_posted.mp member
    by_cases mine : d = c
    · rw [mine] at finished
      simp at finished
    · simp only [ne_eq, mine, not_false_eq_true, Function.update_of_ne] at finished
      exact mem_posted.mpr ⟨inLog, finished⟩
  · exact subset_rfl

/-- A call that has posted has a data record in the ring. -/
private theorem Inv.posted_le (inv : sys.Inv) (first : sys.incarnation = 0) :
    sys.posted.card ≤ sys.reservations.length := by
  have owners : sys.posted ⊆ (sys.reservations.map Reservation.owner).toFinset := by
    intro d member
    obtain ⟨_, finished⟩ := mem_posted.mp member
    obtain ⟨pos, inLog⟩ := (inv.locals d (inv.current_of_first first d)).done finished
    rw [List.mem_toFinset, mem_owners]
    exact ⟨_, inLog, rfl, rfl⟩
  calc
    sys.posted.card ≤ (sys.reservations.map Reservation.owner).toFinset.card :=
      Finset.card_le_card owners
    _ ≤ (sys.reservations.map Reservation.owner).length := List.toFinset_card_le _
    _ = sys.reservations.length := List.length_map ..

/-- If every post was answered by a delivery and no post is outstanding, then every committed record
was delivered. -/
theorem Sound.not_committedRemains (sound : sys.Sound)
    (answered : sys.posted.card ≤ sys.delivered.length)
    (settled : ∀ c, (sys.calls c).pc.awaitsPost = false) : ¬ sys.CommittedRemains := by
  rintro ⟨r, member, isData, lower, upper, committed⟩
  have last := sound.hasCommitted member isData lower committed
  obtain ⟨inv, account, _, first⟩ := sound
  have finished (other : Reservation ι) (inLog : other ∈ sys.log)
      (stored : (sys.calls other.owner).pc.hasCommitted = true) : other.owner ∈ sys.posted :=
    mem_posted.mpr ⟨⟨other, inLog, rfl⟩, SendPc.done_of_hasCommitted stored (settled other.owner)⟩
  -- the delivered records and this one belong to different calls, and all of them have posted
  have split : sys.reservations = sys.taken.filter (!·.wrap) ++ sys.unread.filter (!·.wrap) := by
    unfold reservations
    rw [← List.filter_append, ← inv.taken_tiles.1]
  have nodup := inv.owners_nodup
  rw [split, List.map_append, List.nodup_append] at nodup
  obtain ⟨takenNodup, _, disjoint⟩ := nodup
  have here : r ∈ sys.unread.filter (!·.wrap) :=
    List.mem_filter.mpr ⟨mem_unread.mpr ⟨member, lower⟩, by rw [isData]; rfl⟩
  have fresh : r.owner ∉ ((sys.taken.filter (!·.wrap)).map Reservation.owner).toFinset := by
    intro again
    exact disjoint _ (List.mem_toFinset.mp again) _ (List.mem_map_of_mem here) rfl
  have subset : insert r.owner ((sys.taken.filter (!·.wrap)).map Reservation.owner).toFinset ⊆
      sys.posted := by
    intro d inside
    rcases Finset.mem_insert.mp inside with rfl | earlier
    · exact finished r member last
    · obtain ⟨other, among, rfl⟩ := List.mem_map.mp (List.mem_toFinset.mp earlier)
      obtain ⟨inTaken, data⟩ := List.mem_filter.mp among
      obtain ⟨inLog, passed⟩ := List.mem_filter.mp inTaken
      have otherData : other.wrap = false := by simpa using data
      have owner := ((inv.owned other inLog).data otherData).2
      have final := account.published other inLog (by simpa using passed)
      exact finished other inLog ((Reservation.phase_final_iff otherData owner).mp final)
  have count := Finset.card_le_card subset
  rw [Finset.card_insert_of_notMem fresh, List.toFinset_card_of_nodup takenNodup,
    List.length_map] at count
  rw [account.delivered, List.length_map] at answered
  omega

private theorem receive_posted (sys : Sys ι) : sys.receive.posted = sys.posted := by
  unfold Sys.receive
  split <;> rfl

end Sys

namespace ShmRecvWorker

variable {ι : Type*} {worker : ShmRecvWorker ι}

/-- The next `recv` would make the worker re-initialise the block. -/
def Reinits (worker : ShmRecvWorker ι) : Prop :=
  ∃ run, recv (recvFuel worker.sys.block) worker.sys.block worker.sys.recvBuf recvBufSize =
      .returned run ∧
    (run.data.code = .tailCorruption ∨ run.data.code = .blockCorrupted ∨
        run.data.code = .unknownError)

/-- Schedules of senders and worker with payloads that fit the worker's buffer, without flush and
without re-initialisation. -/
def Calm (worker : ShmRecvWorker ι) : Action ι → Prop
  | .begin _ message => message.InRange
  | .poll expired => expired = false ∧ ¬ worker.Reinits
  | _ => True

variable [DecidableEq ι]

/-- Posts are counted by the semaphore or answered by deliveries, one of them by the drain that is
going on. -/
structure Awake (worker : ShmRecvWorker ι) : Prop where
  sound : worker.sys.Sound
  answered : worker.sys.posted.card ≤ worker.sys.semaphore + worker.sys.delivered.length +
    if worker.pc = .waiting then 0 else 1

/-- The outer loop of `run` goes on with posts that are all accounted for. -/
theorem Awake.again (sound : worker.sys.Sound)
    (answered : worker.sys.posted.card ≤ worker.sys.semaphore + worker.sys.delivered.length) :
    worker.again.Awake := by
  refine ⟨sound, ?_⟩
  change worker.sys.posted.card ≤ worker.sys.semaphore + worker.sys.delivered.length + _
  omega

/-- A delivery answers the post that started the drain, whatever becomes of the record. -/
theorem Awake.take (sound : worker.sys.Sound)
    (answered : worker.sys.posted.card ≤ worker.sys.semaphore + worker.sys.delivered.length)
    (run : RecvRun) : (worker.take run).Awake := by
  unfold ShmRecvWorker.take
  split
  · exact ⟨sound, by omega⟩
  · exact .again sound answered
  · refine ⟨sound, ?_⟩
    change worker.sys.posted.card ≤ worker.sys.semaphore + worker.sys.delivered.length + _
    omega

theorem Awake.poll (awake : worker.Awake) (bound : worker.sys.reservedBytes < 2 ^ 64) :
    (worker.poll false).Awake := by
  unfold ShmRecvWorker.poll
  split
  · exact awake
  · next draining =>
    obtain ⟨run, returned, _, empty, codes, _⟩ := (awake.sound.isFifo bound).recv
    have inHand := awake.answered
    rw [if_neg (by rw [not_not.mp draining]; exact nofun)] at inHand
    have sound : worker.sys.receive.Sound :=
      awake.sound.step (show Sys.Fused worker.sys .recv from trivial)
        (by rw [Shm.step, Sys.receive_reservedBytes]; exact bound)
    have delivered : worker.sys.receive.delivered.length =
        worker.sys.delivered.length + if run.data.code = .none then 1 else 0 := by
      rw [Sys.receive_eq returned]
      simp only [List.length_append, Sys.deliveryOf]
      split <;> rfl
    have posted := worker.sys.receive_posted
    have semaphore := worker.sys.receive_semaphore
    rw [returned]
    rcases codes with found | none_left | unfinished
    · simp only [getNextRecord, found]
      rw [found, if_pos rfl] at delivered
      exact .take sound (by dsimp only; rw [posted, semaphore]; omega) run
    · simp only [getNextRecord, none_left]
      have everything := Sys.delivered_all (empty.mp none_left)
      have few := awake.sound.inv.posted_le awake.sound.first
      exact .again sound (by dsimp only; rw [posted, semaphore]; omega)
    · simp only [getNextRecord, unfinished, Bool.false_eq_true, if_false]
      refine ⟨sound, ?_⟩
      dsimp only
      rw [posted, semaphore, if_neg (by rw [not_not.mp draining]; exact nofun)]
      omega

theorem Awake.wake (awake : worker.Awake) : worker.wake.Awake := by
  unfold ShmRecvWorker.wake
  split
  · exact awake
  · next ready =>
    have waiting : worker.pc = .waiting := by tauto
    have positive : worker.sys.semaphore ≠ 0 := by tauto
    have answered := awake.answered
    rw [if_pos waiting] at answered
    refine ⟨awake.sound.withSemaphore _, ?_⟩
    have drains : (if worker.stop then WorkerPc.exited else .draining) ≠ .waiting := by
      split <;> exact nofun
    rw [if_neg drains]
    change worker.sys.posted.card ≤ worker.sys.semaphore - 1 + worker.sys.delivered.length + 1
    omega

theorem Awake.waitError (awake : worker.Awake) : worker.waitError.Awake := by
  unfold ShmRecvWorker.waitError
  split
  · exact awake
  · next ready =>
    have answered := awake.answered
    rw [if_pos (not_not.mp ready)] at answered
    dsimp only
    split
    · refine ⟨awake.sound, ?_⟩
      change worker.sys.posted.card ≤ worker.sys.semaphore + worker.sys.delivered.length + _
      omega
    · exact .again awake.sound answered

/-- A step of a sender moves the count of the semaphore with the posts. -/
theorem Awake.send (awake : worker.Awake) {sys : Sys ι} (sound : sys.Sound)
    (delivered : sys.delivered = worker.sys.delivered)
    (posts : sys.posted.card + worker.sys.semaphore ≤ worker.sys.posted.card + sys.semaphore) :
    Awake { worker with sys := sys } := by
  have answered := awake.answered
  refine ⟨sound, ?_⟩
  dsimp only
  rw [delivered]
  omega

omit [DecidableEq ι] in
private theorem getNextRecord_reservedBytes (worker : ShmRecvWorker ι) (expired : Bool)
    (run : RecvRun) :
    (worker.getNextRecord expired run).sys.reservedBytes = worker.sys.reservedBytes := by
  have restarted : (worker.sys.restart worker.id).reservedBytes = worker.sys.reservedBytes := by
    unfold Sys.restart
    split <;> rfl
  unfold getNextRecord
  split
  · unfold take
    split <;> rfl
  · rfl
  · split <;> rfl
  · rfl
  · exact restarted
  · exact restarted
  · rfl
  · exact restarted

omit [DecidableEq ι] in
private theorem poll_reservedBytes (worker : ShmRecvWorker ι) (expired : Bool) :
    (worker.poll expired).sys.reservedBytes = worker.sys.reservedBytes := by
  unfold poll
  split
  · rfl
  · split
    · rw [getNextRecord_reservedBytes, Sys.receive_reservedBytes]
    · rfl
    · rfl

/-- No step takes back reserved bytes. -/
theorem reservedBytes_le_step (worker : ShmRecvWorker ι) (action : Action ι) :
    worker.sys.reservedBytes ≤ (worker.step action).sys.reservedBytes := by
  cases action with
  | begin c message => exact worker.sys.reservedBytes_le_step (.begin c message)
  | advanceMarked c spurious => exact worker.sys.reservedBytes_le_step (.advanceMarked c spurious)
  | wake =>
    simp only [step, wake]
    split <;> exact le_rfl
  | waitError =>
    simp only [step, waitError]
    split
    · exact le_rfl
    · split <;> exact le_rfl
  | poll expired => exact (worker.poll_reservedBytes expired).ge
  | requestStop => exact le_rfl

theorem Awake.step (awake : worker.Awake) {action : Action ι} (calm : worker.Calm action)
    (bound : (worker.step action).sys.reservedBytes < 2 ^ 64) : (worker.step action).Awake := by
  have before := (worker.reservedBytes_le_step action).trans_lt bound
  cases action with
  | begin c message =>
    have sound : (worker.sys.begin c message).Sound :=
      awake.sound.step (show Sys.Fused worker.sys (.begin c message) from calm) bound
    have few := Finset.card_le_card (worker.sys.posted_begin c message)
    refine awake.send sound ?_ ?_
    · unfold Sys.begin
      split <;> rfl
    · have semaphore : (worker.sys.begin c message).semaphore = worker.sys.semaphore := by
        unfold Sys.begin
        split <;> rfl
      omega
  | advanceMarked c spurious =>
    have sound : (worker.sys.advanceMarked c spurious).Sound :=
      awake.sound.step (show Sys.Fused worker.sys (.advanceMarked c spurious) from trivial) bound
    refine awake.send sound ?_ (worker.sys.posted_advanceMarked c spurious)
    unfold Sys.advanceMarked
    split
    · rfl
    · split <;> rfl
  | wake => exact awake.wake
  | waitError => exact awake.waitError
  | poll expired =>
    obtain ⟨rfl, -⟩ := calm
    exact awake.poll before
  | requestStop => exact ⟨awake.sound, awake.answered⟩

/-- Whenever the worker is blocked in `wait` and no sender is between its commit and its post, no
committed record is left in the ring, as long as positions do not wrap around. -/
theorem no_lost_wakeup {id : NodeId} {opened : OpenedBlock} {block : ShmBlock}
    (success : createOrOpen id opened = (true, block)) {buf : ByteMemory} {semaphore : ℕ}
    (run : Reaches step Calm (start id (Sys.initial block buf semaphore)) worker)
    (bound : worker.sys.reservedBytes < 2 ^ 64) (waiting : worker.pc = .waiting)
    (blocked : worker.sys.semaphore = 0)
    (posted : ∀ c, (worker.sys.calls c).pc.awaitsPost = false) : ¬ worker.sys.CommittedRemains := by
  have awake :=
    run.invariant (fun state => state.sys.reservedBytes < 2 ^ 64 → state.Awake) ?_ ?_ bound
  · have answered := awake.answered
    rw [if_pos waiting, blocked] at answered
    exact awake.sound.not_committedRemains (by omega) posted
  · intro _
    refine ⟨Sys.fused_sound (createOrOpen_fresh success) .refl (Nat.two_pow_pos 64), ?_⟩
    change (Sys.initial block buf semaphore : Sys ι).posted.card ≤ _
    simp [Sys.posted, Sys.initial]
  · intro state action holds calm small
    exact (holds ((state.reservedBytes_le_step action).trans_lt small)).step calm small

omit [DecidableEq ι] in
/-- A `recv` that finds a record or an empty ring does not make the worker re-initialise. -/
theorem calm_poll {run : RecvRun}
    (returned : recv (recvFuel worker.sys.block) worker.sys.block worker.sys.recvBuf recvBufSize =
      .returned run)
    (codes : run.data.code = .none ∨ run.data.code = .noRecords) : worker.Calm (.poll false) := by
  refine ⟨rfl, ?_⟩
  rintro ⟨run', again, bad⟩
  rw [returned] at again
  cases again
  rcases codes with found | empty
  · rw [found] at bad
    exact absurd bad (by decide)
  · rw [empty] at bad
    exact absurd bad (by decide)

/-- An executable form of the schedule condition. -/
def calmCheck (worker : ShmRecvWorker ι) : Action ι → Bool
  | .begin _ message => message.InRange
  | .poll expired =>
      !expired &&
        match recv (recvFuel worker.sys.block) worker.sys.block worker.sys.recvBuf recvBufSize with
        | .returned run => run.data.code = .none ∨ run.data.code = .noRecords
        | _ => false
  | _ => true

omit [DecidableEq ι] in
private theorem calmCheck_sound (worker : ShmRecvWorker ι) (action : Action ι)
    (passes : worker.calmCheck action = true) : worker.Calm action := by
  cases action with
  | begin c message =>
    have range : message.InRange := of_decide_eq_true passes
    exact range
  | poll expired =>
    simp only [calmCheck, Bool.and_eq_true, Bool.not_eq_true'] at passes
    obtain ⟨inTime, answer⟩ := passes
    rw [inTime]
    split at answer
    · next run returned => exact calm_poll returned (of_decide_eq_true answer)
    · cases answer
  | advanceMarked | wake | waitError | requestStop => trivial

/-- One send, and a worker that drains the block and waits again. -/
def sendAndDrain : List (Action Unit) :=
  .begin () ⟨3, 7, 9, [1, 2, 3]⟩ :: List.replicate 10 (.advanceMarked () false) ++
    [.wake, .poll false, .poll false]

def afterDrain : ShmRecvWorker Unit :=
  sendAndDrain.foldl step (start 0 (Sys.initial (createOrOpen 0 .created).2 (fun _ => 0) 0))

theorem no_lost_wakeup_afterDrain : afterDrain.pc = .waiting ∧ afterDrain.sys.log.length = 1 ∧
    ¬ afterDrain.sys.CommittedRemains := by
  have waiting : afterDrain.pc = .waiting := by decide +kernel
  have posted : (afterDrain.sys.calls ()).pc.awaitsPost = false := by decide +kernel
  refine ⟨waiting, by decide +kernel, ?_⟩
  exact no_lost_wakeup (createOrOpen_created 0)
    (.of_allSteps calmCheck_sound sendAndDrain _ (by decide +kernel)) (by decide +kernel) waiting
    (by decide +kernel) (fun () => posted)

end ShmRecvWorker

end Eroil.Shm
