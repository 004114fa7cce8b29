import Eroil.Proofs.Shm.Bounds

/-! # The ring is a queue ordered by reservation

The abstract queue holds one ticket for each outstanding reservation, oldest first; a ticket is
committed once its sender has stored COMMITTED. Wrap records and positions do not appear in it.
`recv` on the block and `Tickets.recv` on the queue give the same answer and the same rest.
-/

namespace Eroil.Shm

open Lib

/-- A reserved place in the queue. -/
structure Ticket where
  message : Message
  committed : Bool

inductive QueueAnswer where
  | empty
  | pending
  | message (message : Message)

/-- The oldest ticket decides; it leaves the queue only if it is committed. -/
def Ticket.recv : List Ticket → QueueAnswer × List Ticket
  | [] => (.empty, [])
  | ticket :: rest =>
      if ticket.committed then (.message ticket.message, rest) else (.pending, ticket :: rest)

/-- What an answer of the abstract queue means for the result of a `recv` call. -/
def RecvRun.Shows (run : RecvRun) : QueueAnswer → Prop
  | .empty => run.data.code = .noRecords
  | .pending => run.data.code = .notYetPublished
  | .message message =>
      run.data = ⟨.none, message.id, message.label, message.seq.toNat, message.buf.length⟩ ∧
        run.buf.load 0 message.buf.length = message.buf

/-- The sender has stored COMMITTED. -/
def SendPc.hasCommitted : SendPc → Bool
  | .committed _ _ => true
  | .counted _ _ => true
  | .done .none => true
  | _ => false

/-- The owner of a data reservation has published it exactly when it has stored COMMITTED. -/
theorem Reservation.phase_final_iff {ι : Type*} {r : Reservation ι} {pc : SendPc}
    (isData : r.wrap = false) (owner : pc.OwnsData r.pos) :
    r.phase pc = .final ↔ pc.hasCommitted = true := by
  rcases owner with ⟨gen, writing⟩ | rfl
  · cases pc <;> cases writing <;> simp [Reservation.phase, SendPc.hasCommitted, isData]
  · simp [Reservation.phase, SendPc.hasCommitted]

namespace Sys

variable {ι : Type*} {sys : Sys ι} {c : ι}

/-- The data reservations since the last initialisation, oldest first. -/
def reservations (sys : Sys ι) : List (Reservation ι) := sys.log.filter (!·.wrap)

/-- The data reservations that have not been delivered. -/
def outstanding (sys : Sys ι) : List (Reservation ι) := sys.reservations.drop sys.delivered.length

def ticket (sys : Sys ι) (r : Reservation ι) : Ticket :=
  ⟨(sys.calls r.owner).message, (sys.calls r.owner).pc.hasCommitted⟩

/-- The abstract queue that a state stands for. -/
def queue (sys : Sys ι) : List Ticket := sys.outstanding.map sys.ticket

/-- The ring as a queue: what was delivered is a run of the oldest reservations with the contents
that were sent, every successful call has one place and a failed call has none, and the next
`recv` answers as the abstract queue does. -/
structure IsFifo (sys : Sys ι) : Prop where
  ordered : sys.delivered.map (fun entry => (entry.data, entry.payload)) =
    (sys.reservations.take sys.delivered.length).map fun r =>
      (⟨.none, (sys.calls r.owner).message.id, (sys.calls r.owner).message.label,
        (sys.calls r.owner).message.seq.toNat, (sys.calls r.owner).message.buf.length⟩,
        (sys.calls r.owner).message.buf)
  once : (sys.reservations.map Reservation.owner).Nodup
  returned : ∀ c, (sys.calls c).pc = .done .none → c ∈ sys.reservations.map Reservation.owner
  failed : ∀ c code, (sys.calls c).pc = .done code → code ≠ .none →
    c ∉ sys.reservations.map Reservation.owner
  recv : ∃ run, recv (recvFuel sys.block) sys.block sys.recvBuf recvBufSize = .returned run ∧
    run.Shows (Ticket.recv sys.queue).1 ∧ (run.data.code = .noRecords ↔ sys.queue = []) ∧
    (run.data.code = .none ∨ run.data.code = .noRecords ∨ run.data.code = .notYetPublished) ∧
    sys.receive.queue = (Ticket.recv sys.queue).2

theorem Account.outstanding_eq (account : sys.Account) (inv : sys.Inv) :
    sys.outstanding = sys.unread.filter (!·.wrap) ∧
      sys.reservations.take sys.delivered.length = sys.taken.filter (!·.wrap) := by
  obtain ⟨whole, _, _⟩ := inv.taken_tiles
  have length : sys.delivered.length = (sys.taken.filter (!·.wrap)).length := by
    rw [account.delivered, List.length_map]
  have split : sys.reservations = sys.taken.filter (!·.wrap) ++ sys.unread.filter (!·.wrap) := by
    unfold reservations
    rw [← List.filter_append, ← whole]
  unfold outstanding
  rw [split, length, List.drop_left, List.take_left]
  exact ⟨rfl, rfl⟩

/-- No call has two data reservations. -/
theorem Inv.owners_nodup (inv : sys.Inv) : (sys.reservations.map Reservation.owner).Nodup := by
  have distinct := inv.tiles.pairwise.filter (!·.wrap)
  unfold List.Nodup
  rw [List.pairwise_map]
  refine distinct.imp_of_mem ?_
  intro left right leftMem rightMem before same
  obtain ⟨leftLog, leftData⟩ := List.mem_filter.mp leftMem
  obtain ⟨rightLog, rightData⟩ := List.mem_filter.mp rightMem
  have equal := inv.unique left leftLog right rightLog (by simpa using leftData)
    (by simpa using rightData) same
  have positive := (inv.tiles.mem_bounds leftLog).2.2
  omega

theorem mem_owners {c : ι} : c ∈ sys.reservations.map Reservation.owner ↔
    ∃ r ∈ sys.log, r.wrap = false ∧ r.owner = c := by
  simp only [reservations, List.mem_map, List.mem_filter, Bool.not_eq_eq_eq_not, Bool.not_true,
    and_assoc]

/-- A committed record that is still unread holds what its call sent. -/
theorem Inv.read_committed (inv : sys.Inv) {r : Reservation ι} (unread : r ∈ sys.unread)
    (isData : r.wrap = false) (committed : (sys.calls r.owner).pc.hasCommitted = true) :
    readRecordHeader sys.block.bytes (getHeaderOffset r.pos) =
        (sys.calls r.owner).message.header sys.generation stateCommitted ∧
      sys.block.bytes.load (getHeaderOffset r.pos + 48) (sys.calls r.owner).message.buf.length =
        (sys.calls r.owner).message.buf := by
  have owner := ((inv.owned r (mem_unread.mp unread).1).data isData).2
  have record := inv.read_final unread ((Reservation.phase_final_iff isData owner).mpr committed)
  simp only [Reservation.header, Reservation.payload, isData, Bool.false_eq_true, ↓reduceIte]
    at record
  exact record

/-- The answer of `recv` and the queue it leaves, from the unread part of the log. -/
theorem Account.recv_queue (account : sys.Account) (inv : sys.Inv)
    (bound : sys.reservedBytes < 2 ^ 64) (safe : sys.RecvSafe)
    (published : ∀ r ∈ sys.log, r.wrap = true → sys.phase r = .final) :
    ∃ run, Shm.recv (recvFuel sys.block) sys.block sys.recvBuf recvBufSize = .returned run ∧
      run.Shows (Ticket.recv sys.queue).1 ∧ (run.data.code = .noRecords ↔ sys.queue = []) ∧
      (run.data.code = .none ∨ run.data.code = .noRecords ∨ run.data.code = .notYetPublished) ∧
      sys.receive.queue = (Ticket.recv sys.queue).2 := by
  obtain ⟨run, returned, view⟩ := inv.recv_view bound safe
  have queue : sys.queue = (sys.unread.filter (!·.wrap)).map sys.ticket := by
    unfold Sys.queue
    rw [(account.outstanding_eq inv).1]
  have after : sys.receive.queue = sys.queue.drop (deliveryOf sys.consumedAt run).length := by
    rw [receive_eq returned]
    simp only [Sys.queue, outstanding, reservations, List.length_append, ← List.drop_drop,
      List.map_drop]
    rfl
  refine ⟨run, returned, ?_⟩
  rw [after]
  generalize sys.consumedAt = stop at view ⊢
  cases view with
  | drained skipped =>
    rw [queue, skipped_filter skipped]
    exact ⟨rfl, ⟨fun _ => rfl, fun _ => rfl⟩, .inr (.inl rfl), rfl⟩
  | waiting wraps rest r split skipped unfinished =>
    have member := mem_unread_of_split split
    have inLog := (mem_unread.mp member).1
    have isData : r.wrap = false := by
      by_contra notData
      exact unfinished (published r inLog (by simpa using notData))
    have owner := ((inv.owned r inLog).data isData).2
    have uncommitted : ¬ (sys.ticket r).committed = true :=
      fun committed => unfinished ((Reservation.phase_final_iff isData owner).mpr committed)
    have tickets : sys.queue = sys.ticket r :: (rest.filter (!·.wrap)).map sys.ticket := by
      rw [queue, split, List.filter_append, skipped_filter skipped, List.nil_append,
        List.filter_cons_of_pos (by rw [isData]; rfl), List.map_cons]
    rw [tickets, Ticket.recv, if_neg uncommitted]
    exact ⟨rfl, ⟨nofun, nofun⟩, .inr (.inr rfl), rfl⟩
  | found wraps rest r split skipped isData final =>
    have member := mem_unread_of_split split
    have owner := ((inv.owned r (mem_unread.mp member).1).data isData).2
    have committed : (sys.ticket r).committed = true :=
      (Reservation.phase_final_iff isData owner).mp final
    have tickets : sys.queue = sys.ticket r :: (rest.filter (!·.wrap)).map sys.ticket := by
      rw [queue, split, List.filter_append, skipped_filter skipped, List.nil_append,
        List.filter_cons_of_pos (by rw [isData]; rfl), List.map_cons]
    rw [tickets, Ticket.recv, if_pos committed]
    refine ⟨⟨rfl, ByteMemory.load_store_same ..⟩, ⟨nofun, nofun⟩, .inl rfl, rfl⟩

theorem Sound.isFifo (sound : sys.Sound) (bound : sys.reservedBytes < 2 ^ 64) : sys.IsFifo := by
  obtain ⟨inv, account, settled, first⟩ := sound
  have current := inv.current_of_first first
  refine ⟨?_, inv.owners_nodup, ?_, ?_, account.recv_queue inv bound (recvSafe_of_settled settled) ?_⟩
  · rw [(account.outstanding_eq inv).2, account.delivered, List.map_map]
    rfl
  · intro c finished
    obtain ⟨pos, member⟩ := (inv.locals c (current c)).done finished
    exact mem_owners.mpr ⟨_, member, rfl, rfl⟩
  · intro c code finished unsuccessful place
    obtain ⟨r, member, isData, mine⟩ := mem_owners.mp place
    have owner := ((inv.owned r member).data isData).2
    rw [mine, finished] at owner
    refine SendPc.not_ownsData (show (SendPc.done code).dataAt = none from rfl) ?_ _ owner
    exact fun same => unsuccessful (SendPc.done.inj same)
  · intro r member isWrap
    refine Reservation.phase_of_wrap isWrap ?_
    have stage := settled r.owner
    cases pc : (sys.calls r.owner).pc <;> rw [pc] at stage <;> first | rfl | exact stage.elim

/-- A log that reaches up to the end of the block ends with a wrap record. -/
theorem Inv.wrapped {sys : Sys ι} (inv : sys.Inv) (full : sys.head = dataBlockSize) :
    ∃ r ∈ sys.log, r.wrap = true := by
  have tiles := inv.tiles
  rcases List.eq_nil_or_concat sys.log with empty | ⟨before, r, whole⟩
  · rw [empty, full] at tiles
    exact absurd (show 0 = dataBlockSize from tiles) (by decide)
  · rw [whole, List.concat_eq_append] at tiles
    have member : r ∈ sys.log := by simp [whole]
    obtain ⟨_, _, rfl, positive, ends⟩ := Tiles.append_iff.mp tiles
    refine ⟨r, member, ?_⟩
    by_contra isData
    have inside := (inv.placed r member).inside
    rw [if_neg isData] at inside
    have last : r.pos + r.size = sys.head := ends
    rw [full] at last
    rw [dataUsableLimit_eq] at inside
    rw [dataBlockSize_eq] at inside last
    omega

variable [DecidableEq ι]

/-- On every block that `create_or_open` initialised, and along every schedule of reservation
steps, commit steps and `recv` calls with payloads that fit the worker's buffer, the ring is a
queue ordered by reservation. -/
theorem ring_is_fifo {id : NodeId} {opened : OpenedBlock} {block : ShmBlock}
    (success : createOrOpen id opened = (true, block)) {buf : ByteMemory} {semaphore : ℕ}
    (run : Reaches step Fused (Sys.initial block buf semaphore) sys)
    (bound : sys.reservedBytes < 2 ^ 64) : sys.IsFifo :=
  (fused_sound (createOrOpen_fresh success) run bound).isFifo bound

/-- Two calls at once: the one that begins second reserves first and commits last. -/
def crossing : List (Action Bool) :=
  .begin false ⟨3, 7, 9, [1, 2, 3]⟩ :: .begin true ⟨4, 8, 10, [5]⟩ ::
    List.replicate 4 (.advanceMarked false false) ++ List.replicate 5 (.advanceMarked true false) ++
    .recv :: List.replicate 10 (.advanceMarked false false) ++ .recv ::
    List.replicate 10 (.advanceMarked true false) ++ [.recv, .recv]

def afterCrossing : Sys Bool :=
  crossing.foldl step (Sys.initial (createOrOpen 0 .created).2 (fun _ => 0) 0)

private theorem crossing_reaches : Reaches step Fused
    (Sys.initial (createOrOpen 0 .created).2 (fun _ => 0) 0) afterCrossing := by
  have first : Message.InRange ⟨3, 7, 9, [1, 2, 3]⟩ := by decide
  have second : Message.InRange ⟨4, 8, 10, [5]⟩ := by decide
  apply Reaches.foldl
  simp [crossing, Fused, or_imp, forall_and, first, second]

/-- The calls of two senders cross, and other calls fill the block up to a wrap record. -/
theorem ring_is_fifo_crossing :
    afterCrossing.IsFifo ∧ afterCrossing.delivered.map Delivery.payload = [[5], [1, 2, 3]] ∧
      ∃ sys : Sys ℕ, sys.IsFifo ∧ ∃ r ∈ sys.log, r.wrap = true := by
  have fresh := createOrOpen_fresh (createOrOpen_created 0)
  let start : Sys ℕ := Sys.initial (createOrOpen 0 .created).2 (fun _ => 0) 0
  have inv : start.Inv := initial_inv fresh _ _
  have head : start.head = 0 := fresh.head
  have free : spaceTilWrap start.head = dataBlockSize := by
    rw [head, spaceTilWrap, Nat.zero_mod, Nat.sub_zero]
  have none : start.reservedBytes = 0 := rfl
  have small : start.reservedBytes + spaceTilWrap start.head < 2 ^ 64 := by
    rw [none, free, dataBlockSize_eq]
    decide
  obtain ⟨next, reach, passed⟩ : ∃ next, Reaches step Fused start next ∧
      Passed start next 0 0 (spaceTilWrap start.head) :=
    inv.lap fused_permits (fun _ _ => rfl) (fresh.tail.trans fresh.head.symm) small (Nat.zero_le _)
  have bytes : next.reservedBytes < 2 ^ 64 := passed.reservedBytes.trans_lt small
  have full : next.head = dataBlockSize := by rw [passed.head, free, head, Nat.zero_add]
  exact
    ⟨ring_is_fifo (createOrOpen_created 0) crossing_reaches (by decide +kernel), by decide +kernel,
    next, ring_is_fifo (createOrOpen_created 0) reach bytes, passed.inv.wrapped full⟩

end Sys

end Eroil.Shm
