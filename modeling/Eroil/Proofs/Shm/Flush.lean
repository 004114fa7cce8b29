import Eroil.Proofs.Shm.Fifo
import Eroil.Proofs.Shm.Stale

/-! # Flushing the backlog of a slow sender

`get_next_record` gives up on a record that stays WRITING and moves the tail to the head. The
sender may only be slow: it still writes header, payload and state into the bytes it reserved.
That is harmless until the ring comes around and another reservation covers them.
-/

namespace Eroil.Shm.Sys

open Lib

variable {ι : Type*} {sys : Sys ι}

/-- Schedules in which reserving and marking are one step, with a flush whenever the record at the
tail is WRITING, without re-initialisation. -/
def Flushes (sys : Sys ι) : Action ι → Prop
  | .begin _ message => message.InRange
  | .advanceMarked _ _ => True
  | .recv => True
  | .flush => sys.tail < sys.head ∧
      (readRecordHeader sys.block.bytes (getHeaderOffset sys.tail)).state = stateWriting
  | _ => False

/-- Such schedules in which a sender stores only to its own unread reservation or to bytes that no
unread reservation covers. -/
def FlushesSafely (sys : Sys ι) (action : Action ι) : Prop :=
  sys.Flushes action ∧
    match action with
    | .advanceMarked c _ => sys.StoreSafe c
    | _ => True

/-- A record that `recv` returns is the record of the call that reserved its place, every committed
record that is still unread holds what its call sent, and so did every record delivered so far. -/
structure Untorn (sys : Sys ι) : Prop where
  recv : ∃ run, recv (recvFuel sys.block) sys.block sys.recvBuf recvBufSize = .returned run ∧
    (run.data.code = .none → ∃ r ∈ sys.log, r.pos = sys.consumedAt ∧ r.wrap = false ∧
      run.data = (sys.calls r.owner).message.recvData ∧
      run.buf.load 0 run.data.bufSize = (sys.calls r.owner).message.buf)
  intact : ∀ r ∈ sys.unread, r.wrap = false → (sys.calls r.owner).pc.hasCommitted = true →
    readRecordHeader sys.block.bytes (getHeaderOffset r.pos) =
        (sys.calls r.owner).message.header sys.generation stateCommitted ∧
      sys.block.bytes.load (getHeaderOffset r.pos + 48) (sys.calls r.owner).message.buf.length =
        (sys.calls r.owner).message.buf
  delivered : ∀ entry ∈ sys.delivered, ∃ c, entry.data = (sys.calls c).message.recvData ∧
    entry.payload = (sys.calls c).message.buf

/-- Every delivery is the message of a data reservation. -/
def Traced (sys : Sys ι) : Prop :=
  ∀ entry ∈ sys.delivered, ∃ r ∈ sys.log, r.wrap = false ∧ entry = sys.delivery r

/-- What holds along schedules with flushes. -/
structure FlushSound (sys : Sys ι) : Prop where
  inv : sys.Inv
  settled : ∀ c, (sys.calls c).pc.Settled
  first : sys.incarnation = 0
  traced : sys.Traced

theorem FlushSound.untorn (sound : sys.FlushSound) (bound : sys.reservedBytes < 2 ^ 64) :
    sys.Untorn := by
  obtain ⟨inv, settled, _, traced⟩ := sound
  obtain ⟨run, returned, view⟩ := inv.recv_view bound (recvSafe_of_settled settled)
  refine ⟨⟨run, returned, ?_⟩, ?_, fun entry member => ?_⟩
  · generalize sys.consumedAt = stop at view ⊢
    cases view with
    | drained skipped => exact nofun
    | waiting wraps rest r split skipped unfinished => exact nofun
    | found wraps rest r split skipped isData final =>
      have unread := mem_unread_of_split split
      exact fun _ => ⟨r, (mem_unread.mp unread).1, rfl, isData, rfl, ByteMemory.load_store_same ..⟩
  · exact fun r unread isData committed => inv.read_committed unread isData committed
  · obtain ⟨r, _, _, rfl⟩ := traced entry member
    exact ⟨r.owner, rfl, rfl⟩

/-- Deliveries stay traced while the log grows and the owners of data reservations keep their
messages. -/
theorem Traced.mono {next : Sys ι} (traced : sys.Traced) (delivered : next.delivered = sys.delivered)
    (log : ∀ r ∈ sys.log, r ∈ next.log)
    (message : ∀ r ∈ sys.log, r.wrap = false →
      (next.calls r.owner).message = (sys.calls r.owner).message) : next.Traced := by
  intro entry member
  rw [delivered] at member
  obtain ⟨r, inLog, isData, rfl⟩ := traced entry member
  refine ⟨r, log r inLog, isData, ?_⟩
  unfold delivery
  rw [message r inLog isData]

theorem Traced.receive (traced : sys.Traced) (inv : sys.Inv) (bound : sys.reservedBytes < 2 ^ 64)
    (safe : sys.RecvSafe) : sys.receive.Traced := by
  obtain ⟨run, returned, view⟩ := inv.recv_view bound safe
  rw [receive_eq returned]
  generalize sys.consumedAt = stop at view
  intro entry member
  rcases List.mem_append.mp member with earlier | new
  · exact traced entry earlier
  · cases view with
    | drained skipped => cases new
    | waiting wraps rest r split skipped unfinished => cases new
    | found wraps rest r split skipped isData final =>
      have unread := mem_unread_of_split split
      refine ⟨r, (mem_unread.mp unread).1, isData, ?_⟩
      have payload : (sys.recvBuf.store 0 (sys.calls r.owner).message.buf).load 0
          (sys.calls r.owner).message.buf.length = (sys.calls r.owner).message.buf :=
        ByteMemory.load_store_same ..
      simp only [deliveryOf, Message.recvData, ↓reduceIte, List.mem_singleton, payload] at new
      exact new

variable [DecidableEq ι]

/-- Every step of a schedule with harmless stores keeps the system sound. -/
theorem FlushSound.step (sound : sys.FlushSound) {action : Action ι}
    (allowed : sys.FlushesSafely action) (bound : (step sys action).reservedBytes < 2 ^ 64) :
    (step sys action).FlushSound := by
  have before : sys.reservedBytes < 2 ^ 64 := (sys.reservedBytes_le_step action).trans_lt bound
  obtain ⟨inv, settled, first, traced⟩ := sound
  obtain ⟨kind, safe⟩ := allowed
  have current := inv.current_of_first first
  have closed : Closed action := by cases action <;> trivial
  have nextSettled := inv.settled_step current settled closed
  have nextFirst : (Shm.step sys action).incarnation = 0 :=
    (sys.incarnation_step action (by rintro id rfl; exact kind)).trans first
  cases action with
  | begin c message =>
    refine ⟨inv.begin kind, nextSettled, nextFirst, ?_⟩
    simp only [Shm.step]
    exact traced.mono (by unfold Sys.begin; split <;> rfl)
      (by unfold Sys.begin; split <;> exact fun _ member => member)
      (fun r member isData => inv.begin_message member isData)
  | advanceMarked c spurious =>
    obtain ⟨nextInv, nextTraced, _⟩ := inv.advanceMarked_induct Traced safe (fun _ => current c)
      ((sys.advance_le_advanceMarked c spurious).trans_lt bound) traced
      fun state flag _ _ _ _ holds => holds.mono rfl (fun _ member => List.mem_append_left _ member)
        (fun r _ _ => (state.advance_moved c flag).message r.owner)
    exact ⟨nextInv, nextSettled, nextFirst, nextTraced⟩
  | recv =>
    have unmarked := recvSafe_of_settled settled
    exact ⟨inv.receive before unmarked, nextSettled, nextFirst, traced.receive inv before unmarked⟩
  | flush =>
    exact ⟨inv.flush, nextSettled, nextFirst,
      traced.mono rfl (fun _ member => member) (fun _ _ _ => rfl)⟩
  | advance | reinit | mangle => exact kind.elim

/-- Along every schedule with flushes whose stores are harmless, no record is torn. -/
theorem flush_never_tears {id : NodeId} {opened : OpenedBlock} {block : ShmBlock}
    (success : createOrOpen id opened = (true, block)) {buf : ByteMemory} {semaphore : ℕ}
    (run : Reaches step FlushesSafely (Sys.initial block buf semaphore) sys)
    (bound : sys.reservedBytes < 2 ^ 64) : sys.Untorn := by
  have fresh := createOrOpen_fresh success
  have sound := invariant_while_bounded FlushSound
    ⟨initial_inv fresh buf semaphore, fun _ => trivial, rfl, nofun⟩
    (fun _ _ sound allowed small => sound.step allowed small) run bound
  exact sound.untorn bound

/-- An executable condition for steps with harmless stores. -/
def flushCheck (sys : Sys ι) : Action ι → Bool
  | .begin _ message => decide message.InRange
  | .advanceMarked c _ => sys.ownStep c
  | .recv => true
  | .flush => sys.tail < sys.head &&
      (readRecordHeader sys.block.bytes (getHeaderOffset sys.tail)).state = stateWriting
  | _ => false

omit [DecidableEq ι] in
private theorem flushCheck_sound (sys : Sys ι) (action : Action ι)
    (passes : sys.flushCheck action = true) :
    sys.FlushesSafely action := by
  cases action with
  | begin c message =>
    have range : message.InRange := of_decide_eq_true passes
    exact ⟨range, trivial⟩
  | advanceMarked c spurious => exact ⟨trivial, ownStep_stores passes⟩
  | recv => exact ⟨trivial, trivial⟩
  | flush =>
    obtain ⟨behind, writing⟩ := Bool.and_eq_true_iff.mp passes
    exact ⟨⟨of_decide_eq_true behind, of_decide_eq_true writing⟩, trivial⟩
  | advance | reinit | mangle => cases passes

/-- A sender that stalls after its mark is flushed, and another one sends and is received. -/
def flushAndSend : List (Action ℕ) :=
  .begin 0 ⟨1, 2, 3, [7]⟩ :: List.replicate 5 (.advanceMarked 0 false) ++
    .recv :: .flush :: .begin 1 ⟨1, 2, 4, [8]⟩ ::
      List.replicate 10 (.advanceMarked 1 false) ++ [.recv]

def afterFlush : Sys ℕ :=
  flushAndSend.foldl step (Sys.initial (createOrOpen 0 .created).2 (fun _ => 0) 0)

theorem flush_never_tears_slow_sender :
    afterFlush.Untorn ∧ afterFlush.delivered.map Delivery.payload = [[8]] :=
  ⟨flush_never_tears (createOrOpen_created 0)
    (.of_allSteps flushCheck_sound flushAndSend _ (by decide +kernel)) (by decide +kernel),
    by decide +kernel⟩

/-! ## A record with the payload of another call -/

omit [DecidableEq ι] in
theorem flushes_permits : Permits (Flushes : Sys ι → Action ι → Prop) true where
  begin _ _ _ range := range
  move _ _ := trivial
  recv _ := trivial

/-- The header of the late message with the payload of the early one. -/
def mixed : Message := ⟨1, 2, 4, [7]⟩

/-- The first call is flushed after it has stored its header, and the ring goes around once. -/
private theorem flushed_lap {sys : Sys ℕ} (inv : sys.Inv) (idle : sys.IdleFrom 0)
    (head : sys.head = 0)
    (tail : sys.tail = 0) (bytes : sys.reservedBytes = 0) :
    ∃ next m, Reaches step Flushes sys next ∧ next.Inv ∧ next.IdleFrom m ∧ 1 ≤ m ∧
      next.head = dataBlockSize ∧ next.tail = dataBlockSize ∧ next.reservedBytes = dataBlockSize ∧
      (next.calls 0).message = early ∧ (next.calls 0).pc = .filled sys.generation 0 := by
  have small : sys.reservedBytes + early.reserved < 2 ^ 64 := by
    rw [bytes, early_reserved]
    decide
  obtain ⟨base, filled, reach, obtained, alone⟩ :=
    fill_alone inv flushes_permits.toMoves (idle 0 le_rfl)
    early_inRange (tail.trans head.symm) (by rw [head, early_reserved]; decide) small (Nat.zero_le _)
  have unread := obtained.unread inv (tail.trans head.symm) rfl alone
  have stage : filled.phase ⟨sys.head, early.reserved, 0, false⟩ = .filled := by
    simp only [Sys.phase, alone.self]
    rfl
  have member : ⟨sys.head, early.reserved, 0, false⟩ ∈ filled.unread := by
    rw [unread]
    exact List.mem_singleton_self _
  have writing := alone.inv.read_unfinished member (by rw [stage]; rintro ⟨⟩)
    (by rw [stage]; rintro ⟨⟩)
  have filledTail : filled.tail = 0 := by rw [alone.ring.tail, obtained.tail, tail]
  have filledHead : filled.head = 56 := by
    have moved := obtained.head
    simp only [head, early_reserved] at moved
    rw [alone.ring.head, moved]
  have allowed : filled.Flushes .flush := by
    refine ⟨by omega, ?_⟩
    rw [filledTail]
    simp only [head] at writing
    exact writing
  have flushed : filled.flush = { filled with
      block.metaData.tailBytes := filled.head, block.metaData.publishedCount := 0 } := by
    simp only [Sys.flush, flushBacklog, mapToType_metaData]
  have idleRest : filled.flush.IdleFrom 1 := by
    intro k later
    rw [flushed]
    simp only
    rw [alone.other k (by omega), obtained.other k (by omega)]
    exact idle k (Nat.zero_le k)
  have position : filled.flush.head = 56 := by rw [flushed]; exact filledHead
  have drained : filled.flush.tail = filled.flush.head := by rw [flushed]
  have counted : filled.flush.reservedBytes = 56 := by
    have moved := obtained.reservedBytes
    simp only [bytes, early_reserved] at moved
    rw [flushed]
    exact alone.ring.reservedBytes.trans moved
  have space : spaceTilWrap filled.flush.head = dataBlockSize - 56 := by
    rw [position]
    decide
  obtain ⟨next, reachNext, lap⟩ := alone.inv.flush.lap flushes_permits idleRest drained
    (by rw [counted, space]; decide) (Nat.zero_le _)
  obtain ⟨m, later, idleNext⟩ := lap.idle
  have size : 56 + (dataBlockSize - 56) = dataBlockSize := by decide
  have nextHead : next.head = dataBlockSize := by rw [lap.head, space, position, size]
  have call : next.calls 0 = ⟨early, .filled sys.generation 0, base.incarnation⟩ := by
    rw [lap.other 0 (by omega), flushed]
    simp only
    rw [alone.self, head]
  refine ⟨next, m, (reach.tail allowed).trans reachNext, lap.inv, idleNext, later, nextHead,
    lap.drained.trans nextHead, by rw [lap.reservedBytes, counted, space, size], ?_, ?_⟩
  · rw [call]
  · rw [call]

/-- The flushed sender goes on when another record stands committed in its place: `recv` returns
the header of one call with the payload of the other. -/
theorem flushed_sender_tears : ¬ ∀ sys : Sys ℕ,
    Reaches step Flushes (Sys.initial (createOrOpen 0 .created).2 (fun _ => 0) 0) sys →
    sys.reservedBytes < 2 ^ 64 → sys.Untorn := by
  intro untorn
  have fresh := createOrOpen_fresh (createOrOpen_created 0)
  obtain ⟨around, m, reach, inv, idle, later, head, tail, bytes, slow, stage⟩ :=
    flushed_lap (initial_inv fresh (fun _ => 0) 0) (fun _ _ => rfl) fresh.head fresh.tail rfl
  have small : around.reservedBytes + late.reserved < 2 ^ 64 := by
    rw [bytes, late_reserved]
    decide
  obtain ⟨base, sent, reachSent, obtained, alone⟩ :=
    send_alone inv flushes_permits.toMoves (idle m le_rfl)
    late_inRange (tail.trans head.symm) (by rw [head, late_reserved]; decide) small (Nat.zero_le _)
  have unread := obtained.unread inv (tail.trans head.symm) rfl alone
  have member : ⟨around.head, late.reserved, m, false⟩ ∈ sent.unread := by
    rw [unread]
    exact List.mem_singleton_self _
  have published : sent.phase ⟨around.head, late.reserved, m, false⟩ = .final := by
    simp only [Sys.phase, alone.self]
    rfl
  have record := (alone.inv.read_final member published).1
  simp only [Reservation.header, alone.self, Bool.false_eq_true, ↓reduceIte] at record
  have slowCall : sent.calls 0 = around.calls 0 := by
    rw [alone.other 0 (by omega), obtained.other 0 (by omega)]
  have unclaimed : sent.claimed 0 false = none := by simp only [claimed, slowCall, stage]
  have reachTorn := flushes_permits.plain unclaimed
  have same := sent.advance_same 0 false unclaimed
  have sentTail : sent.tail = dataBlockSize := by rw [alone.ring.tail, obtained.tail, tail]
  have sentHead : sent.head = dataBlockSize + 56 := by
    have moved := obtained.head
    simp only [head, late_reserved] at moved
    rw [alone.ring.head, moved]
  have offset : getHeaderOffset dataBlockSize = dataBlockOffset := by decide
  have stored : (sent.advance 0 false).block.bytes =
      sent.block.bytes.store (dataBlockOffset + 48) early.buf := by
    simp only [Sys.advance, slowCall, stage, slow, sendStep]
    rw [write_payload _ _ _ (by decide)]
    rfl
  have call : (sent.advance 0 false).calls m = sent.calls m :=
    (sent.advance_moved 0 false).other (by omega)
  generalize sent.advance 0 false = torn at reachTorn same stored call
  have tornTail : torn.tail = dataBlockSize := by rw [same.tail, sentTail]
  have bound : torn.reservedBytes < 2 ^ 64 := by
    have counted := obtained.reservedBytes
    simp only at counted
    rw [same.reservedBytes, alone.ring.reservedBytes, counted]
    exact small
  have ready : torn.block.hdr.state = shmReady := same.state.trans alone.inv.ready
  have header : readRecordHeader torn.block.bytes (getHeaderOffset torn.tail) =
      mixed.header torn.generation stateCommitted := by
    rw [tornTail, offset, stored, same.generation]
    rw [head, offset] at record
    refine (readRecordHeader_congr fun query _ upper => ?_).trans record
    exact ByteMemory.store_outside _ _ _ _ (.inl upper)
  have payload : torn.block.bytes.load (getHeaderOffset torn.tail + 48) mixed.buf.length =
      mixed.buf := by
    rw [tornTail, offset, stored]
    exact ByteMemory.load_store_same ..
  obtain ⟨returned, position⟩ := recv_committed mixed ready
    (by rw [tornTail]; exact ⟨by decide, by decide⟩) (by rw [same.head]; omega) (by decide)
    (by rw [tornTail]; decide) header payload
  obtain ⟨run, outcome, fromOwner⟩ :=
    (untorn torn ((reach.trans reachSent).trans reachTorn) bound).recv
  rw [returned] at outcome
  cases outcome
  obtain ⟨r, inLog, here, _, _, contents⟩ := fromOwner rfl
  have tornUnread : torn.unread = sent.unread := by
    unfold Sys.unread
    rw [same.log, same.tail]
  have place : r ∈ torn.unread := mem_unread.mpr ⟨inLog, by rw [here, position]⟩
  rw [tornUnread, unread] at place
  rw [List.mem_singleton.mp place, call, alone.self] at contents
  have copied := ByteMemory.load_store_same torn.recvBuf 0 mixed.buf
  rw [show (torn.recvBuf.store 0 mixed.buf).load 0 mixed.recvData.bufSize = mixed.buf from copied]
    at contents
  have distinct : mixed.buf ≠ late.buf := by decide
  exact distinct contents

end Eroil.Shm.Sys
