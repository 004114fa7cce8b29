import Eroil.Proofs.Shm.Bounds
import Eroil.Proofs.Shm.Flush

/-! # The result of one call that runs alone

From the moment a call of `send` is entered nobody else takes a step. The call then depends on head,
tail, generation and readiness of the block only. It goes around its loop a second time after it has
published a wrap record, and the room that this leaves decides between its two results.
-/

namespace Eroil.Shm

open Lib

/-- The iteration of the retry loop that a call stands in. -/
def SendPc.tries : SendPc → ℕ
  | .loadTail _ _ tries => tries
  | .reloadHead _ tries => tries
  | .casWrap _ _ tries => tries
  | .wrapReserved _ _ tries => tries
  | .wrapMarked _ _ tries => tries
  | .wrapFilled _ _ tries => tries
  | .casData _ _ tries => tries
  | _ => 0

/-- Block and call after a number of steps of the call; `flags` says which compare-exchanges fail
spuriously. -/
def sendRun (message : Message) (flags : ℕ → Bool) (block : ShmBlock) : ℕ → ShmBlock × SendPc
  | 0 => (block, .entered)
  | n + 1 =>
      let state := sendRun message flags block n
      sendStep (flags n) state.1 message state.2

/-- The call returns a code and leaves a block behind. -/
def Returns (message : Message) (flags : ℕ → Bool) (block : ShmBlock) (code : ShmSendErr)
    (last : ShmBlock) : Prop :=
  ∃ n, sendRun message flags block n = (last, .done code)

/-- No compare-exchange fails spuriously. -/
def noneSpurious : ℕ → Bool := fun _ => false

/-- Room for a record of given size, behind a wrap record where it does not fit before the end of
the block. -/
def HasRoom (head tail reserved : ℕ) : Prop :=
  if head % dataBlockSize + reserved ≤ dataUsableLimit then head - tail + reserved ≤ dataBlockSize
  else head - tail + (dataBlockSize - head % dataBlockSize) + reserved ≤ dataBlockSize

instance (head tail reserved : ℕ) : Decidable (HasRoom head tail reserved) := by
  unfold HasRoom
  infer_instance

theorem hasRoom_straight {head tail reserved : ℕ}
    (straight : head % dataBlockSize + reserved ≤ dataUsableLimit) :
    HasRoom head tail reserved ↔ head - tail + reserved ≤ dataBlockSize := by
  rw [HasRoom, if_pos straight]

theorem hasRoom_wrapped {head tail reserved : ℕ}
    (wrapped : ¬ head % dataBlockSize + reserved ≤ dataUsableLimit) :
    HasRoom head tail reserved ↔ head - tail + spaceTilWrap head + reserved ≤ dataBlockSize := by
  rw [HasRoom, if_neg wrapped, spaceTilWrap]

/-- Without spurious failures the call stands in a state after some steps, and it has never been
past the second iteration of its loop. -/
structure Stands (message : Message) (block : ShmBlock) (n : ℕ) (state : ShmBlock × SendPc) :
    Prop where
  here : sendRun message noneSpurious block n = state
  within : ∀ m ≤ n, (sendRun message noneSpurious block m).2.tries ≤ 1

variable {message : Message} {flags : ℕ → Bool} {block base last : ShmBlock} {n : ℕ}

/-- A call that has returned takes no more steps. -/
theorem sendRun_done {code : ShmSendErr}
    (finished : sendRun message flags block n = (last, .done code))
    {m : ℕ} (le : n ≤ m) : sendRun message flags block m = (last, .done code) := by
  induction m, le using Nat.le_induction with
  | base => exact finished
  | succ m _ ih =>
    rw [sendRun, ih]
    rfl

theorem Returns.unique {code code' : ShmSendErr} {last' : ShmBlock}
    (first : Returns message flags block code last)
    (second : Returns message flags block code' last') : code = code' ∧ last = last' := by
  obtain ⟨n, here⟩ := first
  obtain ⟨m, there⟩ := second
  have both := (sendRun_done here (Nat.le_max_left n m)).symm.trans
    (sendRun_done there (Nat.le_max_right n m))
  obtain ⟨same, result⟩ := Prod.mk.inj both
  exact ⟨SendPc.done.inj result, same⟩

private theorem stands_entered : Stands message block 0 (block, .entered) := by
  refine ⟨rfl, fun m le => ?_⟩
  rw [Nat.le_zero.mp le]
  exact Nat.zero_le 1

/-- One more step of the call. -/
theorem Stands.next {state : ShmBlock × SendPc} {pc pc' : SendPc}
    (stands : Stands message block n (base, pc)) (move : sendStep false base message pc = state)
    (moved : state.2 = pc' := by rfl) (early : pc'.tries ≤ 1 := by exact Nat.zero_le 1) :
    Stands message block (n + 1) state := by
  have here : sendRun message noneSpurious block (n + 1) = state := by
    rw [sendRun, stands.here]
    exact move
  refine ⟨here, fun m le => ?_⟩
  rcases Nat.lt_or_ge n m with after | before
  · obtain rfl : m = n + 1 := by omega
    rw [here, moved]
    exact early
  · exact stands.within m before

theorem checkSpace_tries (gen head tail tries : ℕ) :
    (checkSpace message gen head tail tries).tries ≤ tries := by
  unfold checkSpace
  split_ifs <;> first | exact le_rfl | exact Nat.zero_le tries

/-- The call loads generation, head and tail and makes its checks. -/
theorem stands_checkSpace (ready : block.hdr.state = shmReady)
    (fits : message.reserved ≤ dataBlockSize) :
    Stands message block 4 (block, checkSpace message block.metaData.generation
      block.metaData.headBytes block.metaData.tailBytes 0) := by
  have first : Stands message block 1 (block, .loadGeneration) := stands_entered.next (by
    simp only [sendStep, mapToType_header, ready, ne_eq, not_true_eq_false, ↓reduceIte])
  have second : Stands message block 2 (block, .loadHead block.metaData.generation) :=
    first.next (by
      simp only [sendStep, mapToType_metaData]
      rw [if_neg (Nat.not_lt.mpr fits)])
  have third : Stands message block 3
      (block, .loadTail block.metaData.generation block.metaData.headBytes 0) := second.next rfl
  exact third.next rfl rfl ((checkSpace_tries ..).trans (Nat.zero_le 1))

/-- With its reservation the call commits its record and returns None. -/
theorem Stands.write {gen head : ℕ} (stands : Stands message block n (base, .reserved gen head))
    (ready : base.hdr.state = shmReady) (current : base.metaData.generation = gen)
    (usable : head % dataBlockSize ≤ dataUsableLimit) :
    ∃ m last, Stands message block m (last, .done .none) := by
  have checked : Stands message block (n + 1) (base, .checked gen head) := stands.next (by
    simp only [sendStep, ready, current, ne_eq, not_true_eq_false, or_self, ↓reduceIte,
      mapToType_usable usable])
  have marked := checked.next rfl
  have filled := marked.next rfl
  have copied := filled.next rfl
  have committed := copied.next rfl
  have counted := committed.next rfl
  have posted := counted.next rfl
  exact ⟨_, _, posted.next rfl⟩

/-- Once its checks are passed the call reserves its record. -/
theorem Stands.commit {gen head tries : ℕ}
    (stands : Stands message block n (base, .casData gen head tries))
    (ready : base.hdr.state = shmReady) (current : base.metaData.generation = gen)
    (here : base.metaData.headBytes = head) (usable : head % dataBlockSize ≤ dataUsableLimit) :
    ∃ m last, Stands message block m (last, .done .none) := by
  have claimed : Stands message block (n + 1)
      ({ base with metaData.headBytes := wrap64 (head + message.reserved) }, .reserved gen head) :=
    stands.next (by simp only [sendStep, here, and_self, ↓reduceIte])
  exact claimed.write ready current usable

/-- A wrap record that the call publishes brings it to the second iteration of its loop. -/
theorem Stands.wrap {gen head : ℕ} (stands : Stands message block n (base, .casWrap gen head 0))
    (here : base.metaData.headBytes = head) (usable : head % dataBlockSize ≤ dataUsableLimit) :
    ∃ m after, Stands message block m (after, .loadTail gen (wrap64 (head + spaceTilWrap head)) 1) ∧
      after.hdr = base.hdr ∧
      after.metaData = { base.metaData with headBytes := wrap64 (head + spaceTilWrap head) } := by
  have claimed : Stands message block (n + 1)
      ({ base with metaData.headBytes := wrap64 (head + spaceTilWrap head) },
        .wrapReserved gen head 0) :=
    stands.next (by simp only [sendStep, here, and_self, ↓reduceIte, mapToType_usable usable])
  have marked := claimed.next rfl
  have filled := marked.next rfl
  have published := filled.next rfl rfl le_rfl
  exact ⟨_, _, published, rfl, rfl⟩

section Result

variable (ready : block.hdr.state = shmReady)
  (ordered : block.metaData.tailBytes ≤ block.metaData.headBytes)
  (window : block.metaData.headBytes ≤ block.metaData.tailBytes + dataBlockSize)
  (usable : block.metaData.headBytes % dataBlockSize ≤ dataUsableLimit)
  (fits : message.reserved ≤ dataUsableLimit)
  (word : block.metaData.headBytes + spaceTilWrap block.metaData.headBytes + message.reserved <
    2 ^ 64)

include ready ordered window usable fits word

/-- The result of a call that runs alone, and the two iterations it takes at most. -/
private theorem stands_result : ∃ m last, Stands message block m (last, .done
    (if HasRoom block.metaData.headBytes block.metaData.tailBytes message.reserved then .none
      else .notEnoughSpace)) := by
  have start : Stands message block 4 (block, checkSpace message block.metaData.generation
      block.metaData.headBytes block.metaData.tailBytes 0) :=
    stands_checkSpace ready (fits.trans (by decide))
  have space : spaceTilWrap block.metaData.headBytes =
    dataBlockSize - block.metaData.headBytes % dataBlockSize := rfl
  have below := Nat.mod_lt block.metaData.headBytes (show 0 < dataBlockSize by decide)
  generalize headEq : block.metaData.headBytes = head at *
  generalize tailEq : block.metaData.tailBytes = tail at *
  have small {pos : ℕ} (near : pos ≤ head + spaceTilWrap head) :
      wrap64 (pos - tail + message.reserved) = pos - tail + message.reserved :=
    wrap64_of_lt (by omega)
  have room := small (Nat.le_add_right head (spaceTilWrap head))
  unfold checkSpace at start
  rw [if_neg (Nat.not_lt.mpr ordered), room] at start
  by_cases full : head - tail + message.reserved > dataBlockSize
  · -- Not even the record itself fits.
    rw [if_pos full] at start
    have none : ¬ HasRoom head tail message.reserved := by
      unfold HasRoom
      split_ifs <;> omega
    rw [if_neg none]
    exact ⟨4, block, start⟩
  rw [if_neg full, if_neg (Nat.not_lt.mpr usable)] at start
  by_cases straight : head % dataBlockSize + message.reserved ≤ dataUsableLimit
  · rw [if_neg (Nat.not_lt.mpr straight)] at start
    rw [if_pos ((hasRoom_straight straight).mpr (Nat.not_lt.mp full))]
    exact start.commit ready rfl headEq usable
  · rw [if_pos (Nat.not_le.mp straight)] at start
    obtain ⟨m, after, again, hdr, metaData⟩ := start.wrap headEq usable
    rw [wrap64_of_lt (by omega)] at again metaData
    have origin : (head + spaceTilWrap head) % dataBlockSize = 0 := by
      rw [space]
      rw [dataBlockSize_eq] at *
      omega
    have second : Stands message block (m + 1) (after, checkSpace message block.metaData.generation
        (head + spaceTilWrap head) tail 1) :=
      again.next (by simp only [sendStep, metaData, tailEq]) rfl (checkSpace_tries ..)
    have stillOrdered : ¬ head + spaceTilWrap head < tail := by omega
    unfold checkSpace at second
    rw [if_neg stillOrdered, small le_rfl, origin, if_neg (Nat.not_lt_zero _), Nat.zero_add,
      if_neg (Nat.not_lt.mpr fits)] at second
    have total : head + spaceTilWrap head - tail + message.reserved =
      head - tail + spaceTilWrap head + message.reserved := by omega
    rw [total] at second
    by_cases enough : head - tail + spaceTilWrap head + message.reserved ≤ dataBlockSize
    · rw [if_neg (Nat.not_lt.mpr enough)] at second
      rw [if_pos ((hasRoom_wrapped straight).mpr enough)]
      exact second.commit (by rw [hdr, ready]) (by rw [metaData]) (by rw [metaData])
        (by rw [origin]; exact Nat.zero_le _)
    · -- The wrap record was published, and the record still does not fit.
      rw [if_pos (Nat.not_le.mp enough)] at second
      rw [if_neg (mt (hasRoom_wrapped straight).mp enough)]
      exact ⟨m + 1, after, second⟩

end Result

/-- With the head below the tail the call goes around its loop a hundred times and gives up. -/
private theorem returns_behind (ready : block.hdr.state = shmReady)
    (fits : message.reserved ≤ dataBlockSize)
    (behind : block.metaData.headBytes < block.metaData.tailBytes) :
    Returns message noneSpurious block .couldNotAllocate block := by
  have start := (stands_checkSpace ready fits).here
  have around (tries : ℕ) (within : tries ≤ 99) : sendRun message noneSpurious block (4 + 2 * tries) =
      (block, .reloadHead block.metaData.generation tries) := by
    induction tries with
    | zero => rw [start, checkSpace, if_pos behind]
    | succ tries ih =>
      have reloaded : sendRun message noneSpurious block (4 + 2 * tries + 1) = (block, .loadTail
          block.metaData.generation block.metaData.headBytes (tries + 1)) := by
        rw [sendRun, ih (by omega)]
        simp only [sendStep, retry]
        rw [if_pos (by omega)]
      have steps : 4 + 2 * (tries + 1) = 4 + 2 * tries + 1 + 1 := by omega
      rw [steps, sendRun, reloaded]
      simp only [sendStep, checkSpace]
      rw [if_pos behind]
  refine ⟨4 + 2 * 99 + 1, ?_⟩
  rw [sendRun, around 99 le_rfl]
  rfl

/-- A sender step leaves the header of the block alone. -/
private theorem sendStep_hdr (spurious : Bool) (block : ShmBlock) (message : Message) (pc : SendPc) :
    (sendStep spurious block message pc).1.hdr = block.hdr := by
  fun_cases sendStep spurious block message pc <;> rfl

theorem flushBacklog_hdr (block : ShmBlock) : (flushBacklog block).hdr = block.hdr := by
  unfold flushBacklog
  split <;> rfl

theorem recvScan_hdr (gen fuel : ℕ) (block : ShmBlock) (tail head : ℕ) (stores : List ℕ) :
    (recvScan gen fuel block tail head stores).block.hdr = block.hdr := by
  fun_induction recvScan gen fuel block tail head stores <;>
    first | rfl | exact flushBacklog_hdr _ | assumption

private theorem readRecord_hdr {scan : Scan} {buf : ByteMemory} {maxSize : ℕ} {run : RecvRun}
    (returned : readRecord scan buf maxSize = .returned run) : run.block.hdr = scan.block.hdr := by
  revert returned
  fun_cases readRecord scan buf maxSize <;> rintro ⟨⟩ <;> rfl

/-- `recv` leaves the header of the block alone. -/
private theorem recv_hdr {fuel maxSize : ℕ} {buf : ByteMemory} {run : RecvRun}
    (returned : recv fuel block buf maxSize = .returned run) : run.block.hdr = block.hdr := by
  revert returned
  fun_cases recv fuel block buf maxSize <;> intro returned <;>
    first
    | (cases returned; done)
    | (cases returned; rfl)
    | (cases returned; exact recvScan_hdr ..)
    | exact (readRecord_hdr returned).trans (recvScan_hdr ..)

namespace Sys

variable {ι : Type*} [DecidableEq ι] {sys : Sys ι}

/-- Whatever happens on an initialised block, it stays ready. -/
theorem ready_step (ready : sys.block.hdr.state = shmReady) (action : Action ι) :
    (step sys action).block.hdr.state = shmReady := by
  have moved (state : Sys ι) (c : ι) (spurious : Bool) :
      (state.advance c spurious).block.hdr = state.block.hdr := sendStep_hdr ..
  cases action with
  | begin c message =>
    simp only [step, Sys.begin]
    split <;> exact ready
  | advance c spurious => rw [step, moved, ready]
  | advanceMarked c spurious =>
    simp only [step, Sys.advanceMarked]
    split
    · rw [moved, ready]
    · split_ifs <;> simp only [moved, ready]
  | recv =>
    simp only [step, Sys.receive]
    split
    · next run returned => rw [← ready, recv_hdr returned]
    · exact ready
    · exact ready
  | flush => rw [step, Sys.flush, flushBacklog_hdr, ready]
  | reinit id =>
    obtain ⟨_, fresh⟩ := reinit_fresh id sys.block
    simp only [step, Sys.restart]
    split <;> (rename_i same; rw [same] at fresh; exact fresh.ready)
  | mangle hdr => exact ready

/-- Schedules of every kind of step in which a sender stores only to its own unread reservation or
to bytes that no unread reservation covers, reserves only under the initialisation it began in, and
`recv` meets no unmarked reservation with other bytes than WRITING. -/
def Harmless (sys : Sys ι) : Action ι → Prop
  | .begin _ message => message.InRange
  | .advance c spurious => sys.StoreSafe c ∧ sys.ReserveSafe c spurious
  | .advanceMarked c spurious => sys.StoreSafe c ∧ sys.ReserveSafe c spurious
  | .recv => sys.RecvSafe
  | _ => True

theorem Inv.step_harmless (inv : sys.Inv) {action : Action ι} (allowed : sys.Harmless action)
    (bound : (step sys action).reservedBytes < 2 ^ 64) : (step sys action).Inv := by
  have before : sys.reservedBytes < 2 ^ 64 := (sys.reservedBytes_le_step action).trans_lt bound
  cases action with
  | begin c message => exact inv.begin allowed
  | advance c spurious => exact inv.advance allowed.1 allowed.2 bound
  | advanceMarked c spurious =>
    exact (inv.advanceMarked_induct (fun _ => True) allowed.1 allowed.2
      ((sys.advance_le_advanceMarked c spurious).trans_lt bound) trivial
      fun _ _ _ _ _ _ _ => trivial).1
  | recv => exact inv.receive before allowed
  | flush => exact inv.flush
  | reinit id => exact inv.restart id
  | mangle hdr => exact inv.mangle hdr

/-- The answer of a call that runs alone: None if there is room and NotEnoughSpace otherwise, within
two iterations of its loop. A drained ring always has room. -/
structure Answers (sys : Sys ι) (message : Message) : Prop where
  result : ∃ n last, Stands message sys.block n (last, .done
    (if HasRoom sys.head sys.tail message.reserved then .none else .notEnoughSpace))
  drained : sys.tail = sys.head → HasRoom sys.head sys.tail message.reserved

omit [DecidableEq ι] in
private theorem hasRoom_drained {head : ℕ} {message : Message} (range : message.InRange)
    (boundary : Boundary head) : HasRoom head head message.reserved := by
  have size := range.bounds.2.2
  have limit := boundary.2
  rw [dataUsableLimit_eq] at limit
  by_cases straight : head % dataBlockSize + message.reserved ≤ dataUsableLimit
  · rw [hasRoom_straight straight, dataBlockSize_eq]
    omega
  · rw [hasRoom_wrapped straight, spaceTilWrap]
    rw [dataUsableLimit_eq] at straight
    rw [dataBlockSize_eq] at *
    omega

/-- In every state of such a schedule, a call that runs alone answers by the room in the ring, as
long as fewer than `2 ^ 64` bytes are reserved with its own wrap record and record. -/
theorem send_alone_answers {id : NodeId} {opened : OpenedBlock} {block : ShmBlock}
    (success : createOrOpen id opened = (true, block)) {buf : ByteMemory} {semaphore : ℕ}
    (run : Reaches step Harmless (Sys.initial block buf semaphore) sys) {message : Message}
    (range : message.InRange)
    (bound : sys.reservedBytes + spaceTilWrap sys.head + message.reserved < 2 ^ 64) :
    sys.Answers message := by
  have fresh := createOrOpen_fresh success
  have inv : sys.Inv := invariant_while_bounded Sys.Inv (initial_inv fresh buf semaphore)
    (fun _ _ sound allowed small => sound.step_harmless allowed small) run (by omega)
  obtain ⟨_, _, _, unread⟩ := inv.unread_split
  have counted := inv.counted
  have size := range.bounds.2.2
  refine ⟨stands_result inv.ready unread.le inv.window inv.headBoundary.2 ?_ ?_, fun drained => ?_⟩
  · rw [dataUsableLimit_eq]
    omega
  · have total : sys.block.metaData.headBytes ≤ sys.reservedBytes := counted
    exact lt_of_le_of_lt (by gcongr) bound
  · rw [drained]
    exact hasRoom_drained range inv.headBoundary

/-- An executable condition for harmless steps. -/
def harmlessCheck (sys : Sys ι) : Action ι → Bool
  | .begin _ message => decide message.InRange
  | .advance c _ => sys.ownStep c
  | .advanceMarked c _ => sys.ownStep c
  | .recv => sys.allMarked
  | _ => true

private theorem harmlessCheck_sound (sys : Sys ι) (action : Action ι)
    (passes : sys.harmlessCheck action = true) :
    sys.Harmless action := by
  cases action with
  | begin c message =>
    have range : message.InRange := of_decide_eq_true passes
    exact range
  | advance c spurious => exact ⟨ownStep_stores passes, ownStep_reserves passes⟩
  | advanceMarked c spurious => exact ⟨ownStep_stores passes, ownStep_reserves passes⟩
  | recv => exact allMarked_safe passes
  | flush | reinit | mangle => trivial

theorem send_alone_answers_after_flush :
    afterFlush.Answers early ∧ afterFlush.tail = afterFlush.head :=
  ⟨send_alone_answers (createOrOpen_created 0)
    (.of_allSteps harmlessCheck_sound flushAndSend _ (by decide +kernel)) early_inRange
    (by decide +kernel), by decide +kernel⟩

omit [DecidableEq ι] in
/-- After `2 ^ 64` bytes the head stands below the tail, and the call gives up without a reason. -/
theorem send_alone_gives_up : ¬ ∀ (sys : Sys ℕ) (message : Message),
    Reaches step Fused (Sys.initial (createOrOpen 0 .created).2 (fun _ => 0) 0) sys →
    message.InRange → sys.Answers message := by
  intro answers
  have fresh := createOrOpen_fresh (createOrOpen_created 0)
  have start : (Sys.initial (createOrOpen 0 .created).2 (fun _ => 0) 0 : Sys ℕ).Inv :=
    initial_inv fresh _ _
  obtain ⟨near, m, reach, inv, idle, drained, bound, beyond⟩ :=
    start.approach (n := 0) (fun _ _ => rfl) (fresh.tail.trans fresh.head.symm) fresh.head.symm
      (by rw [Sys.head, Sys.initial, fresh.head]; decide)
  obtain ⟨wrapped, beyondRange, lost⟩ :=
    inv.overrun (idle m le_rfl) filler_inRange drained bound beyond
  have ready : wrapped.block.hdr.state = shmReady :=
    (reach.trans beyondRange).invariant (fun state => state.block.hdr.state = shmReady) fresh.ready
      fun _ action holds _ => ready_step holds action
  obtain ⟨n, last, stands⟩ := (answers wrapped early (reach.trans beyondRange) early_inRange).result
  have given : Returns early noneSpurious wrapped.block _ last := ⟨n, stands.here⟩
  have result := (given.unique (returns_behind ready (by decide) lost)).1
  revert result
  split_ifs <;> rintro ⟨⟩

end Sys

end Eroil.Shm
