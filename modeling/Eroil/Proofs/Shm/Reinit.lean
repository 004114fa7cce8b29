import Eroil.Proofs.Shm.Fifo

/-! # Re-initialisation and the calls of earlier initialisations

A call that began before a re-initialisation can still reserve in the new ring, because it checks
the generation only after its compare-exchange, and it can still store after that check. As long
as neither happens where an unread reservation stands, the records of the new initialisation are
delivered exactly once and as they were sent.
-/

namespace Eroil.Shm.Sys

open Lib

variable {ι : Type*} {sys : Sys ι}

/-- Schedules of single sender steps, `recv` calls and re-initialisations. -/
def Reinits [DecidableEq ι] (_ : Sys ι) : Action ι → Prop
  | .begin _ message => message.InRange
  | .advance _ _ => True
  | .recv => True
  | .reinit _ => True
  | .mangle _ => True
  | _ => False

/-- Such schedules in which no call of an earlier initialisation reserves, every store goes to the
call's own unread reservation or to bytes that nobody has reserved, and `recv` meets no unmarked
reservation with other bytes than WRITING. -/
def ReinitsSafely [DecidableEq ι] (sys : Sys ι) (action : Action ι) : Prop :=
  sys.Reinits action ∧
    match action with
    | .advance c spurious => sys.StoreSafe c ∧ sys.ReserveSafe c spurious
    | .recv => sys.RecvSafe
    | _ => True

/-- Every call of the present initialisation that returned None has one place in the order of
reservations; what was delivered is a run of the oldest of them as they were sent; the others are
intact in the ring, and the next `recv` returns the oldest once nothing unpublished stands before
it. -/
structure Isolated (sys : Sys ι) : Prop where
  once : (sys.reservations.map Reservation.owner).Nodup
  returned : ∀ c, (sys.calls c).born = sys.incarnation → (sys.calls c).pc = .done .none →
    c ∈ sys.reservations.map Reservation.owner
  delivered : sys.delivered = (sys.reservations.take sys.delivered.length).map sys.delivery
  intact : ∀ r ∈ sys.outstanding, (sys.calls r.owner).pc.hasCommitted = true →
    sys.tail ≤ r.pos ∧
      readRecordHeader sys.block.bytes (getHeaderOffset r.pos) =
        (sys.calls r.owner).message.header sys.generation stateCommitted ∧
      sys.block.bytes.load (getHeaderOffset r.pos + 48) (sys.calls r.owner).message.buf.length =
        (sys.calls r.owner).message.buf
  next : sys.RecvSafe → ∀ r rest, sys.outstanding = r :: rest →
    (sys.calls r.owner).pc.hasCommitted = true →
    (∀ r' ∈ sys.log, r'.wrap = true → sys.phase r' = .final) →
    ∃ run, recv (recvFuel sys.block) sys.block sys.recvBuf recvBufSize = .returned run ∧
      run.data = (sys.calls r.owner).message.recvData ∧
      run.buf.load 0 run.data.bufSize = (sys.calls r.owner).message.buf

theorem Account.isolated (account : sys.Account) (inv : sys.Inv)
    (bound : sys.reservedBytes < 2 ^ 64) : sys.Isolated := by
  obtain ⟨outstanding, taken⟩ := account.outstanding_eq inv
  refine ⟨inv.owners_nodup, ?_, by rw [taken]; exact account.delivered, ?_, ?_⟩
  · intro c current finished
    obtain ⟨pos, member⟩ := (inv.locals c current).done finished
    exact mem_owners.mpr ⟨_, member, rfl, rfl⟩
  · intro r member committed
    rw [outstanding] at member
    obtain ⟨unread, isData⟩ := List.mem_filter.mp member
    exact ⟨(mem_unread.mp unread).2, inv.read_committed unread (by simpa using isData) committed⟩
  · intro safe r rest oldest committed published
    obtain ⟨run, returned, shows, _⟩ := account.recv_queue inv bound safe published
    have queue : sys.queue = sys.ticket r :: rest.map sys.ticket := by
      rw [Sys.queue, oldest, List.map_cons]
    have ready : (sys.ticket r).committed = true := committed
    rw [queue, Ticket.recv, if_pos ready] at shows
    obtain ⟨data, payload⟩ := shows
    refine ⟨run, returned, data, ?_⟩
    rw [data]
    exact payload

variable [DecidableEq ι]

/-- What holds along schedules with safe re-initialisations. -/
private theorem reinits_step (inv : sys.Inv) (account : sys.Account) {action : Action ι}
    (allowed : sys.ReinitsSafely action) (bound : (step sys action).reservedBytes < 2 ^ 64) :
    (step sys action).Inv ∧ (step sys action).Account := by
  have before : sys.reservedBytes < 2 ^ 64 := (sys.reservedBytes_le_step action).trans_lt bound
  obtain ⟨kind, safe⟩ := allowed
  cases action with
  | begin c message => exact ⟨inv.begin kind, account.begin inv message⟩
  | advance c spurious => exact ⟨inv.advance safe.1 safe.2 bound, account.advance inv⟩
  | recv => exact ⟨inv.receive before safe, account.receive inv before safe⟩
  | reinit id =>
    refine ⟨inv.restart id, ?_⟩
    simp only [step, Sys.restart]
    split
    · exact ⟨by rintro _ ⟨⟩, rfl⟩
    · rename_i block failed
      have success := (reinit_fresh id sys.block).1
      rw [failed] at success
      cases success
  | mangle hdr =>
    exact ⟨inv.mangle hdr, account.congr rfl rfl rfl (fun _ _ final => final) (fun _ _ _ => rfl)⟩
  | advanceMarked | flush => exact kind.elim

/-- Records of the present initialisation are isolated from the calls of earlier ones along every
schedule whose steps are safe. -/
theorem reinit_isolates {id : NodeId} {opened : OpenedBlock} {block : ShmBlock}
    (success : createOrOpen id opened = (true, block)) {buf : ByteMemory} {semaphore : ℕ}
    (run : Reaches step ReinitsSafely (Sys.initial block buf semaphore) sys)
    (bound : sys.reservedBytes < 2 ^ 64) : sys.Isolated := by
  have fresh := createOrOpen_fresh success
  obtain ⟨inv, account⟩ := invariant_while_bounded (fun state => state.Inv ∧ state.Account)
    ⟨initial_inv fresh buf semaphore, initial_account buf semaphore⟩
    (fun _ _ sound allowed small => reinits_step sound.1 sound.2 allowed small) run bound
  exact account.isolated inv bound

/-- An executable condition for safe steps of the present calls. -/
def reinitCheck (sys : Sys ι) : Action ι → Bool
  | .begin _ message => decide message.InRange
  | .advance c _ => sys.ownStep c
  | .recv => sys.allMarked
  | .reinit _ => true
  | _ => false

private theorem reinitCheck_sound (sys : Sys ι) (action : Action ι)
    (passes : sys.reinitCheck action = true) :
    sys.ReinitsSafely action := by
  cases action with
  | begin c message =>
    have range : message.InRange := of_decide_eq_true passes
    exact ⟨range, trivial⟩
  | advance c spurious => exact ⟨trivial, ownStep_stores passes, ownStep_reserves passes⟩
  | recv => exact ⟨trivial, allMarked_safe passes⟩
  | reinit id => exact ⟨trivial, trivial⟩
  | advanceMarked | flush | mangle => cases passes

/-- A send under the first initialisation, a re-initialisation, and a send and a `recv` under the
second one. -/
def acrossReinit : List (Action (Fin 2)) :=
  .begin 0 ⟨1, 2, 3, [7]⟩ :: List.replicate 12 (.advance 0 false) ++
    .reinit 0 :: .begin 1 ⟨1, 2, 4, [8]⟩ :: List.replicate 12 (.advance 1 false) ++ [.recv]

def afterReinit : Sys (Fin 2) :=
  acrossReinit.foldl step (Sys.initial (createOrOpen 0 .created).2 (fun _ => 0) 0)

theorem reinit_isolates_across :
    afterReinit.Isolated ∧ afterReinit.delivered.map Delivery.payload = [[8]] :=
  ⟨reinit_isolates (createOrOpen_created 0)
    (.of_allSteps reinitCheck_sound acrossReinit _ (by decide +kernel)) (by decide +kernel),
    by decide +kernel⟩

/-! ## A record that is flushed because of a stale reservation

Call 0 leaves a record at the start of the block. Call 1 loads the generation, the consumer
re-initialises, and call 1 reserves the start of the new ring. Call 2 sends behind it and returns
None. Call 1 abandons its reservation, and `recv` finds the old record there and flushes.
-/

/-- The schedule of the three calls. -/
def abandonedReservation : List (Action (Fin 3)) :=
  .begin 0 ⟨1, 2, 3, [7]⟩ :: List.replicate 12 (.advance 0 false) ++
    .begin 1 ⟨1, 2, 4, [8]⟩ :: List.replicate 2 (.advance 1 false) ++
    .reinit 0 :: List.replicate 3 (.advance 1 false) ++
    .begin 2 ⟨1, 2, 5, [9]⟩ :: List.replicate 12 (.advance 2 false) ++
    [.advance 1 false, .recv]

/-- The state that the schedule ends in, on a block that was just created. -/
def afterAbandoned : Sys (Fin 3) :=
  abandonedReservation.foldl step (Sys.initial (createOrOpen 0 .created).2 (fun _ => 0) 0)

theorem stale_reservation_flushes : ¬ ∀ sys : Sys (Fin 3),
    Reaches step Reinits (Sys.initial (createOrOpen 0 .created).2 (fun _ => 0) 0) sys →
    sys.reservedBytes < 2 ^ 64 → sys.Isolated := by
  intro isolated
  have reach : Reaches step Reinits (Sys.initial (createOrOpen 0 .created).2 (fun _ => 0) 0)
      afterAbandoned := by
    apply Reaches.foldl
    have inRange (seq : UInt32) (byte : UInt8) : Message.InRange ⟨1, 2, seq, [byte]⟩ :=
      ⟨by simp only [List.length_cons]; omega, by simp only [List.length_singleton]; decide⟩
    simp [abandonedReservation, Reinits, or_imp, forall_and, inRange]
  have place : (⟨56, 56, 2, false⟩ : Reservation (Fin 3)) ∈ afterAbandoned.outstanding := by
    decide +kernel
  have committed : (afterAbandoned.calls 2).pc.hasCommitted = true := by decide +kernel
  have kept := ((isolated afterAbandoned reach (by decide +kernel)).intact _ place committed).1
  have flushed : afterAbandoned.tail = 112 := by decide +kernel
  rw [flushed] at kept
  simp only at kept
  omega

end Eroil.Shm.Sys
