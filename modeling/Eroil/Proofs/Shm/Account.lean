import Eroil.Proofs.Shm.Steps

/-! # Deliveries follow the log

Without a flush the data records that the tail has passed are exactly the messages delivered
since the last initialisation, in the order of their reservations. A call that is about to store
has an unpublished reservation, so the tail has not passed it and the store is harmless.
-/

namespace Eroil.Shm.Sys

open Lib

variable {ι : Type*} {sys next : Sys ι} {c : ι}

/-- The reservations that the tail has passed. -/
def taken (sys : Sys ι) : List (Reservation ι) := sys.log.filter fun r => r.pos < sys.tail

/-- The delivery that a data reservation must end in. -/
def delivery (sys : Sys ι) (r : Reservation ι) : Delivery :=
  ⟨r.pos, (sys.calls r.owner).message.recvData, (sys.calls r.owner).message.buf⟩

/-- The tail has passed published reservations only, and their data records were delivered. -/
structure Account (sys : Sys ι) : Prop where
  published : ∀ r ∈ sys.log, r.pos < sys.tail → sys.phase r = .final
  delivered : sys.delivered = (sys.taken.filter (!·.wrap)).map sys.delivery

/-- Splitting the log at a boundary splits it by position. -/
theorem filter_before {first second : List (Reservation ι)} {lower middle upper : ℕ}
    (left : Tiles Reservation.pos Reservation.size lower first middle)
    (right : Tiles Reservation.pos Reservation.size middle second upper) :
    (first ++ second).filter (fun r => r.pos < middle) = first := by
  have before : first.filter (fun r => r.pos < middle) = first := by
    rw [List.filter_eq_self]
    intro r member
    have := left.mem_bounds member
    simp only [decide_eq_true_eq]
    omega
  have after : second.filter (fun r => r.pos < middle) = [] := by
    rw [List.filter_eq_nil_iff]
    intro r member
    have := right.mem_bounds member
    simp only [decide_eq_true_eq]
    omega
  rw [List.filter_append, before, after, List.append_nil]

theorem Inv.taken_tiles (inv : sys.Inv) : sys.log = sys.taken ++ sys.unread ∧
    Tiles Reservation.pos Reservation.size 0 sys.taken sys.tail ∧
    Tiles Reservation.pos Reservation.size sys.tail sys.unread sys.head := by
  obtain ⟨old, whole, oldTiles, liveTiles⟩ := inv.unread_split
  have same : sys.taken = old := by
    have split := filter_before oldTiles liveTiles
    rwa [← whole] at split
  rw [same]
  exact ⟨whole, oldTiles, liveTiles⟩

/-- The calls that own data reservations have their messages for good. -/
theorem Account.congr (account : sys.Account) (log : next.log = sys.log) (tail : next.tail = sys.tail)
    (delivered : next.delivered = sys.delivered)
    (phase : ∀ r ∈ sys.log, sys.phase r = .final → next.phase r = .final)
    (message : ∀ r ∈ sys.log, r.wrap = false →
      (next.calls r.owner).message = (sys.calls r.owner).message) : next.Account := by
  have taken : next.taken = sys.taken := by
    unfold Sys.taken
    rw [log, tail]
  refine ⟨?_, ?_⟩
  · rw [log, tail]
    exact fun r member passed => phase r member (account.published r member passed)
  · rw [delivered, taken, account.delivered]
    apply List.map_congr_left
    intro r member
    obtain ⟨inTaken, isData⟩ := List.mem_filter.mp member
    have inLog := List.mem_of_mem_filter inTaken
    unfold delivery
    rw [message r inLog (by simpa using isData)]

theorem initial_account {block : ShmBlock} (buf : ByteMemory) (semaphore : ℕ) :
    (Sys.initial block buf semaphore : Sys ι).Account := ⟨nofun, rfl⟩

/-- What passing a run of reservations adds to the account. -/
theorem Account.consume (account : sys.Account) (inv : sys.Inv)
    {first second : List (Reservation ι)} {tail : ℕ} (split : sys.unread = first ++ second)
    (passed : Tiles Reservation.pos Reservation.size sys.tail first tail)
    (final : ∀ r ∈ first, sys.phase r = .final) (newTail : next.tail = tail)
    (calls : next.calls = sys.calls) (log : next.log = sys.log)
    (delivered : next.delivered = sys.delivered ++ (first.filter (!·.wrap)).map sys.delivery) :
    next.Account := by
  obtain ⟨whole, takenTiles, unreadTiles⟩ := inv.taken_tiles
  have both := Tiles.append_iff.mpr ⟨_, takenTiles, passed⟩
  have rest : Tiles Reservation.pos Reservation.size tail second sys.head := by
    rw [split] at unreadTiles
    obtain ⟨middle, left, right⟩ := Tiles.append_iff.mp unreadTiles
    rwa [passed.upper_unique left]
  have taken : next.taken = sys.taken ++ first := by
    have before := filter_before both rest
    rw [List.append_assoc, ← split, ← whole] at before
    unfold Sys.taken
    rw [log, newTail, before]
    rfl
  have delivery : next.delivery = sys.delivery := by
    funext r
    unfold Sys.delivery
    rw [calls]
  refine ⟨?_, ?_⟩
  · intro r member before
    have inTaken : r ∈ next.taken := by
      simp only [Sys.taken, List.mem_filter, decide_eq_true_eq]
      exact ⟨member, before⟩
    unfold Sys.phase
    rw [calls]
    rw [taken] at inTaken
    rcases List.mem_append.mp inTaken with earlier | now
    · obtain ⟨inLog, passedBefore⟩ := List.mem_filter.mp earlier
      exact account.published r inLog (by simpa using passedBefore)
    · exact final r now
  · rw [delivered, taken, account.delivered, delivery, List.filter_append, List.map_append]

omit c in
/-- The filter of published wrap records keeps nothing. -/
theorem skipped_filter {wraps : List (Reservation ι)} (skipped : ∀ r ∈ wraps, sys.Skipped r) :
    wraps.filter (!·.wrap) = [] := by
  rw [List.filter_eq_nil_iff]
  intro r member
  rw [(skipped r member).1]
  exact nofun

/-- A `recv` delivers the record it passes. -/
theorem Account.receive (account : sys.Account) (inv : sys.Inv)
    (bound : sys.reservedBytes < 2 ^ 64) (safe : sys.RecvSafe) : sys.receive.Account := by
  obtain ⟨run, returned, view⟩ := inv.recv_view bound safe
  obtain ⟨_, _, unreadTiles⟩ := inv.taken_tiles
  rw [receive_eq returned]
  generalize sys.consumedAt = stop at view
  cases view with
  | drained skipped =>
    refine account.consume inv (List.append_nil _).symm unreadTiles
      (fun r member => (skipped r member).2) rfl rfl rfl ?_
    rw [skipped_filter skipped]
    rfl
  | waiting wraps rest r split skipped unfinished =>
    rw [split] at unreadTiles
    obtain ⟨middle, left, here, _, _⟩ := Tiles.append_iff.mp unreadTiles
    subst here
    refine account.consume inv split left (fun x member => (skipped x member).2) rfl rfl rfl ?_
    rw [skipped_filter skipped]
    rfl
  | found wraps rest r split skipped isData final =>
    have both : sys.unread = (wraps ++ [r]) ++ rest := by
      rw [split, List.append_assoc]
      rfl
    rw [split] at unreadTiles
    obtain ⟨middle, left, here, positive, _⟩ := Tiles.append_iff.mp unreadTiles
    subst here
    refine account.consume inv both (left.snoc rfl positive) ?_ rfl rfl rfl ?_
    · intro x member
      rcases List.mem_append.mp member with before | last
      · exact (skipped x before).2
      · rw [List.mem_singleton.mp last]
        exact final
    · have payload : (sys.recvBuf.store 0 (sys.calls r.owner).message.buf).load 0
          (sys.calls r.owner).message.buf.length = (sys.calls r.owner).message.buf :=
        ByteMemory.load_store_same ..
      rw [List.filter_append, skipped_filter skipped]
      simp only [List.nil_append, List.filter_cons, isData, Bool.not_false, ↓reduceIte,
        List.filter_nil, List.map_cons, List.map_nil, deliveryOf, Message.recvData, payload,
        Sys.delivery]

/-- A call that is about to store owns an unpublished reservation, which the tail cannot have
passed. -/
theorem Account.storeSafe (account : sys.Account) (inv : sys.Inv)
    (current : (sys.calls c).born = sys.incarnation) : sys.StoreSafe c := by
  intro pos size range
  refine .inl ⟨current, ?_⟩
  have ok := inv.locals c current
  have unpublished (r : Reservation ι) (member : r ∈ sys.log) (stage : sys.phase r ≠ .final) :
      sys.tail ≤ r.pos := by
    by_contra passed
    exact stage (account.published r member (by omega))
  cases stage : (sys.calls c).pc <;> rw [stage] at range <;> cases range
  case wrapReserved.refl gen tries | wrapMarked.refl gen tries | wrapFilled.refl gen tries =>
    obtain ⟨_, member⟩ := ok.wrap gen pos (by rw [stage]; rfl)
    exact unpublished _ member (by simp [Sys.phase, stage, Reservation.phase])
  case checked.refl gen | marked.refl gen | filled.refl gen | copied.refl gen =>
    obtain ⟨_, member⟩ := ok.data gen pos (by rw [stage]; rfl)
    exact unpublished _ member (by simp [Sys.phase, stage, Reservation.phase])

variable [DecidableEq ι]

/-- The owner of a data reservation has begun, so it keeps its message. -/
theorem Inv.begin_message (inv : sys.Inv) {message : Message} {r : Reservation ι}
    (member : r ∈ sys.log) (isData : r.wrap = false) :
    ((sys.begin c message).calls r.owner).message = (sys.calls r.owner).message := by
  unfold Sys.begin
  split
  · rename_i idle
    have foreign : r.owner ≠ c := by
      intro mine
      have owner := ((inv.owned r member).data isData).2
      rw [mine, idle] at owner
      exact SendPc.not_ownsData (show SendPc.idle.dataAt = none from rfl) nofun _ owner
    simp only [ne_eq, foreign, not_false_eq_true, Function.update_of_ne]
  · rfl

theorem Account.begin (account : sys.Account) (inv : sys.Inv) (message : Message) :
    (sys.begin c message).Account := by
  refine account.congr ?_ ?_ ?_ ?_ (fun r member isData => inv.begin_message member isData)
  · unfold Sys.begin
    split <;> rfl
  · unfold Sys.begin
    split <;> rfl
  · unfold Sys.begin
    split <;> rfl
  · intro r member final
    unfold Sys.phase at final ⊢
    unfold Sys.begin
    split
    · by_cases mine : r.owner = c
      · simp only [mine, Function.update_self, Reservation.phase]
      · simp only [ne_eq, mine, not_false_eq_true, Function.update_of_ne]
        exact final
    · exact final

theorem Account.advance {spurious : Bool} (account : sys.Account) (inv : sys.Inv) :
    (sys.advance c spurious).Account := by
  have moved := sys.advance_moved c spurious
  have tail : (sys.advance c spurious).tail = sys.tail :=
    (sendStep_frame spurious sys.block (sys.calls c).message (sys.calls c).pc).2.2
  obtain ⟨_, _, unreadTiles⟩ := inv.taken_tiles
  have ordered := unreadTiles.le
  have delivery : (sys.advance c spurious).delivery = sys.delivery := by
    funext r
    unfold Sys.delivery
    rw [moved.message]
  have taken : (sys.advance c spurious).taken = sys.taken := by
    have claimNotTaken : (sys.claimed c spurious).toList.filter (fun r => r.pos < sys.tail) = [] := by
      rw [List.filter_eq_nil_iff]
      intro r member
      have here := claimed_pos (Option.mem_toList.mp member)
      simp only [decide_eq_true_eq]
      omega
    unfold Sys.taken
    rw [tail]
    simp only [Sys.advance, List.filter_append, claimNotTaken, List.append_nil]
  refine ⟨?_, ?_⟩
  · rw [tail]
    intro r member passed
    rcases mem_advance_log member with earlier | here
    · exact inv.phase_final earlier (account.published r earlier passed)
    · omega
  · rw [taken, delivery]
    exact account.delivered

end Eroil.Shm.Sys
