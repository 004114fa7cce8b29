import Eroil.Proofs.Shm.Runs
import Eroil.Proofs.Shm.Laps

/-! # Positions stay aligned, ordered and inside the block

The space check of `send` is made for the data record only. That the longer wrap record fits as
well is `wrap_space`; everything below follows from the invariant it maintains. Positions are
64-bit words: once the bytes ever reserved pass `2 ^ 64` the head starts again at zero, below the
tail.
-/

namespace Eroil.Shm.Sys

open Lib

variable {ι : Type*} {sys : Sys ι}

/-- Positions are boundaries within one block length of each other, outstanding reservations share
no byte, and no lookup, copy or space check of either side fails because of a position. -/
structure RingSafe (sys : Sys ι) : Prop where
  head : sys.head % 8 = 0 ∧ sys.head % dataBlockSize ≤ dataUsableLimit
  tail : sys.tail % 8 = 0 ∧ sys.tail % dataBlockSize ≤ dataUsableLimit
  window : sys.tail ≤ sys.head ∧ sys.head ≤ sys.tail + dataBlockSize
  stores : ∃ run, recv (recvFuel sys.block) sys.block sys.recvBuf recvBufSize = .returned run ∧
    (∀ value ∈ run.tailStores, value % 8 = 0 ∧ value % dataBlockSize ≤ dataUsableLimit ∧
      sys.tail ≤ value ∧ value ≤ sys.head) ∧
    (run.data.code = .none → (read sys.block.bytes sys.recvBuf run.data.bufSize
      (getDataOffset sys.consumedAt)).1 = .none)
  apart : ∀ r ∈ sys.log, ∀ r' ∈ sys.log, sys.tail ≤ r.pos → sys.tail ≤ r'.pos → r ≠ r' →
    getHeaderOffset r.pos + r.size ≤ getHeaderOffset r'.pos ∨
      getHeaderOffset r'.pos + r'.size ≤ getHeaderOffset r.pos
  mapped : mapToType sizeofRecordHeader (getHeaderOffset sys.head) ≠ none ∧
    mapToType sizeofRecordHeader (getHeaderOffset sys.tail) ≠ none
  owned : ∀ c gen pos,
    (sys.calls c).pc.wrapAt = some (gen, pos) ∨ (sys.calls c).pc.dataAt = some (gen, pos) →
    mapToType sizeofRecordHeader (getHeaderOffset pos) ≠ none
  written : ∀ c gen pos, (sys.calls c).pc = .filled gen pos →
    (write sys.block.bytes (sys.calls c).message.buf (getDataOffset pos)).1 = .none
  results : ∀ c code, (sys.calls c).pc = .done code →
    code ≠ .allocatorCorrupted ∧ code ≠ .invalidOffset

theorem mapToType_ne_none {pos : ℕ} (boundary : Boundary pos) :
    mapToType sizeofRecordHeader (getHeaderOffset pos) ≠ none := by
  rw [mapToType_boundary boundary]
  exact nofun

/-- The values that a `recv` stores to the tail are boundaries up to the head. -/
theorem RecvView.stores {run : RecvRun} {stop : ℕ} (view : sys.RecvView run stop) (inv : sys.Inv) :
    ∀ value ∈ run.tailStores, Boundary value ∧ sys.tail ≤ value ∧ value ≤ sys.head := by
  obtain ⟨_, _, unreadTiles⟩ := inv.taken_tiles
  have ends (r : Reservation ι) (member : r ∈ sys.unread) :
      Boundary (r.pos + r.size) ∧ sys.tail ≤ r.pos + r.size ∧ r.pos + r.size ≤ sys.head := by
    have bounds := unreadTiles.mem_bounds member
    exact ⟨(inv.placed r (mem_unread.mp member).1).next, by omega, by omega⟩
  cases view with
  | drained skipped =>
    intro value member
    obtain ⟨r, inside, rfl⟩ := List.mem_map.mp member
    exact ends r inside
  | waiting wraps rest r split skipped unfinished =>
    intro value member
    obtain ⟨r, inside, rfl⟩ := List.mem_map.mp member
    exact ends r (by rw [split]; exact List.mem_append_left _ inside)
  | found wraps rest r split skipped isData final =>
    intro value member
    rcases List.mem_append.mp member with skip | last
    · obtain ⟨r, inside, rfl⟩ := List.mem_map.mp skip
      exact ends r (by rw [split]; exact List.mem_append_left _ inside)
    · rw [List.mem_singleton.mp last]
      exact ends r (mem_unread_of_split split)

/-- The copy out of the record that a `recv` found succeeds. -/
theorem RecvView.read {run : RecvRun} {stop : ℕ} (view : sys.RecvView run stop) (inv : sys.Inv)
    (delivered : run.data.code = .none) :
    (read sys.block.bytes sys.recvBuf run.data.bufSize (getDataOffset stop)).1 = .none := by
  cases view with
  | drained skipped => cases delivered
  | waiting wraps rest r split skipped unfinished => cases delivered
  | found wraps rest r split skipped isData final =>
    have member := mem_unread_of_split split
    have inLog := (mem_unread.mp member).1
    have owned := inv.owned r inLog
    have within := (inv.placed r inLog).within
    have size := (owned.data isData).1
    have bounds := owned.range.bounds
    simp only [Message.recvData]
    rw [read_payload _ _ _ _ (by omega)]

theorem Inv.results (inv : sys.Inv) {c : ι} (current : (sys.calls c).born = sys.incarnation)
    {code : ShmSendErr} (finished : (sys.calls c).pc = .done code) :
    code = .none ∨ code = .notEnoughSpace ∨ code = .couldNotAllocate := by
  have searching := (inv.locals c current).searching
  rw [finished] at searching
  exact searching

theorem Sound.ringSafe (sound : sys.Sound) (bound : sys.reservedBytes < 2 ^ 64) :
    sys.RingSafe := by
  obtain ⟨inv, account, settled, first⟩ := sound
  have current := inv.current_of_first first
  obtain ⟨_, _, unreadTiles⟩ := inv.taken_tiles
  obtain ⟨run, returned, view⟩ := inv.recv_view bound (recvSafe_of_settled settled)
  refine ⟨inv.headBoundary, inv.tailBoundary, ⟨unreadTiles.le, inv.window⟩, ?_, ?_,
    ⟨mapToType_ne_none inv.headBoundary, mapToType_ne_none inv.tailBoundary⟩, ?_, ?_, ?_⟩
  · refine ⟨run, returned, ?_, view.read inv⟩
    intro value member
    obtain ⟨boundary, lower, upper⟩ := view.stores inv value member
    exact ⟨boundary.1, boundary.2, lower, upper⟩
  · intro r member r' member' unread unread' distinct
    refine inv.apart member member' unread unread' fun same => ?_
    exact distinct (inv.tiles.eq_of_pos member member' same)
  · rintro c gen pos (writing | writing)
    · exact mapToType_ne_none ((inv.stored c).wrap gen pos writing)
    · exact mapToType_ne_none ((inv.stored c).data gen pos writing).1
  · intro c gen pos stage
    have placed := ((inv.stored c).data gen pos (by rw [stage]; rfl)).2
    have bounds := (inv.range c (by rw [stage]; exact nofun)).bounds
    rw [write_payload]
    rw [dataUsableLimit_eq] at placed
    rw [dataBlockSize_eq] at placed ⊢
    omega
  · intro c code finished
    rcases inv.results (current c) finished with rfl | rfl | rfl <;> exact ⟨nofun, nofun⟩

variable [DecidableEq ι]

/-- Along every schedule of reservation steps, commit steps and `recv` calls, as long as fewer
than `2 ^ 64` bytes were ever reserved. -/
theorem positions_safe {id : NodeId} {opened : OpenedBlock} {block : ShmBlock}
    (success : createOrOpen id opened = (true, block)) {buf : ByteMemory} {semaphore : ℕ}
    (run : Reaches step Fused (Sys.initial block buf semaphore) sys)
    (bound : sys.reservedBytes < 2 ^ 64) : sys.RingSafe :=
  (fused_sound (createOrOpen_fresh success) run bound).ringSafe bound

theorem positions_safe_roundTrip : afterRoundTrip.RingSafe ∧ afterRoundTrip.tail = 56 :=
  ⟨positions_safe (createOrOpen_created 0) roundTrip_reaches (by decide +kernel), by decide +kernel⟩

/-! ## What happens at the end of the 64-bit range -/

omit [DecidableEq ι] in
theorem fused_permits : Permits (Fused : Sys ι → Action ι → Prop) true where
  begin _ _ _ range := range
  move _ _ := trivial
  recv _ := trivial

/-- A drained ring on which no byte count was lost gets as close to the end of the 64-bit range as
the next call that runs alone. -/
theorem Inv.approach {sys : Sys ℕ} (inv : sys.Inv) {n : ℕ} (idle : sys.IdleFrom n)
    (drained : sys.tail = sys.head) (counted : sys.reservedBytes = sys.head)
    (small : sys.head < 2 ^ 64) :
    ∃ next m, Reaches step Fused sys next ∧ next.Inv ∧ next.IdleFrom m ∧ next.tail = next.head ∧
      next.reservedBytes < 2 ^ 64 ∧ 2 ^ 64 ≤ next.head + stride filler next.head := by
  induction rest : 2 ^ 64 - sys.head using Nat.strong_induction_on generalizing sys n with
  | _ rest ih =>
    subst rest
    by_cases last : 2 ^ 64 ≤ sys.head + stride filler sys.head
    · exact ⟨sys, n, .refl, inv, idle, drained, by omega, last⟩
    · have positive := (stride_bounds sys.head inv.headBoundary).1
      obtain ⟨next, reach, passed⟩ : ∃ next, Reaches step Fused sys next ∧
          Drained sys next n 0 (stride filler sys.head) :=
        inv.pass fused_permits (idle n le_rfl) filler_inRange drained (by omega) (Nat.zero_le _)
      have head := passed.head
      have bytes := passed.reservedBytes
      obtain ⟨final, m, reachFinal, found⟩ := ih (2 ^ 64 - next.head) (by omega) passed.inv
        (n := n + 1) (fun k later => by
          rw [passed.other k (by omega)]
          exact idle k (by omega)) passed.drained (by omega) (by omega) rfl
      exact ⟨final, m, reach.trans reachFinal, found⟩

/-- The compare-exchange that passes the end of the range leaves the head below the tail. -/
theorem Inv.overrun (inv : sys.Inv) {c : ι} {message : Message} (idle : (sys.calls c).pc = .idle)
    (range : message.InRange) (drained : sys.tail = sys.head) (bound : sys.reservedBytes < 2 ^ 64)
    (beyond : 2 ^ 64 ≤ sys.head + stride message sys.head) :
    ∃ next, Reaches step Fused sys next ∧ next.head < next.tail := by
  obtain ⟨searched, reach, alone⟩ := search_alone inv fused_permits.toMoves idle range bound 0
  have wrapped : wrap64 (sys.head + stride message sys.head) < sys.head := by
    have counted := inv.counted
    have size := range.bounds.2.2
    have short : stride message sys.head ≤ 1048704 := by
      unfold stride spaceTilWrap
      rw [dataUsableLimit_eq, dataBlockSize_eq]
      split_ifs <;> omega
    unfold wrap64
    omega
  have tail : searched.tail = sys.head := alone.ring.tail.trans drained
  refine ⟨searched.advanceMarked c false,
    reach.trans (.single (Action.advanceMarked c false) trivial),
    ?_⟩
  rw [checkSpace_drained inv range drained] at alone
  unfold stride at wrapped
  split_ifs at alone wrapped with overflow
  · rw [advanceMarked_casWrap alone.self alone.ring.head inv.headBoundary]
    exact wrapped.trans_eq tail.symm
  · rw [advanceMarked_casData alone.self alone.ring.head alone.inv.ready alone.ring.generation
      inv.headBoundary]
    exact wrapped.trans_eq tail.symm

/-- Without the bound on the bytes ever reserved, the order of head and tail is lost. -/
theorem positions_wrap_around : ¬ ∀ sys : Sys ℕ,
    Reaches step Fused (Sys.initial (createOrOpen 0 .created).2 (fun _ => 0) 0) sys →
    sys.RingSafe := by
  intro safe
  have fresh := createOrOpen_fresh (createOrOpen_created 0)
  have start : (Sys.initial (createOrOpen 0 .created).2 (fun _ => 0) 0 : Sys ℕ).Inv :=
    initial_inv fresh _ _
  obtain ⟨near, m, reach, inv, idle, drained, bound, beyond⟩ :=
    start.approach (n := 0) (fun _ _ => rfl) (fresh.tail.trans fresh.head.symm) fresh.head.symm
      (by rw [Sys.head, Sys.initial, fresh.head]; decide)
  obtain ⟨wrapped, beyondRange, lost⟩ :=
    inv.overrun (idle m le_rfl) filler_inRange drained bound beyond
  have order := (safe wrapped (reach.trans beyondRange)).window.1
  omega

end Eroil.Shm.Sys
