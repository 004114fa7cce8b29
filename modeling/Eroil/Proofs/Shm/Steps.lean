import Eroil.Proofs.Shm.RecvSteps

/-! # Every other step keeps the invariant

Beginning a call, receiving, flushing, re-initialising, and the fused compare-exchange and mark.
Published reservations stay published, so that without a flush the tail has passed published
reservations only, and every call that is about to store still owns what it stores to.
-/

namespace Eroil.Shm

open Lib

/-- What every initialisation leaves: a ready block with an empty ring. -/
structure ShmBlock.Fresh (block : ShmBlock) : Prop where
  ready : block.hdr.state = shmReady
  generation : block.metaData.generation < 2 ^ 64
  head : block.metaData.headBytes = 0
  tail : block.metaData.tailBytes = 0

theorem initAsNew_fresh (id : NodeId) (block : ShmBlock) :
    (initAsNew id block).1 = true ∧ (initAsNew id block).2.Fresh := by
  have one : 1 < 2 ^ 64 := by decide
  simp only [initAsNew, mapToType_header, mapToType_metaData]
  exact ⟨trivial, rfl, one, rfl, rfl⟩

theorem reinit_fresh (id : NodeId) (block : ShmBlock) :
    (reinit id block).1 = true ∧ (reinit id block).2.Fresh := by
  have small : wrap64 (block.metaData.generation + 1) < 2 ^ 64 := Nat.mod_lt _ (by decide)
  simp only [reinit, mapToType_header, mapToType_metaData]
  split
  · exact initAsNew_fresh id _
  · exact ⟨rfl, rfl, small, rfl, rfl⟩

theorem createOrOpen_fresh {id : NodeId} {opened : OpenedBlock} {block : ShmBlock}
    (success : createOrOpen id opened = (true, block)) : block.Fresh := by
  cases opened with
  | created =>
    have fresh := (initAsNew_fresh id ⟨default, default, fun _ => 0⟩).2
    rw [createOrOpen] at success
    rwa [success] at fresh
  | existing old =>
    have fresh := (reinit_fresh id old).2
    rw [createOrOpen] at success
    rwa [success] at fresh

/-- A block that was just created is always initialised. -/
theorem createOrOpen_created (id : NodeId) :
    createOrOpen id .created = (true, (createOrOpen id .created).2) := rfl

/-- Program counters between a compare-exchange at `pos` and the end of its marking. -/
def SendPc.Marks (pos : ℕ) : SendPc → Prop
  | .wrapReserved _ head _ => head = pos
  | .wrapMarked _ head _ => head = pos
  | .wrapFilled _ head _ => head = pos
  | .reserved _ head => head = pos
  | .checked _ head => head = pos
  | .done _ => True
  | _ => False

namespace Sys

variable {ι : Type*} {sys : Sys ι} {c : ι}

theorem boundary_zero : Boundary 0 := ⟨rfl, Nat.zero_le _⟩

/-- A ring without reservations on a fresh block; no call belongs to the present initialisation
unless it has not begun. -/
theorem inv_of_fresh (fresh : sys.block.Fresh) (log : sys.log = [])
    (born : ∀ c, (sys.calls c).born ≤ sys.incarnation)
    (range : ∀ c, (sys.calls c).pc ≠ .idle → (sys.calls c).message.InRange)
    (stored : ∀ c, (sys.calls c).Placed)
    (unborn : ∀ c, (sys.calls c).born = sys.incarnation → (sys.calls c).pc = .idle) : sys.Inv := by
  have noMember {r : Reservation ι} : r ∉ sys.log := by
    rw [log]
    exact List.not_mem_nil
  have head : sys.head = 0 := fresh.head
  have tail : sys.tail = 0 := fresh.tail
  refine {
    ready := fresh.ready
    generation := fresh.generation
    counted := by omega
    window := by omega
    headBoundary := by rw [head]; exact boundary_zero
    tailBoundary := by rw [tail]; exact boundary_zero
    tiled := ⟨[], [], log, tail.symm, tail.trans head.symm⟩
    placed := fun _ member => absurd member noMember
    owned := fun _ member => absurd member noMember
    unique := fun _ member => absurd member noMember
    held := fun _ member => absurd member noMember
    born := born
    range := range
    stored := stored
    locals := ?_ }
  intro c current
  refine ⟨?_, ?_, ?_, ?_⟩ <;> rw [unborn c current]
  · trivial
  · exact nofun
  · exact nofun
  · exact nofun

theorem initial_inv {block : ShmBlock} (fresh : block.Fresh) (buf : ByteMemory) (semaphore : ℕ) :
    (Sys.initial block buf semaphore : Sys ι).Inv :=
  inv_of_fresh fresh rfl (fun _ => le_rfl) (fun _ started => absurd rfl started)
    (fun _ => ⟨nofun, nofun⟩) (fun _ _ => rfl)

/-- A re-initialisation forgets the ring. The calls in flight belong to the past from now on. -/
theorem Inv.restart (inv : sys.Inv) (id : NodeId) : (sys.restart id).Inv := by
  obtain ⟨success, fresh⟩ := reinit_fresh id sys.block
  have after : sys.restart id = { sys with
      block := (reinit id sys.block).2
      incarnation := sys.incarnation + 1
      log := []
      delivered := [] } := by
    unfold Sys.restart
    split
    · rename_i block same
      rw [same]
    · rename_i block same
      rw [same] at success
      cases success
  rw [after]
  refine inv_of_fresh fresh rfl (fun c => (inv.born c).trans (Nat.le_succ _)) inv.range inv.stored ?_
  intro c current
  have := inv.born c
  simp only at current
  omega

/-- The header words other than the state are read by `reinit` only. -/
theorem Inv.mangle (inv : sys.Inv) (hdr : ShmHeader) :
    ({ sys with block.hdr := { hdr with state := sys.block.hdr.state } } : Sys ι).Inv := by
  obtain ⟨old, whole, oldTiles, liveTiles⟩ := inv.unread_split
  exact inv.consume (List.nil_append _).symm rfl inv.tailBoundary rfl rfl rfl rfl rfl rfl rfl rfl rfl

/-- Flushing passes every unread reservation. -/
theorem Inv.flush (inv : sys.Inv) : sys.flush.Inv := by
  obtain ⟨_, _, _, tiles⟩ := inv.unread_split
  have flushed : sys.flush = { sys with
      block.metaData.tailBytes := sys.head, block.metaData.publishedCount := 0 } := by
    simp only [Sys.flush, flushBacklog, mapToType_metaData]
  rw [flushed]
  exact inv.consume (List.append_nil _).symm tiles inv.headBoundary rfl rfl rfl rfl rfl
    rfl rfl rfl rfl

/-- The part of the log that a `recv` outcome passes, and the boundary it leaves the tail at. -/
theorem RecvView.passed (inv : sys.Inv) {run : RecvRun} {stop : ℕ} (view : sys.RecvView run stop) :
    ∃ first second, sys.unread = first ++ second ∧
      Tiles Reservation.pos Reservation.size sys.tail first run.block.metaData.tailBytes ∧
      Boundary run.block.metaData.tailBytes ∧ ∀ r ∈ first, sys.phase r = .final := by
  obtain ⟨_, _, _, tiles⟩ := inv.unread_split
  cases view with
  | drained skipped =>
    exact ⟨sys.unread, [], (List.append_nil _).symm, tiles, inv.headBoundary,
      fun r member => (skipped r member).2⟩
  | waiting wraps rest r split skipped unfinished =>
    rw [split] at tiles
    obtain ⟨middle, left, here, _, _⟩ := Tiles.append_iff.mp tiles
    have member := mem_unread_of_split split
    refine ⟨wraps, r :: rest, split, ?_, (inv.placed r (mem_unread.mp member).1).boundary,
      fun x inside => (skipped x inside).2⟩
    simp only [ShmBlock.withTail, here]
    exact left
  | found wraps rest r split skipped isData final =>
    have member := mem_unread_of_split split
    rw [split] at tiles
    obtain ⟨middle, left, here, positive, _⟩ := Tiles.append_iff.mp tiles
    refine ⟨wraps ++ [r], rest, by rw [split, List.append_assoc]; rfl, ?_,
      (inv.placed r (mem_unread.mp member).1).next, ?_⟩
    · simp only [ShmBlock.consumed, here]
      exact left.snoc here positive
    · intro x inside
      rcases List.mem_append.mp inside with before | last
      · exact (skipped x before).2
      · rw [List.mem_singleton.mp last]
        exact final

/-- Everything but the tail and the published counter survives a `recv`. -/
theorem RecvView.frame {run : RecvRun} {stop : ℕ} (view : sys.RecvView run stop) :
    run.block.hdr = sys.block.hdr ∧ run.block.bytes = sys.block.bytes ∧
      run.block.metaData.generation = sys.generation ∧ run.block.metaData.headBytes = sys.head := by
  cases view <;> exact ⟨rfl, rfl, rfl, rfl⟩

/-- A `recv` whose scan meets no unmarked reservation keeps the invariant. -/
theorem Inv.receive (inv : sys.Inv) (bound : sys.reservedBytes < 2 ^ 64) (safe : sys.RecvSafe) :
    sys.receive.Inv := by
  obtain ⟨run, returned, view⟩ := inv.recv_view bound safe
  obtain ⟨first, second, split, tiles, boundary, _⟩ := view.passed inv
  obtain ⟨hdr, bytes, generation, head⟩ := view.frame
  rw [receive_eq returned]
  exact inv.consume split tiles boundary rfl bytes (congrArg ShmHeader.state hdr) generation head rfl
    rfl rfl rfl

variable [DecidableEq ι]

omit [DecidableEq ι] in
/-- An idle call begins with a message in range; nothing else changes. -/
private theorem Inv.enter {next : Sys ι} (inv : sys.Inv) {message : Message} (range : message.InRange)
    (idle : (sys.calls c).pc = .idle) (same : SameRing sys next)
    (bytes : next.block.bytes = sys.block.bytes)
    (self : next.calls c = ⟨message, .entered, sys.incarnation⟩)
    (other : ∀ d, d ≠ c → next.calls d = sys.calls d) : next.Inv := by
  have noData (r : Reservation ι) (member : r ∈ sys.log) (mine : r.owner = c) : r.wrap = true := by
    by_contra notWrap
    have owner := ((inv.owned r member).data (by simpa using notWrap)).2
    rw [mine, idle] at owner
    exact SendPc.not_ownsData (show SendPc.idle.dataAt = none from rfl) (by rintro ⟨⟩) _ owner
  refine inv.of_sameRing same ?_ ?_ ?_ ?_ ?_ ?_
  · intro r member
    obtain ⟨current, inRange, data⟩ := inv.owned r member
    by_cases mine : r.owner = c
    · refine ⟨by rw [mine, self, same.incarnation], by rw [mine, self]; exact range, fun isData => ?_⟩
      rw [noData r member mine] at isData
      cases isData
    · refine ⟨?_, ?_, ?_⟩ <;> rw [other _ mine]
      · rw [same.incarnation]
        exact current
      · exact inRange
      · exact data
  · intro r member notRead
    have held := inv.held r member notRead
    unfold Held Sys.phase at held ⊢
    rw [same.generation, bytes]
    by_cases mine : r.owner = c
    · have isWrap := noData r member mine
      rw [mine, idle, Reservation.phase_of_wrap isWrap rfl] at held
      rw [mine, self, Reservation.phase_of_wrap isWrap rfl]
      simp only [Reservation.header, Reservation.payload, isWrap, ↓reduceIte] at held ⊢
      exact held
    · rw [other _ mine]
      exact held
  · intro d
    by_cases mine : d = c
    · rw [mine, self]
    · rw [other _ mine]
      exact inv.born d
  · intro d started
    by_cases mine : d = c
    · rw [mine, self]
      exact range
    · rw [other _ mine] at started ⊢
      exact inv.range d started
  · intro d
    by_cases mine : d = c
    · rw [mine, self]
      exact ⟨by rintro _ _ ⟨⟩, by rintro _ _ ⟨⟩⟩
    · rw [other _ mine]
      exact inv.stored d
  · intro d current
    by_cases mine : d = c
    · refine ⟨?_, ?_, ?_, ?_⟩ <;> rw [mine, self]
      · trivial
      · rintro _ _ ⟨⟩
      · rintro _ _ ⟨⟩
      · rintro ⟨⟩
    · rw [other _ mine] at current
      exact inv.locals_of_sameRing same (other _ mine) current

theorem Inv.begin (inv : sys.Inv) {message : Message} (range : message.InRange) :
    (sys.begin c message).Inv := by
  unfold Sys.begin
  split
  · rename_i idle
    exact inv.enter range idle ⟨rfl, rfl, rfl, rfl, rfl, rfl, rfl⟩ rfl (Function.update_self ..)
      (fun d distinct => Function.update_of_ne distinct ..)
  · exact inv

/-- A published reservation stays published. -/
theorem Inv.phase_final (inv : sys.Inv) {r : Reservation ι} {spurious : Bool} (member : r ∈ sys.log)
    (final : sys.phase r = .final) : (sys.advance c spurious).phase r = .final := by
  have moved := sys.advance_moved c spurious
  have bounds := inv.tiles.mem_bounds member
  unfold Sys.phase at final ⊢
  by_cases mine : r.owner = c
  · rw [mine] at final
    rw [mine, moved.self]
    refine Reservation.phase_sendStep final ?_ ?_
    · have here : r.pos ≠ sys.head := by omega
      exact here
    · intro isData
      have owner := ((inv.owned r member).data isData).2
      rwa [mine] at owner
  · rw [moved.other mine]
    exact final

omit [DecidableEq ι] in
/-- A reservation is made at the head. -/
theorem claimed_pos {r : Reservation ι} {spurious : Bool} (claim : sys.claimed c spurious = some r) :
    r.pos = sys.head := by
  unfold claimed at claim
  split at claim <;> try split_ifs at claim with success
  · cases claim
    exact success.1.symm
  · cases claim
    exact success.1.symm
  · cases claim

theorem mem_advance_log {r : Reservation ι} {spurious : Bool}
    (member : r ∈ (sys.advance c spurious).log) : r ∈ sys.log ∨ r.pos = sys.head := by
  rcases List.mem_append.mp member with earlier | new
  · exact .inl earlier
  · exact .inr (claimed_pos (Option.mem_toList.mp new))

theorem advance_pc (sys : Sys ι) (c : ι) (spurious : Bool) :
    ((sys.advance c spurious).calls c).pc =
      (sendStep spurious sys.block (sys.calls c).message (sys.calls c).pc).2 := by
  rw [(sys.advance_moved c spurious).self]

/-- A call that is marking its reservation at `pos`, which the tail has not passed. -/
structure Marking (sys : Sys ι) (c : ι) (pos : ℕ) : Prop where
  current : (sys.calls c).born = sys.incarnation
  unpassed : sys.tail ≤ pos
  marks : (sys.calls c).pc.Marks pos

omit [DecidableEq ι] in
theorem Marking.safe {pos : ℕ} (marking : sys.Marking c pos) :
    sys.StoreSafe c ∧ sys.claimed c false = none := by
  obtain ⟨current, unpassed, marks⟩ := marking
  constructor
  · intro start size range
    refine .inl ⟨current, ?_⟩
    cases stage : (sys.calls c).pc <;> rw [stage] at marks range <;> cases range <;>
      first | exact marks.elim | (rw [show start = pos from marks]; exact unpassed)
  · unfold claimed
    cases stage : (sys.calls c).pc <;> rw [stage] at marks <;> first | rfl | exact marks.elim

/-- One marking step keeps the invariant, and whatever harmless sender steps preserve. -/
theorem Marking.advance {good : Sys ι → Prop} {pos : ℕ} (marking : sys.Marking c pos)
    (inv : sys.Inv) (bound : sys.reservedBytes < 2 ^ 64) (holds : good sys)
    (preserved : ∀ (state : Sys ι) (flag : Bool), state.Inv → state.StoreSafe c →
      state.ReserveSafe c flag → (state.advance c flag).reservedBytes < 2 ^ 64 → good state →
      good (state.advance c flag)) :
    (sys.advance c false).Inv ∧ good (sys.advance c false) ∧
      (sys.advance c false).reservedBytes = sys.reservedBytes := by
  obtain ⟨safe, unclaimed⟩ := marking.safe
  have reserve : sys.ReserveSafe c false := fun claims => absurd unclaimed claims
  have same := (sys.advance_same c false unclaimed).reservedBytes
  have small : (sys.advance c false).reservedBytes < 2 ^ 64 := by
    rw [same]
    exact bound
  exact ⟨inv.advance safe reserve small, preserved sys false inv safe reserve small holds, same⟩

theorem Marking.next {pos : ℕ} (marking : sys.Marking c pos)
    (marks : (sendStep false sys.block (sys.calls c).message (sys.calls c).pc).2.Marks pos) :
    (sys.advance c false).Marking c pos := by
  have moved := sys.advance_moved c false
  have same := sys.advance_same c false marking.safe.2
  refine ⟨?_, ?_, ?_⟩
  · rw [moved.born, same.incarnation]
    exact marking.current
  · rw [same.tail]
    exact marking.unpassed
  · rw [sys.advance_pc]
    exact marks

/-- The fused step is the step of the compare-exchange followed by the marking steps, each of
which is harmless. -/
theorem Inv.advanceMarked_induct {spurious : Bool} (inv : sys.Inv) (good : Sys ι → Prop)
    (safe : sys.StoreSafe c) (reserve : sys.ReserveSafe c spurious)
    (bound : (sys.advance c spurious).reservedBytes < 2 ^ 64) (start : good sys)
    (preserved : ∀ (state : Sys ι) (flag : Bool), state.Inv → state.StoreSafe c →
      state.ReserveSafe c flag → (state.advance c flag).reservedBytes < 2 ^ 64 → good state →
      good (state.advance c flag)) :
    (sys.advanceMarked c spurious).Inv ∧ good (sys.advanceMarked c spurious) ∧
      (sys.advanceMarked c spurious).reservedBytes = (sys.advance c spurious).reservedBytes := by
  have first := inv.advance safe reserve bound
  have firstGood := preserved sys spurious inv safe reserve bound start
  have moved := sys.advance_moved c spurious
  have ordered : sys.tail ≤ sys.head := by
    obtain ⟨_, _, _, _, tiles⟩ := inv.tiled
    exact tiles.le
  unfold Sys.advanceMarked
  cases claim : sys.claimed c spurious with
  | none => exact ⟨first, firstGood, rfl⟩
  | some r =>
    have current := reserve (by rw [claim]; exact nofun)
    have searching := (inv.locals c current).searching
    have begun (pos : ℕ) (here : sys.head = pos)
        (marks : (sendStep spurious sys.block (sys.calls c).message (sys.calls c).pc).2.Marks pos) :
        (sys.advance c spurious).Marking c pos := by
      refine ⟨by rw [moved.born]; exact current, ?_, by rw [sys.advance_pc]; exact marks⟩
      have tail := (sendStep_frame spurious sys.block (sys.calls c).message (sys.calls c).pc).2.2
      have unchanged : (sys.advance c spurious).tail = sys.tail := tail
      omega
    unfold claimed at claim
    split at claim <;> try split_ifs at claim with success
    · rename_i gen head tries stage
      cases claim
      rw [stage] at searching
      have move : (sendStep spurious sys.block (sys.calls c).message (sys.calls c).pc).2 =
          .wrapReserved gen head tries := by
        simp only [stage, sendStep, if_pos success, mapToType_boundary searching.2.1]
      have marking := begun head success.1 (by rw [move]; exact rfl)
      have pc1 := (sys.advance_pc c spurious).trans move
      have marking2 := marking.next (by rw [pc1]; exact rfl)
      have pc2 := ((sys.advance c spurious).advance_pc c false).trans (by rw [pc1, sendStep])
      have marking3 := marking2.next (by rw [pc2]; exact rfl)
      obtain ⟨inv2, good2, same2⟩ := marking.advance first bound firstGood preserved
      obtain ⟨inv3, good3, same3⟩ := marking2.advance inv2 (by omega) good2 preserved
      obtain ⟨inv4, good4, same4⟩ := marking3.advance inv3 (by omega) good3 preserved
      simp only [↓reduceIte]
      exact ⟨inv4, good4, by omega⟩
    · rename_i gen head tries stage
      cases claim
      have move : (sendStep spurious sys.block (sys.calls c).message (sys.calls c).pc).2 =
          .reserved gen head := by
        simp only [stage, sendStep, if_pos success]
      have marking := begun head success.1 (by rw [move]; exact rfl)
      have pc1 := (sys.advance_pc c spurious).trans move
      have marking2 := marking.next (by
        rw [pc1, sendStep]
        split_ifs
        · trivial
        · split
          · trivial
          · exact rfl)
      obtain ⟨inv2, good2, same2⟩ := marking.advance first bound firstGood preserved
      obtain ⟨inv3, good3, same3⟩ := marking2.advance inv2 (by omega) good2 preserved
      simp only [Bool.false_eq_true, ↓reduceIte]
      exact ⟨inv3, good3, by omega⟩
    · cases claim

end Sys

end Eroil.Shm
