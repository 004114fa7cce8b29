import Eroil.Proofs.Shm.Account

/-! # Calls that run alone

On a drained ring a call that runs alone either reserves, writes and commits its record, or
publishes a wrap record because its record does not fit before the end of the block. A `recv`
then drains the ring again. Repeating this moves the positions forward for as long as one likes,
around the block and up to the end of the 64-bit range, and stores nothing below the starting
offset until the next lap.
-/

namespace Eroil.Shm

open Lib

/-- A sender step stores nothing below the record that it writes. -/
private theorem sendStep_bytes_below {spurious : Bool} {block : ShmBlock} {message : Message}
    {pc : SendPc}
    {floor query : ℕ}
    (above : ∀ pos size, pc.storeRange message = some (pos, size) → floor ≤ getHeaderOffset pos)
    (below : query < floor) :
    (sendStep spurious block message pc).1.bytes query = block.bytes query := by
  fun_cases sendStep spurious block message pc <;>
    first
    | rfl
    | exact storeState_outside _ _ _ _ (.inl (below.trans_le (above _ _ rfl)))
    | exact storeFields_outside _ _ _ _ (.inl (below.trans_le (above _ _ rfl)))
    | skip
  rename_i gen head
  have limit := above _ _ rfl
  simp only [write]
  split_ifs
  · rfl
  · rfl
  · refine ByteMemory.store_outside _ _ _ _ (.inl ?_)
    simp only [getDataOffset]
    omega

variable {ι : Type*} [DecidableEq ι]

/-- The step of one call that is taken on the sender side of a schedule. -/
def act (fused : Bool) (c : ι) : Action ι :=
  if fused then .advanceMarked c false else .advance c false

/-- A schedule condition that lets calls begin and move. -/
structure Moves (ok : Sys ι → Action ι → Prop) (fused : Bool) : Prop where
  begin : ∀ sys c message, message.InRange → ok sys (.begin c message)
  move : ∀ sys c, ok sys (act fused c)

/-- A schedule condition that also lets the consumer receive. -/
structure Permits (ok : Sys ι → Action ι → Prop) (fused : Bool) : Prop extends Moves ok fused where
  recv : ∀ sys, ok sys .recv

namespace Moves

variable {ok : Sys ι → Action ι → Prop} {fused : Bool} {sys : Sys ι} {c : ι}

/-- A step that reserves nothing is the same in both kinds of schedule. -/
theorem plain (moves : Moves ok fused) (unclaimed : sys.claimed c false = none) :
    Reaches step ok sys (sys.advance c false) := by
  have single : Reaches step ok sys (step sys (act fused c)) := .single _ (moves.move sys c)
  cases fused with
  | false => exact single
  | true =>
    have same : step sys (act true c) = sys.advance c false := by
      simp only [act, ↓reduceIte, step, Sys.advanceMarked, unclaimed]
    rwa [same] at single

/-- Reserving a data record, and the two steps that mark it. -/
theorem claimData (moves : Moves ok fused) {r : Reservation ι}
    (claim : sys.claimed c false = some r) (isData : r.wrap = false)
    (first : (sys.advance c false).claimed c false = none)
    (second : ((sys.advance c false).advance c false).claimed c false = none) :
    Reaches step ok sys (((sys.advance c false).advance c false).advance c false) := by
  have single : Reaches step ok sys (step sys (act fused c)) := .single _ (moves.move sys c)
  cases fused with
  | false => exact (single.trans (moves.plain first)).trans (moves.plain second)
  | true =>
    have same : step sys (act true c) =
        ((sys.advance c false).advance c false).advance c false := by
      simp only [act, ↓reduceIte, step, Sys.advanceMarked, claim, isData, Bool.false_eq_true]
    rwa [same] at single

/-- Reserving a wrap record, and the three steps that publish it. -/
theorem claimWrap (moves : Moves ok fused) {r : Reservation ι}
    (claim : sys.claimed c false = some r) (isWrap : r.wrap = true)
    (first : (sys.advance c false).claimed c false = none)
    (second : ((sys.advance c false).advance c false).claimed c false = none)
    (third : (((sys.advance c false).advance c false).advance c false).claimed c false = none) :
    Reaches step ok sys
      ((((sys.advance c false).advance c false).advance c false).advance c false) := by
  have single : Reaches step ok sys (step sys (act fused c)) := .single _ (moves.move sys c)
  cases fused with
  | false =>
    exact ((single.trans (moves.plain first)).trans (moves.plain second)).trans
      (moves.plain third)
  | true =>
    have same : step sys (act true c) =
        (((sys.advance c false).advance c false).advance c false).advance c false := by
      simp only [act, ↓reduceIte, step, Sys.advanceMarked, claim, isWrap]
    rwa [same] at single

end Moves

namespace Sys

variable {sys next base : Sys ι} {c : ι} {message : Message} {pc : SendPc} {floor : ℕ}

/-- Seen from `base`, only call `c` has moved, nothing was reserved or consumed, and no byte below
`floor` has changed. -/
structure Alone (base next : Sys ι) (c : ι) (message : Message) (floor : ℕ) (pc : SendPc) : Prop where
  inv : next.Inv
  ring : SameRing base next
  delivered : next.delivered = base.delivered
  self : next.calls c = ⟨message, pc, base.incarnation⟩
  other : ∀ d, d ≠ c → next.calls d = base.calls d
  low : ∀ query, query < floor → next.block.bytes query = base.block.bytes query

omit [DecidableEq ι] in
theorem Alone.unclaimed (alone : Alone base next c message floor pc)
    (notWrap : ∀ gen head tries, pc ≠ .casWrap gen head tries)
    (notData : ∀ gen head tries, pc ≠ .casData gen head tries) : next.claimed c false = none := by
  unfold claimed
  rw [alone.self]
  split
  · rename_i same
    exact absurd same (notWrap _ _ _)
  · rename_i same
    exact absurd same (notData _ _ _)
  · rfl

/-- One more step of the call. -/
theorem Alone.step (alone : Alone base next c message floor pc) (pc' : SendPc)
    (unclaimed : next.claimed c false = none) (bound : base.reservedBytes < 2 ^ 64)
    (move : (sendStep false next.block message pc).2 = pc')
    (above : ∀ pos size, pc.storeRange message = some (pos, size) →
      base.tail ≤ pos ∧ floor ≤ getHeaderOffset pos) :
    Alone base (next.advance c false) c message floor pc' := by
  have same := next.advance_same c false unclaimed
  have moved := next.advance_moved c false
  have current : (next.calls c).born = next.incarnation := by
    rw [alone.self, alone.ring.incarnation]
  have safe : next.StoreSafe c := by
    intro pos size range
    rw [alone.self] at range
    refine .inl ⟨current, ?_⟩
    rw [alone.ring.tail]
    exact (above pos size range).1
  refine ⟨?_, ?_, alone.delivered, ?_, ?_, ?_⟩
  · refine alone.inv.advance safe (fun claims => absurd unclaimed claims) ?_
    rw [same.reservedBytes, alone.ring.reservedBytes]
    exact bound
  · exact ⟨same.state.trans alone.ring.state, same.generation.trans alone.ring.generation,
      same.head.trans alone.ring.head, same.tail.trans alone.ring.tail,
      same.log.trans alone.ring.log, same.incarnation.trans alone.ring.incarnation,
      same.reservedBytes.trans alone.ring.reservedBytes⟩
  · rw [moved.self, alone.self, move]
  · intro d distinct
    rw [moved.other distinct]
    exact alone.other d distinct
  · intro query below
    rw [← alone.low query below]
    refine sendStep_bytes_below (fun pos size range => ?_) below
    rw [alone.self] at range
    exact (above pos size range).2

variable {ok : Sys ι → Action ι → Prop} {fused : Bool}

/-- The same step as part of a run. -/
theorem Alone.run (alone : Alone base next c message floor pc) (moves : Moves ok fused)
    (reach : Reaches Shm.step ok sys next) (pc' : SendPc)
    (notWrap : ∀ gen head tries, pc ≠ .casWrap gen head tries)
    (notData : ∀ gen head tries, pc ≠ .casData gen head tries)
    (bound : base.reservedBytes < 2 ^ 64) (move : (sendStep false next.block message pc).2 = pc')
    (above : ∀ pos size, pc.storeRange message = some (pos, size) →
      base.tail ≤ pos ∧ floor ≤ getHeaderOffset pos) :
    Reaches Shm.step ok sys (next.advance c false) ∧
      Alone base (next.advance c false) c message floor pc' := by
  have unclaimed := alone.unclaimed notWrap notData
  exact ⟨reach.trans (moves.plain unclaimed), alone.step pc' unclaimed bound move above⟩

/-- A fresh call loads generation, head and tail and makes its checks. -/
theorem search_alone (inv : sys.Inv) (moves : Moves ok fused)
    (idle : (sys.calls c).pc = .idle) (range : message.InRange)
    (bound : sys.reservedBytes < 2 ^ 64) (floor : ℕ) :
    ∃ next, Reaches step ok sys next ∧ Alone sys next c message floor
      (checkSpace message sys.generation sys.head sys.tail 0) := by
  have begun : sys.begin c message =
      { sys with calls := Function.update sys.calls c ⟨message, .entered, sys.incarnation⟩ } := by
    simp only [Sys.begin, idle]
  have entered : Alone sys (sys.begin c message) c message floor .entered := by
    refine ⟨inv.begin range, ?_, ?_, ?_, ?_, ?_⟩ <;> rw [begun]
    · exact ⟨rfl, rfl, rfl, rfl, rfl, rfl, rfl⟩
    · exact Function.update_self ..
    · exact fun d distinct => Function.update_of_ne distinct ..
    · exact fun _ _ => rfl
  have start : Reaches step ok sys (sys.begin c message) :=
    Reaches.single (Action.begin c message) (moves.begin sys c message range)
  have size := range.bounds.2.2
  obtain ⟨reach1, alone1⟩ := entered.run moves start .loadGeneration (by rintro _ _ _ ⟨⟩)
    (by rintro _ _ _ ⟨⟩) bound (by
      simp only [sendStep, mapToType_header, entered.inv.ready, ne_eq, not_true_eq_false,
        ↓reduceIte]) (by rintro _ _ ⟨⟩)
  obtain ⟨reach2, alone2⟩ := alone1.run moves reach1 (.loadHead sys.generation)
    (by rintro _ _ _ ⟨⟩) (by rintro _ _ _ ⟨⟩) bound (by
      simp only [sendStep, mapToType_metaData]
      rw [if_neg (by rw [dataBlockSize_eq]; omega)]
      simp only [← alone1.ring.generation]) (by rintro _ _ ⟨⟩)
  obtain ⟨reach3, alone3⟩ := alone2.run moves reach2 (.loadTail sys.generation sys.head 0)
    (by rintro _ _ _ ⟨⟩) (by rintro _ _ _ ⟨⟩) bound (by
      simp only [sendStep, ← alone2.ring.head]
      rfl) (by rintro _ _ ⟨⟩)
  obtain ⟨reach4, alone4⟩ := alone3.run moves reach3
    (checkSpace message sys.generation sys.head sys.tail 0) (by rintro _ _ _ ⟨⟩)
    (by rintro _ _ _ ⟨⟩) bound (by simp only [sendStep, ← alone3.ring.tail]) (by rintro _ _ ⟨⟩)
  exact ⟨_, reach4, alone4⟩

/-- Seen from `sys`, call `c` has obtained the reservation `r` and nothing else has changed. -/
structure Obtained (sys base : Sys ι) (c : ι) (floor : ℕ) (r : Reservation ι) : Prop where
  head : base.head = sys.head + r.size
  tail : base.tail = sys.tail
  generation : base.generation = sys.generation
  log : base.log = sys.log ++ [r]
  delivered : base.delivered = sys.delivered
  incarnation : base.incarnation = sys.incarnation
  reservedBytes : base.reservedBytes = sys.reservedBytes + r.size
  low : ∀ query, query < floor → base.block.bytes query = sys.block.bytes query
  other : ∀ d, d ≠ c → base.calls d = sys.calls d

/-- A compare-exchange of a call that runs alone adds its reservation and nothing else. -/
theorem Alone.obtained (alone : Alone sys next c message floor pc) {r : Reservation ι} {pc' : SendPc}
    (claim : next.claimed c false = some r)
    (move : sendStep false next.block message pc =
      ({ next.block with metaData.headBytes := sys.head + r.size }, pc'))
    (inv : (next.advance c false).reservedBytes < 2 ^ 64 → (next.advance c false).Inv)
    (small : sys.reservedBytes + r.size < 2 ^ 64) :
    Obtained sys (next.advance c false) c floor r ∧
      Alone (next.advance c false) (next.advance c false) c message floor pc' := by
  have after : next.advance c false = { next with
      block.metaData.headBytes := sys.head + r.size
      calls := Function.update next.calls c ⟨message, pc', sys.incarnation⟩
      semaphore := (next.advance c false).semaphore
      log := next.log ++ [r]
      reservedBytes := next.reservedBytes + r.size } := by
    simp only [Sys.advance, claim, alone.self, move, Option.toList_some, Option.map_some,
      Option.getD_some]
  have nextInv : (next.advance c false).Inv := by
    apply inv
    rw [after]
    simp only [alone.ring.reservedBytes]
    exact small
  refine ⟨?_, nextInv, ⟨rfl, rfl, rfl, rfl, rfl, rfl, rfl⟩, rfl, ?_, fun _ _ => rfl, fun _ _ => rfl⟩
  · rw [after]
    refine ⟨rfl, alone.ring.tail, alone.ring.generation, ?_, alone.delivered,
      alone.ring.incarnation, ?_, alone.low, ?_⟩
    · simp only [alone.ring.log]
    · simp only [alone.ring.reservedBytes]
    · intro d distinct
      simp only [ne_eq, distinct, not_false_eq_true, Function.update_of_ne]
      exact alone.other d distinct
  · rw [after]
    simp only [Function.update_self, alone.ring.incarnation]

/-- The compare-exchange for a data record. -/
theorem Alone.claimData (alone : Alone sys next c message floor (.casData sys.generation sys.head 0))
    (small : sys.reservedBytes + message.reserved < 2 ^ 64) :
    next.claimed c false = some ⟨sys.head, message.reserved, c, false⟩ ∧
      Obtained sys (next.advance c false) c floor ⟨sys.head, message.reserved, c, false⟩ ∧
      Alone (next.advance c false) (next.advance c false) c message floor
        (.reserved sys.generation sys.head) := by
  have stage : (next.calls c).pc = .casData sys.generation sys.head 0 := by rw [alone.self]
  have claim : next.claimed c false = some ⟨sys.head, message.reserved, c, false⟩ := by
    simp only [claimed, alone.self, alone.ring.head, and_self, ↓reduceIte]
  have counted := alone.inv.counted
  rw [alone.ring.head, alone.ring.reservedBytes] at counted
  refine ⟨claim, alone.obtained claim ?_ ?_ small⟩
  · have here : next.block.metaData.headBytes = sys.head := alone.ring.head
    simp only [sendStep, here, and_self, ↓reduceIte]
    rw [wrap64_of_lt (by omega)]
  · exact alone.inv.advance_casData stage alone.ring.head
      (by rw [alone.self, alone.ring.incarnation])

/-- The compare-exchange for a wrap record. -/
theorem Alone.claimWrap (alone : Alone sys next c message floor (.casWrap sys.generation sys.head 0))
    (boundary : Boundary sys.head) (small : sys.reservedBytes + spaceTilWrap sys.head < 2 ^ 64) :
    next.claimed c false = some ⟨sys.head, spaceTilWrap sys.head, c, true⟩ ∧
      Obtained sys (next.advance c false) c floor ⟨sys.head, spaceTilWrap sys.head, c, true⟩ ∧
      Alone (next.advance c false) (next.advance c false) c message floor
        (.wrapReserved sys.generation sys.head 0) := by
  have stage : (next.calls c).pc = .casWrap sys.generation sys.head 0 := by rw [alone.self]
  have claim : next.claimed c false = some ⟨sys.head, spaceTilWrap sys.head, c, true⟩ := by
    simp only [claimed, alone.self, alone.ring.head, and_self, ↓reduceIte]
  have counted := alone.inv.counted
  rw [alone.ring.head, alone.ring.reservedBytes] at counted
  refine ⟨claim, alone.obtained claim ?_ ?_ small⟩
  · have here : next.block.metaData.headBytes = sys.head := alone.ring.head
    simp only [sendStep, here, and_self, ↓reduceIte, mapToType_boundary boundary]
    rw [wrap64_of_lt (by omega)]
  · exact alone.inv.advance_casWrap stage alone.ring.head
      (by rw [alone.self, alone.ring.incarnation])

omit [DecidableEq ι] in
/-- What the checks decide on a drained ring. -/
theorem checkSpace_drained (inv : sys.Inv) (range : message.InRange) (drained : sys.tail = sys.head) :
    checkSpace message sys.generation sys.head sys.tail 0 =
      if sys.head % dataBlockSize + message.reserved > dataUsableLimit then
        .casWrap sys.generation sys.head 0 else .casData sys.generation sys.head 0 := by
  have size := range.bounds.2.2
  have limit := inv.headBoundary.2
  unfold checkSpace
  rw [drained, if_neg (by omega), Nat.sub_self, Nat.zero_add, wrap64_of_lt (by omega),
    if_neg (by rw [dataBlockSize_eq]; omega), if_neg (by omega)]

/-- The compare-exchange for a data record together with its mark. -/
theorem advanceMarked_casData {gen pos tries born : ℕ}
    (place : sys.calls c = ⟨message, .casData gen pos tries, born⟩)
    (here : sys.head = pos) (ready : sys.block.hdr.state = shmReady) (current : sys.generation = gen)
    (boundary : Boundary pos) :
    sys.advanceMarked c false = { sys with
      block.metaData.headBytes := wrap64 (pos + message.reserved)
      block.bytes := storeState sys.block.bytes (getHeaderOffset pos) stateWriting
      calls := Function.update sys.calls c ⟨message, .marked gen pos, born⟩
      log := sys.log ++ [⟨pos, message.reserved, c, false⟩]
      reservedBytes := sys.reservedBytes + message.reserved } := by
  have head : sys.block.metaData.headBytes = pos := here
  have generation : sys.block.metaData.generation = gen := current
  simp [advanceMarked, claimed, advance, sendStep, place, head, generation, ready,
    mapToType_boundary boundary]

/-- The compare-exchange for a wrap record together with its publication. -/
theorem advanceMarked_casWrap {gen pos tries born : ℕ}
    (place : sys.calls c = ⟨message, .casWrap gen pos tries, born⟩)
    (here : sys.head = pos) (boundary : Boundary pos) :
    sys.advanceMarked c false = { sys with
      block.metaData.headBytes := wrap64 (pos + spaceTilWrap pos)
      block.bytes := storeState (storeFields
        (storeState sys.block.bytes (getHeaderOffset pos) stateWriting) (getHeaderOffset pos)
        (wrapHeader (spaceTilWrap pos) gen stateWriting)) (getHeaderOffset pos) stateWrap
      calls := Function.update sys.calls c
        ⟨message, retry gen (wrap64 (pos + spaceTilWrap pos)) (tries + 1), born⟩
      log := sys.log ++ [⟨pos, spaceTilWrap pos, c, true⟩]
      reservedBytes := sys.reservedBytes + spaceTilWrap pos } := by
  have head : sys.block.metaData.headBytes = pos := here
  simp [advanceMarked, claimed, advance, sendStep, place, head, mapToType_boundary boundary]

/-- A call that runs alone up to the point where its header fields are stored. -/
theorem fill_alone (inv : sys.Inv) (moves : Moves ok fused) (idle : (sys.calls c).pc = .idle)
    (range : message.InRange) (drained : sys.tail = sys.head)
    (fits : sys.head % dataBlockSize + message.reserved ≤ dataUsableLimit)
    (small : sys.reservedBytes + message.reserved < 2 ^ 64)
    (above : floor ≤ getHeaderOffset sys.head) :
    ∃ base next, Reaches step ok sys next ∧
      Obtained sys base c floor ⟨sys.head, message.reserved, c, false⟩ ∧
      Alone base next c message floor (.filled sys.generation sys.head) := by
  obtain ⟨searched, reach, alone⟩ := search_alone inv moves idle range (by omega) floor
  rw [checkSpace_drained inv range drained, if_neg (by omega)] at alone
  obtain ⟨claim, obtained, alone0⟩ := alone.claimData small
  have bound : (searched.advance c false).reservedBytes < 2 ^ 64 := by
    rw [obtained.reservedBytes]
    exact small
  have behind : (searched.advance c false).tail ≤ sys.head ∧ floor ≤ getHeaderOffset sys.head :=
    ⟨by rw [obtained.tail, drained], above⟩
  have plain0 := alone0.unclaimed (by rintro _ _ _ ⟨⟩) (by rintro _ _ _ ⟨⟩)
  have alone1 := alone0.step (.checked sys.generation sys.head) plain0 bound (by
    have generation : (searched.advance c false).block.metaData.generation = sys.generation :=
      obtained.generation
    simp only [sendStep, alone0.inv.ready, generation, ne_eq, not_true_eq_false, or_self, ↓reduceIte,
      mapToType_boundary inv.headBoundary]) (by rintro _ _ ⟨⟩)
  have plain1 := alone1.unclaimed (by rintro _ _ _ ⟨⟩) (by rintro _ _ _ ⟨⟩)
  have alone2 := alone1.step (.marked sys.generation sys.head) plain1 bound rfl (by
    rintro pos size ⟨⟩
    exact behind)
  have marked := reach.trans (moves.claimData claim rfl plain0 plain1)
  obtain ⟨reach3, alone3⟩ := alone2.run moves marked (.filled sys.generation sys.head)
    (by rintro _ _ _ ⟨⟩) (by rintro _ _ _ ⟨⟩) bound rfl (by
      rintro pos size ⟨⟩
      exact behind)
  exact ⟨_, _, reach3, obtained, alone3⟩

/-- A call that runs alone on a drained ring, when its record fits before the end of the block. -/
theorem send_alone (inv : sys.Inv) (moves : Moves ok fused) (idle : (sys.calls c).pc = .idle)
    (range : message.InRange) (drained : sys.tail = sys.head)
    (fits : sys.head % dataBlockSize + message.reserved ≤ dataUsableLimit)
    (small : sys.reservedBytes + message.reserved < 2 ^ 64)
    (above : floor ≤ getHeaderOffset sys.head) :
    ∃ base next, Reaches step ok sys next ∧
      Obtained sys base c floor ⟨sys.head, message.reserved, c, false⟩ ∧
      Alone base next c message floor (.done .none) := by
  obtain ⟨base, filled, reach, obtained, alone⟩ :=
    fill_alone inv moves idle range drained fits small above
  have bound : base.reservedBytes < 2 ^ 64 := by
    rw [obtained.reservedBytes]
    exact small
  have behind : base.tail ≤ sys.head ∧ floor ≤ getHeaderOffset sys.head :=
    ⟨by rw [obtained.tail, drained], above⟩
  obtain ⟨reach1, alone1⟩ := alone.run moves reach (.copied sys.generation sys.head) nofun nofun
    bound rfl (by
      rintro pos size ⟨⟩
      exact behind)
  obtain ⟨reach2, alone2⟩ := alone1.run moves reach1 (.committed sys.generation sys.head) nofun
    nofun bound rfl (by
      rintro pos size ⟨⟩
      exact behind)
  obtain ⟨reach3, alone3⟩ := alone2.run moves reach2 (.counted sys.generation sys.head) nofun nofun
    bound rfl nofun
  obtain ⟨reach4, alone4⟩ := alone3.run moves reach3 (.done .none) nofun nofun bound rfl nofun
  exact ⟨base, _, reach4, obtained, alone4⟩

/-- A call that runs alone on a drained ring, when its record does not fit before the end of the
block: it publishes a wrap record and goes back to its loop. -/
theorem wrap_alone (inv : sys.Inv) (moves : Moves ok fused) (idle : (sys.calls c).pc = .idle)
    (range : message.InRange) (drained : sys.tail = sys.head)
    (overflow : sys.head % dataBlockSize + message.reserved > dataUsableLimit)
    (small : sys.reservedBytes + spaceTilWrap sys.head < 2 ^ 64)
    (above : floor ≤ getHeaderOffset sys.head) :
    ∃ base next, Reaches step ok sys next ∧
      Obtained sys base c floor ⟨sys.head, spaceTilWrap sys.head, c, true⟩ ∧
      Alone base next c message floor
        (retry sys.generation (wrap64 (sys.head + spaceTilWrap sys.head)) 1) := by
  obtain ⟨searched, reach, alone⟩ := search_alone inv moves idle range (by omega) floor
  rw [checkSpace_drained inv range drained, if_pos overflow] at alone
  obtain ⟨claim, obtained, alone0⟩ := alone.claimWrap inv.headBoundary small
  have bound : (searched.advance c false).reservedBytes < 2 ^ 64 := by
    rw [obtained.reservedBytes]
    exact small
  have behind : (searched.advance c false).tail ≤ sys.head ∧ floor ≤ getHeaderOffset sys.head :=
    ⟨by rw [obtained.tail, drained], above⟩
  have plain0 := alone0.unclaimed nofun nofun
  have alone1 := alone0.step (.wrapMarked sys.generation sys.head 0) plain0 bound rfl (by
    rintro pos size ⟨⟩
    exact behind)
  have plain1 := alone1.unclaimed nofun nofun
  have alone2 := alone1.step (.wrapFilled sys.generation sys.head 0) plain1 bound rfl (by
    rintro pos size ⟨⟩
    exact behind)
  have plain2 := alone2.unclaimed nofun nofun
  have alone3 := alone2.step (retry sys.generation (wrap64 (sys.head + spaceTilWrap sys.head)) 1)
    plain2 bound rfl (by
      rintro pos size ⟨⟩
      exact behind)
  exact ⟨_, _, reach.trans (moves.claimWrap claim rfl plain0 plain1 plain2), obtained, alone3⟩

/-- Seen from `sys`, call `c` has moved the positions by `size` and the ring is drained again. -/
structure Drained (sys next : Sys ι) (c : ι) (floor size : ℕ) : Prop where
  inv : next.Inv
  drained : next.tail = next.head
  head : next.head = sys.head + size
  reservedBytes : next.reservedBytes = sys.reservedBytes + size
  generation : next.generation = sys.generation
  incarnation : next.incarnation = sys.incarnation
  other : ∀ d, d ≠ c → next.calls d = sys.calls d
  low : ∀ query, query < floor → next.block.bytes query = sys.block.bytes query

omit [DecidableEq ι] in
/-- On a drained ring the next reservation is the only unread one. -/
theorem Obtained.unread {r : Reservation ι} (obtained : Obtained sys base c floor r) (inv : sys.Inv)
    (drained : sys.tail = sys.head) (here : r.pos = sys.head)
    (alone : Alone base next c message floor pc) : next.unread = [r] := by
  have passed : sys.log.filter (fun r => sys.head ≤ r.pos) = [] := by
    rw [List.filter_eq_nil_iff]
    intro r' member
    have := inv.tiles.mem_bounds member
    simp only [decide_eq_true_eq]
    omega
  unfold Sys.unread
  rw [alone.ring.log, obtained.log, alone.ring.tail, obtained.tail, drained,
    List.filter_append, passed,
    List.filter_cons_of_pos (by simp only [decide_eq_true_eq]; omega)]
  rfl

omit [DecidableEq ι] in
/-- What a call that ran alone has published is all that a `recv` meets. -/
theorem Obtained.published {r : Reservation ι} (obtained : Obtained sys base c floor r)
    (inv : sys.Inv)
    (drained : sys.tail = sys.head) (here : r.pos = sys.head) (mine : r.owner = c)
    (small : sys.reservedBytes + r.size < 2 ^ 64) (alone : Alone base next c message floor pc)
    (final : r.phase pc = .final) :
    (∀ r' ∈ next.unread, r' = r ∧ next.phase r' = .final) ∧ next.RecvSafe ∧
      next.reservedBytes < 2 ^ 64 := by
  have unread := obtained.unread inv drained here alone
  have phase : next.phase r = .final := by
    unfold Sys.phase
    rw [mine, alone.self]
    exact final
  have only (r' : Reservation ι) (member : r' ∈ next.unread) : r' = r ∧ next.phase r' = .final := by
    rw [unread] at member
    rw [List.mem_singleton.mp member]
    exact ⟨rfl, phase⟩
  refine ⟨only, ?_, ?_⟩
  · intro r' reached unmarked
    rw [(only r' (mem_unread.mpr ⟨reached.1, reached.2.1⟩)).2] at unmarked
    cases unmarked
  · rw [alone.ring.reservedBytes, obtained.reservedBytes]
    exact small

omit [DecidableEq ι] in
/-- Receiving what a call that ran alone has published drains the ring. -/
theorem Obtained.drain {r : Reservation ι} (obtained : Obtained sys base c floor r) (inv : sys.Inv)
    (drained : sys.tail = sys.head) (here : r.pos = sys.head) (mine : r.owner = c)
    (small : sys.reservedBytes + r.size < 2 ^ 64) (alone : Alone base next c message floor pc)
    (final : r.phase pc = .final) :
    Drained sys next.receive c floor r.size ∧ next.receive.block.bytes = next.block.bytes := by
  obtain ⟨only, safe, bytesBound⟩ := obtained.published inv drained here mine small alone final
  have nextHead : next.head = sys.head + r.size := by rw [alone.ring.head, obtained.head]
  obtain ⟨run, returned, view⟩ := alone.inv.recv_view bytesBound safe
  have received := receive_eq returned
  obtain ⟨_, bytes, generation, head⟩ := view.frame
  have tail : run.block.metaData.tailBytes = next.head := by
    generalize next.consumedAt = stop at view
    cases view with
    | drained skipped => rfl
    | waiting wraps rest r' split skipped unfinished =>
      exact absurd (only r' (mem_unread_of_split split)).2 unfinished
    | found wraps rest r' split skipped isData final =>
      simp only [ShmBlock.consumed, (only r' (mem_unread_of_split split)).1, here, nextHead]
  have nextInv := alone.inv.receive bytesBound safe
  rw [received] at nextInv ⊢
  refine ⟨⟨nextInv, tail.trans head.symm, head.trans nextHead, ?_, ?_, ?_, ?_, ?_⟩, bytes⟩
  · simp only [alone.ring.reservedBytes, obtained.reservedBytes]
  · exact generation.trans (alone.ring.generation.trans obtained.generation)
  · exact alone.ring.incarnation.trans obtained.incarnation
  · exact fun d distinct => (alone.other d distinct).trans (obtained.other d distinct)
  · intro query below
    simp only [bytes]
    exact (alone.low query below).trans (obtained.low query below)

omit [DecidableEq ι] in
/-- A `recv` hands out the record of a call that ran alone, and skips its wrap record. -/
theorem Obtained.answer {r : Reservation ι} (obtained : Obtained sys base c floor r) (inv : sys.Inv)
    (drained : sys.tail = sys.head) (here : r.pos = sys.head) (mine : r.owner = c)
    (small : sys.reservedBytes + r.size < 2 ^ 64) (alone : Alone base next c message floor pc)
    (final : r.phase pc = .final) :
    ∃ run, recv (recvFuel next.block) next.block next.recvBuf recvBufSize = .returned run ∧
      run.data = if r.wrap then { code := .noRecords } else message.recvData := by
  obtain ⟨only, safe, bytesBound⟩ := obtained.published inv drained here mine small alone final
  have member : r ∈ next.unread := by
    rw [obtained.unread inv drained here alone]
    exact List.mem_singleton_self r
  obtain ⟨run, returned, view⟩ := alone.inv.recv_view bytesBound safe
  refine ⟨run, returned, ?_⟩
  generalize next.consumedAt = stop at view
  cases view with
  | drained skipped => rw [if_pos (skipped r member).1]
  | waiting wraps rest r' split skipped unfinished =>
    exact absurd (only r' (mem_unread_of_split split)).2 unfinished
  | found wraps rest r' split skipped isData final =>
    obtain rfl := (only r' (mem_unread_of_split split)).1
    rw [if_neg (by rw [isData]; exact nofun), mine, alone.self]

/-- How far a call that runs alone moves the positions of a drained ring. -/
def stride (message : Message) (head : ℕ) : ℕ :=
  if head % dataBlockSize + message.reserved > dataUsableLimit then spaceTilWrap head
  else message.reserved

/-- One call alone, and a `recv`. -/
theorem Inv.pass (inv : sys.Inv) (permits : Permits ok fused) (idle : (sys.calls c).pc = .idle)
    (range : message.InRange) (drained : sys.tail = sys.head)
    (small : sys.reservedBytes + stride message sys.head < 2 ^ 64)
    (above : floor ≤ getHeaderOffset sys.head) :
    ∃ next, Reaches step ok sys next ∧ Drained sys next c floor (stride message sys.head) := by
  unfold stride at small ⊢
  split at small
  · rename_i overflow
    obtain ⟨base, next, reach, obtained, alone⟩ :=
      wrap_alone inv permits.toMoves idle range drained overflow small above
    rw [if_pos overflow]
    exact ⟨next.receive, reach.tail (permits.recv next), (obtained.drain inv drained rfl rfl small
      alone (Reservation.phase_of_wrap rfl (retry_unbound ..).wrap)).1⟩
  · rename_i fits
    obtain ⟨base, next, reach, obtained, alone⟩ :=
      send_alone inv permits.toMoves idle range drained (by omega) small above
    rw [if_neg fits]
    exact ⟨next.receive, reach.tail (permits.recv next),
      (obtained.drain inv drained rfl rfl small alone rfl).1⟩

/-- A message of the largest size. -/
def filler : Message := ⟨0, 0, 0, List.replicate recvBufSize 0⟩

theorem filler_inRange : filler.InRange := by
  simp only [Message.InRange, filler, List.length_replicate]
  exact ⟨by decide, le_rfl⟩

private theorem filler_reserved : filler.reserved = 1048656 := by
  rw [filler_inRange.reserved]
  simp only [filler, List.length_replicate, recvBufSize_eq]

theorem stride_bounds (head : ℕ) (boundary : Boundary head) :
    0 < stride filler head ∧ stride filler head ≤ 1048696 ∧
      stride filler head ≤ spaceTilWrap head ∧
      (stride filler head < spaceTilWrap head → stride filler head = filler.reserved ∧
        head % dataBlockSize + filler.reserved ≤ dataUsableLimit) := by
  have limit := boundary.2
  have aligned := boundary.1
  unfold stride spaceTilWrap
  rw [filler_reserved, dataUsableLimit_eq] at *
  rw [dataBlockSize_eq] at *
  split_ifs <;> omega

end Sys

namespace Sys

variable {ok : Sys ℕ → Action ℕ → Prop} {fused : Bool} {sys : Sys ℕ}

/-- The calls from `n` on have not begun. -/
def IdleFrom (sys : Sys ℕ) (n : ℕ) : Prop := ∀ k, n ≤ k → (sys.calls k).pc = .idle

/-- Seen from `sys`, calls from `n` on have moved the drained ring by `distance`. -/
structure Passed (sys next : Sys ℕ) (n floor distance : ℕ) : Prop where
  inv : next.Inv
  drained : next.tail = next.head
  head : next.head = sys.head + distance
  reservedBytes : next.reservedBytes = sys.reservedBytes + distance
  generation : next.generation = sys.generation
  incarnation : next.incarnation = sys.incarnation
  other : ∀ k, k < n → next.calls k = sys.calls k
  low : ∀ query, query < floor → next.block.bytes query = sys.block.bytes query
  idle : ∃ m, n ≤ m ∧ next.IdleFrom m

/-- Calls that run alone one after the other carry a drained ring to the start of the next lap. -/
theorem Inv.lap (inv : sys.Inv) (permits : Permits ok fused) {n floor : ℕ} (idle : sys.IdleFrom n)
    (drained : sys.tail = sys.head)
    (small : sys.reservedBytes + spaceTilWrap sys.head < 2 ^ 64)
    (above : floor ≤ getHeaderOffset sys.head) :
    ∃ next, Reaches step ok sys next ∧ Passed sys next n floor (spaceTilWrap sys.head) := by
  induction rest : spaceTilWrap sys.head using Nat.strong_induction_on generalizing sys n with
  | _ rest ih =>
    subst rest
    obtain ⟨positive, _, within, part⟩ := stride_bounds sys.head inv.headBoundary
    obtain ⟨next, reach, passed⟩ := inv.pass permits (idle n le_rfl) filler_inRange drained
      (by omega) above
    have idleNext : next.IdleFrom (n + 1) := by
      intro k later
      rw [passed.other k (by omega)]
      exact idle k (by omega)
    rcases Nat.lt_or_ge (stride filler sys.head) (spaceTilWrap sys.head) with more | last
    · obtain ⟨size, fits⟩ := part more
      have offset : next.head % dataBlockSize = sys.head % dataBlockSize + filler.reserved := by
        rw [passed.head, size]
        rw [dataUsableLimit_eq] at fits
        rw [dataBlockSize_eq] at fits ⊢
        omega
      have remaining : spaceTilWrap next.head + stride filler sys.head = spaceTilWrap sys.head := by
        rw [dataUsableLimit_eq] at fits
        unfold spaceTilWrap
        rw [offset, size]
        rw [dataBlockSize_eq] at fits ⊢
        omega
      obtain ⟨last, reachLast, lap⟩ := ih (spaceTilWrap next.head) (by omega) passed.inv idleNext
        passed.drained (by rw [passed.reservedBytes]; omega)
        (by
          have : getHeaderOffset sys.head ≤ getHeaderOffset next.head := by
            unfold getHeaderOffset
            omega
          omega) rfl
      obtain ⟨m, mLarge, mIdle⟩ := lap.idle
      refine ⟨last, reach.trans reachLast, lap.inv, lap.drained, ?_, ?_,
        lap.generation.trans passed.generation, lap.incarnation.trans passed.incarnation, ?_, ?_,
        m, by omega, mIdle⟩
      · have first := passed.head
        have second := lap.head
        omega
      · have first := passed.reservedBytes
        have second := lap.reservedBytes
        omega
      · intro k earlier
        rw [lap.other k (by omega), passed.other k (by omega)]
      · intro query below
        rw [lap.low query below, passed.low query below]
    · have equal : stride filler sys.head = spaceTilWrap sys.head := by omega
      rw [equal] at passed
      exact ⟨next, reach, passed.inv, passed.drained, passed.head, passed.reservedBytes,
        passed.generation, passed.incarnation, fun k earlier => passed.other k (by omega), passed.low,
        n + 1, by omega, idleNext⟩

end Sys

end Eroil.Shm
