import Eroil.Proofs.Shm.Frame

/-! # Every sender step keeps the invariant

The cases follow the program counter of `ShmSend::send`. The one arithmetic argument is
`wrap_space`: the space check is made for the data record, the wrap record is longer, and it
still fits because no boundary lies in the last 48 bytes of a lap.
-/

namespace Eroil.Shm

open Lib

/-- A passed space check leaves room for the wrap record too. -/
private theorem wrap_space {head tail reserved : ℕ} (tailBoundary : Boundary tail)
    (ordered : tail ≤ head)
    (space : head - tail + reserved ≤ dataBlockSize)
    (overflow : head % dataBlockSize + reserved > dataUsableLimit) :
    head + spaceTilWrap head ≤ tail + dataBlockSize := by
  have limit := tailBoundary.2
  unfold spaceTilWrap
  rw [dataUsableLimit_eq] at overflow limit
  rw [dataBlockSize_eq] at *
  omega

/-- A wrap record from a boundary ends at the end of the block. -/
theorem spaceTilWrap_placed {ι : Type*} {head : ℕ} (boundary : Boundary head) (c : ι) :
    Reservation.Placed ⟨head, spaceTilWrap head, c, true⟩ := by
  have aligned := boundary.1
  have limit := boundary.2
  rw [dataUsableLimit_eq] at limit
  refine ⟨boundary, ?_, ?_, ?_⟩ <;> simp only [spaceTilWrap, ↓reduceIte] <;>
    rw [dataBlockSize_eq] at * <;> omega

namespace SendPc

theorem not_ownsData {pc : SendPc} (data : pc.dataAt = none) (unfinished : pc ≠ .done .none)
    (pos : ℕ) : ¬ pc.OwnsData pos := by
  rintro (⟨gen, at'⟩ | finished)
  · rw [data] at at'
    cases at'
  · exact unfinished finished

/-- A call that has reserved its data record is writing no wrap record. -/
theorem wrapAt_of_dataAt {pc : SendPc} {gen head : ℕ}
    (writing : pc.dataAt = some (gen, head)) :
    pc.wrapAt = none ∧ pc ≠ .idle ∧ ∀ result, pc ≠ .done result := by
  cases pc <;> first | (cases writing; done) | exact ⟨rfl, nofun, fun _ => nofun⟩

/-- Program counters of a call that holds no reservation of its own at the moment. -/
structure Unbound (pc : SendPc) : Prop where
  wrap : pc.wrapAt = none
  data : pc.dataAt = none
  unfinished : pc ≠ .done .none

/-- A call that holds no reservation owns no data record. -/
private theorem Unbound.wrap_of_owner {ι : Type*} {pc : SendPc} (unbound : pc.Unbound)
    {r : Reservation ι}
    (owner : r.wrap = false → pc.OwnsData r.pos) : r.wrap = true := by
  by_contra notWrap
  exact not_ownsData unbound.data unbound.unfinished _ (owner (by simpa using notWrap))

theorem Unbound.placed {call : Call} (unbound : call.pc.Unbound) : call.Placed := by
  constructor
  · intro gen pos writing
    rw [unbound.wrap] at writing
    cases writing
  · intro gen pos writing
    rw [unbound.data] at writing
    cases writing

end SendPc

theorem retry_cases (gen head tries : ℕ) :
    retry gen head tries = .loadTail gen head tries ∨
      retry gen head tries = .done .couldNotAllocate := by
  unfold retry
  split
  · exact .inl rfl
  · exact .inr rfl

theorem retry_unbound (gen head tries : ℕ) : (retry gen head tries).Unbound := by
  rcases retry_cases gen head tries with loop | stop
  · rw [loop]
    exact ⟨rfl, rfl, nofun⟩
  · rw [stop]
    exact ⟨rfl, rfl, nofun⟩

theorem checkSpace_unbound (message : Message) (gen head tail tries : ℕ) :
    (checkSpace message gen head tail tries).Unbound := by
  unfold checkSpace
  split_ifs <;> exact ⟨rfl, rfl, nofun⟩

theorem Reservation.phase_of_wrap {ι : Type*} {r : Reservation ι} {pc : SendPc}
    (isWrap : r.wrap = true) (idle : pc.wrapAt = none) : r.phase pc = .final := by
  cases pc <;> simp_all [Reservation.phase, SendPc.wrapAt]

/-- A published reservation stays published while its owner moves on. -/
theorem Reservation.phase_sendStep {ι : Type*} {r : Reservation ι} {block : ShmBlock}
    {message : Message} {pc : SendPc} {spurious : Bool} (final : r.phase pc = .final)
    (elsewhere : r.pos ≠ block.metaData.headBytes) (owns : r.wrap = false → pc.OwnsData r.pos) :
    r.phase (sendStep spurious block message pc).2 = .final := by
  cases isWrap : r.wrap with
  | true =>
    fun_cases sendStep spurious block message pc
    case case11 gen head tries success =>
      -- The next wrap record starts at the present head, behind this one.
      have distinct : head ≠ r.pos := fun same => elsewhere (same.symm.trans success.1.symm)
      rcases mapped : mapToType sizeofRecordHeader (getHeaderOffset head) with _ | offset
      · simp only
        exact phase_of_wrap isWrap (retry_unbound ..).wrap
      · simp only [Reservation.phase, distinct, and_false, ↓reduceIte]
    all_goals first
      | exact phase_of_wrap isWrap rfl
      | exact phase_of_wrap isWrap (retry_unbound ..).wrap
      | exact phase_of_wrap isWrap (checkSpace_unbound ..).wrap
      | simp_all [Reservation.phase]
  | false =>
    have owner := owns isWrap
    fun_cases sendStep spurious block message pc <;>
      simp_all [Reservation.phase, SendPc.OwnsData, SendPc.dataAt]

/-! ## What each store does to the record it belongs to -/

namespace Phase.Holds

variable {bytes : ByteMemory} {offset : ℕ} {header : RecordHeader} {payload : List UInt8}

theorem mark (bytes : ByteMemory) (offset : ℕ) (header : RecordHeader) (payload : List UInt8) :
    Phase.marked.Holds (storeState bytes offset stateWriting) offset header payload :=
  ByteMemory.loadWord_storeWord_same _ _ _ _ (by decide)

theorem fill (marked : Phase.marked.Holds bytes offset header payload) (fits : header.Fits) :
    Phase.filled.Holds (storeFields bytes offset { header with state := stateWriting }) offset
      header payload := by
  have read := readRecordHeader_storeFields bytes offset { header with state := stateWriting }
    ⟨fits.magic, fits.flags, fits.userSeq, fits.totalSize, fits.payloadSize, fits.epoch⟩
  simp only [Holds] at marked ⊢
  rw [read, marked]

theorem copy (filled : Phase.filled.Holds bytes offset header payload) :
    Phase.copied.Holds (bytes.store (offset + 48) payload) offset header payload := by
  refine ⟨?_, ByteMemory.load_store_same _ _ _⟩
  have header : readRecordHeader (bytes.store (offset + 48) payload) offset =
      readRecordHeader bytes offset :=
    readRecordHeader_congr fun query _ upper => ByteMemory.store_outside _ _ _ _ (.inl upper)
  rw [header]
  exact filled

theorem commit (copied : Phase.copied.Holds bytes offset header payload)
    (fits : header.state < 2 ^ 32) :
    Phase.final.Holds (storeState bytes offset header.state) offset header payload := by
  obtain ⟨read, load⟩ := copied
  refine ⟨by rw [readRecordHeader_storeState _ _ _ fits, read], ?_⟩
  have unchanged : (storeState bytes offset header.state).load (offset + 48) payload.length =
      bytes.load (offset + 48) payload.length :=
    ByteMemory.load_congr fun query lower _ => storeState_outside _ _ _ _ (.inr lower)
  rw [unchanged]
  exact load

/-- A record without payload is complete once its fields are stored. -/
private theorem publish (filled : Phase.filled.Holds bytes offset header [])
    (fits : header.state < 2 ^ 32) :
    Phase.final.Holds (storeState bytes offset header.state) offset header [] :=
  commit ⟨filled, rfl⟩ fits

end Phase.Holds

private theorem wrapHeader_fits {space gen state : ℕ} (small : space < 2 ^ 64)
    (genSmall : gen < 2 ^ 64) :
    (wrapHeader space gen state).Fits :=
  ⟨by simp only [wrapHeader, magicNum]; omega, by simp only [wrapHeader]; omega,
    by simp only [wrapHeader]; omega, small, by simp only [wrapHeader]; omega, genSmall⟩

theorem Message.InRange.header_fits {message : Message} (range : message.InRange) {gen state : ℕ}
    (genSmall : gen < 2 ^ 64) : (message.header gen state).Fits := by
  have bounds := range.bounds
  have seq := message.seq.toNat_lt
  exact ⟨by simp only [Message.header, magicNum]; omega, by simp only [Message.header]; omega,
    by simp only [Message.header]; omega, by simp only [Message.header]; omega,
    by simp only [Message.header]; omega, genSmall⟩

/-- No sender step changes the readiness, the generation or the tail. -/
theorem sendStep_frame (spurious : Bool) (block : ShmBlock) (message : Message) (pc : SendPc) :
    (sendStep spurious block message pc).1.hdr = block.hdr ∧
      (sendStep spurious block message pc).1.metaData.generation = block.metaData.generation ∧
      (sendStep spurious block message pc).1.metaData.tailBytes = block.metaData.tailBytes := by
  fun_cases sendStep spurious block message pc <;> exact ⟨rfl, rfl, rfl⟩

/-- Only a successful compare-exchange moves the head. -/
private theorem sendStep_head {spurious : Bool} {block : ShmBlock} {message : Message} {pc : SendPc}
    (wrapFails : ∀ gen head tries, pc = .casWrap gen head tries →
      ¬ (block.metaData.headBytes = head ∧ spurious = false))
    (dataFails : ∀ gen head tries, pc = .casData gen head tries →
      ¬ (block.metaData.headBytes = head ∧ spurious = false)) :
    (sendStep spurious block message pc).1.metaData.headBytes = block.metaData.headBytes := by
  fun_cases sendStep spurious block message pc <;>
    first
    | rfl
    | exact absurd ‹_ ∧ _› (wrapFails _ _ _ rfl)
    | exact absurd ‹_ ∧ _› (dataFails _ _ _ rfl)

namespace Sys

variable {ι : Type*} [DecidableEq ι] {sys next : Sys ι} {c : ι} {pc : SendPc}

theorem advance_moved (sys : Sys ι) (c : ι) (spurious : Bool) :
    Moved sys (sys.advance c spurious) c
      (sendStep spurious sys.block (sys.calls c).message (sys.calls c).pc).2 := rfl

/-- A step that reserves nothing moves neither head nor tail. -/
theorem advance_same (sys : Sys ι) (c : ι) (spurious : Bool)
    (unclaimed : sys.claimed c spurious = none) : SameRing sys (sys.advance c spurious) := by
  have log : (sys.advance c spurious).log = sys.log := by
    simp only [advance, unclaimed, Option.toList_none, List.append_nil]
  have reservedBytes : (sys.advance c spurious).reservedBytes = sys.reservedBytes := by
    simp only [advance, unclaimed, Option.map_none, Option.getD_none, Nat.add_zero]
  have frame := sendStep_frame spurious sys.block (sys.calls c).message (sys.calls c).pc
  refine ⟨congrArg ShmHeader.state frame.1, frame.2.1, ?_, frame.2.2, log, rfl, reservedBytes⟩
  apply sendStep_head
  · intro gen head tries stage
    simp only [claimed, stage] at unclaimed
    split_ifs at unclaimed with success
    exact success
  · intro gen head tries stage
    simp only [claimed, stage] at unclaimed
    split_ifs at unclaimed with success
    exact success

/-- The locals of a call that holds no reservation are what it loaded from the ring. -/
theorem LocalsOk.of_unbound (moved : Moved sys next c pc) (unbound : pc.Unbound)
    (searching : next.Searching (sys.calls c).message pc) : next.LocalsOk c := by
  refine ⟨?_, ?_, ?_, ?_⟩ <;> rw [moved.self]
  · exact searching
  · intro gen pos writing
    rw [unbound.wrap] at writing
    cases writing
  · intro gen pos writing
    rw [unbound.data] at writing
    cases writing
  · exact fun finished => absurd finished unbound.unfinished

/-- A call between two program counters that hold no reservation. -/
theorem Inv.search (inv : sys.Inv) (same : SameRing sys next) (moved : Moved sys next c pc)
    (bytes : next.block.bytes = sys.block.bytes) (active : (sys.calls c).pc ≠ .idle)
    (before : (sys.calls c).pc.Unbound) (after : pc.Unbound)
    (searching : (sys.calls c).born = sys.incarnation →
      sys.Searching (sys.calls c).message pc) : next.Inv := by
  have notOwner := SendPc.not_ownsData before.data before.unfinished
  refine inv.quiet same moved bytes active (fun _ pos owner => absurd owner (notOwner pos)) ?_ ?_ ?_
  · intro _ r owner
    have isWrap := before.wrap_of_owner owner
    rw [Reservation.phase_of_wrap isWrap after.wrap, Reservation.phase_of_wrap isWrap before.wrap]
  · exact after.placed
  · intro current
    have goal := searching current
    refine .of_unbound moved after ?_
    revert goal
    cases pc <;> simp only [Searching, same.generation, same.head, same.tail] <;> exact id

omit [DecidableEq ι] in
/-- The checks of one loop iteration give the locals what the compare-exchange relies on. -/
theorem Inv.checkSpace (inv : sys.Inv) {message : Message} (range : message.InRange)
    {head tries : ℕ} (boundary : Boundary head) (below : head ≤ sys.head) :
    sys.Searching message (checkSpace message sys.generation head sys.tail tries) := by
  have window := inv.window
  have size := range.bounds.2.2
  unfold Shm.checkSpace
  rw [dataBlockSize_eq] at window
  split_ifs with behind full outside wraps
  · exact rfl
  · exact .inr (.inl rfl)
  · exact absurd boundary.2 (by omega)
  · rw [wrap64_of_lt (by omega)] at full
    exact ⟨rfl, boundary, wrap_space inv.tailBoundary (by omega) (by omega) wraps⟩
  · rw [wrap64_of_lt (by omega)] at full
    exact ⟨rfl, boundary, by omega, by omega⟩

omit [DecidableEq ι] in
theorem Inv.retry (inv : sys.Inv) (message : Message) (tries : ℕ) :
    sys.Searching message (retry sys.generation sys.head tries) := by
  rcases retry_cases sys.generation sys.head tries with loop | stop
  · rw [loop]
    exact ⟨rfl, inv.headBoundary, le_rfl⟩
  · rw [stop]
    exact .inr (.inr rfl)

/-- A call that goes back to its loop with the present head. -/
theorem Inv.advance_retry (inv : sys.Inv) {gen tries : ℕ} {spurious : Bool}
    (active : (sys.calls c).pc ≠ .idle) (unbound : (sys.calls c).pc.Unbound)
    (move : sendStep spurious sys.block (sys.calls c).message (sys.calls c).pc =
      (sys.block, Shm.retry gen sys.head tries))
    (unclaimed : sys.claimed c spurious = none)
    (generation : (sys.calls c).born = sys.incarnation → gen = sys.generation) :
    (sys.advance c spurious).Inv := by
  have moved := sys.advance_moved c spurious
  rw [move] at moved
  refine inv.search (sys.advance_same c _ unclaimed) moved (by simp only [Sys.advance, move]) active
    unbound (retry_unbound ..) ?_
  intro current
  rw [generation current]
  exact inv.retry _ _

/-- A successful compare-exchange, for either kind of record. -/
theorem Inv.advance_claim (inv : sys.Inv) {r : Reservation ι}
    (claim : sys.claimed c false = some r)
    (move : sendStep false sys.block (sys.calls c).message (sys.calls c).pc =
      ({ sys.block with metaData.headBytes := wrap64 (r.pos + r.size) }, pc))
    (here : r.pos = sys.head) (owner : r.owner = c)
    (current : (sys.calls c).born = sys.incarnation) (placed : r.Placed)
    (space : sys.head + r.size ≤ sys.tail + dataBlockSize) (active : (sys.calls c).pc ≠ .idle)
    (data : r.wrap = false → r.size = (sys.calls c).message.reserved ∧ pc.OwnsData r.pos)
    (fresh : ∀ pos, ¬ (sys.calls c).pc.OwnsData pos) (phaseNew : r.phase pc = .unmarked)
    (phase : ∀ r' : Reservation ι, r'.pos ≠ r.pos → r'.wrap = true →
      r'.phase pc = r'.phase (sys.calls c).pc)
    (stored : Call.Placed { sys.calls c with pc := pc })
    (locals : (sys.advance c false).generation = sys.generation →
      r ∈ (sys.advance c false).log → (sys.advance c false).LocalsOk c)
    (bound : (sys.advance c false).reservedBytes < 2 ^ 64) : (sys.advance c false).Inv := by
  have moved := sys.advance_moved c false
  rw [move] at moved
  have reservedBytes : (sys.advance c false).reservedBytes = sys.reservedBytes + r.size := by
    simp only [advance, claim, Option.map_some, Option.getD_some]
  have counted := inv.counted
  have newHead : (sys.advance c false).head = sys.head + r.size := by
    rw [← here]
    simp only [Sys.head, advance, move]
    exact wrap64_of_lt (by omega)
  have log : (sys.advance c false).log = sys.log ++ [r] := by
    simp only [advance, claim, Option.toList_some]
  have generation : (sys.advance c false).generation = sys.generation := by
    simp only [Sys.generation, advance, move]
  refine inv.claim moved (by simp only [advance, move]) (by simp only [advance, move]) generation
    newHead (by simp only [Sys.tail, advance, move]) log rfl reservedBytes here owner current placed
    space active data fresh phaseNew phase stored (locals generation ?_)
  rw [log]
  exact List.mem_append_right _ (List.mem_singleton_self _)

/-- Reserving a wrap record. -/
theorem Inv.advance_casWrap (inv : sys.Inv) {gen head tries : ℕ}
    (stage : (sys.calls c).pc = .casWrap gen head tries) (success : sys.head = head)
    (current : (sys.calls c).born = sys.incarnation)
    (bound : (sys.advance c false).reservedBytes < 2 ^ 64) : (sys.advance c false).Inv := by
  obtain ⟨generation, boundary, space⟩ := by
    have searching := (inv.locals c current).searching
    rwa [stage] at searching
  have claim : sys.claimed c false = some ⟨head, spaceTilWrap head, c, true⟩ := by
    simp only [claimed, stage, success, and_self, ↓reduceIte]
  have move : sendStep false sys.block (sys.calls c).message (sys.calls c).pc =
      ({ sys.block with metaData.headBytes := wrap64 (head + spaceTilWrap head) },
        .wrapReserved gen head tries) := by
    simp only [stage, sendStep, success, and_self, ↓reduceIte, mapToType_boundary boundary]
  have moved := sys.advance_moved c false
  rw [move] at moved
  refine inv.advance_claim claim move success.symm rfl current (spaceTilWrap_placed boundary c)
    (success ▸ space) (by rw [stage]; exact nofun) nofun ?_ ?_ ?_ ?_ ?_ bound
  · rw [stage]
    exact SendPc.not_ownsData rfl nofun
  · simp [Reservation.phase]
  · intro r' elsewhere isWrap
    rw [stage]
    simp [Reservation.phase, Ne.symm elsewhere]
  · refine ⟨?_, nofun⟩
    intro gen' pos writing
    cases writing
    exact boundary
  · intro sameGeneration member
    refine ⟨?_, ?_, ?_, ?_⟩ <;> rw [moved.self]
    · trivial
    · intro gen' pos writing
      cases writing
      exact ⟨generation.trans sameGeneration.symm, member⟩
    · intro gen' pos writing
      cases writing
    · intro finished
      cases finished

/-- Reserving a data record. -/
theorem Inv.advance_casData (inv : sys.Inv) {gen head tries : ℕ}
    (stage : (sys.calls c).pc = .casData gen head tries) (success : sys.head = head)
    (current : (sys.calls c).born = sys.incarnation)
    (bound : (sys.advance c false).reservedBytes < 2 ^ 64) : (sys.advance c false).Inv := by
  obtain ⟨generation, boundary, fits, space⟩ := by
    have searching := (inv.locals c current).searching
    rwa [stage] at searching
  have active : (sys.calls c).pc ≠ .idle := by rw [stage]; exact nofun
  have bounds := (inv.range c active).bounds
  have claim : sys.claimed c false = some ⟨head, (sys.calls c).message.reserved, c, false⟩ := by
    simp only [claimed, stage, success, and_self, ↓reduceIte]
  have move : sendStep false sys.block (sys.calls c).message (sys.calls c).pc =
      ({ sys.block with metaData.headBytes := wrap64 (head + (sys.calls c).message.reserved) },
        .reserved gen head) := by
    simp only [stage, sendStep, success, and_self, ↓reduceIte]
  have moved := sys.advance_moved c false
  rw [move] at moved
  have placed : Reservation.Placed ⟨head, (sys.calls c).message.reserved, c, false⟩ :=
    ⟨boundary, bounds.1, by have := bounds.2.1; simp only; omega, fits⟩
  refine inv.advance_claim claim move success.symm rfl current placed (success ▸ space) active
    (fun _ => ⟨rfl, .inl ⟨gen, rfl⟩⟩) ?_ ?_ ?_ ?_ ?_ bound
  · rw [stage]
    exact SendPc.not_ownsData rfl nofun
  · simp [Reservation.phase]
  · intro r' _ isWrap
    rw [Reservation.phase_of_wrap isWrap rfl, stage, Reservation.phase_of_wrap isWrap rfl]
  · refine ⟨nofun, ?_⟩
    intro gen' pos writing
    cases writing
    exact ⟨boundary, fits⟩
  · intro sameGeneration member
    refine ⟨?_, ?_, ?_, ?_⟩ <;> rw [moved.self]
    · trivial
    · intro gen' pos writing
      cases writing
    · intro gen' pos writing
      cases writing
      exact ⟨generation.trans sameGeneration.symm, member⟩
    · intro finished
      cases finished

/-- The locals of a call that goes on with the record it has reserved. -/
theorem LocalsOk.carry (ok : sys.LocalsOk c) (same : SameRing sys next) (moved : Moved sys next c pc)
    (wrap : pc.wrapAt = (sys.calls c).pc.wrapAt) (data : pc.dataAt = (sys.calls c).pc.dataAt)
    (unfinished : pc ≠ .done .none) (searching : next.Searching (sys.calls c).message pc) :
    next.LocalsOk c := by
  refine ⟨?_, ?_, ?_, ?_⟩ <;> rw [moved.self]
  · exact searching
  · intro gen pos writing
    rw [same.generation, same.log]
    exact ok.wrap gen pos (wrap.symm.trans writing)
  · intro gen pos writing
    rw [same.generation, same.log]
    exact ok.data gen pos (data.symm.trans writing)
  · exact fun finished => absurd finished unfinished

omit [DecidableEq ι] in
/-- A placed call stays placed while it goes on with the record it has reserved. -/
theorem Placed.carry (placed : (sys.calls c).Placed) (wrap : pc.wrapAt = (sys.calls c).pc.wrapAt)
    (data : pc.dataAt = (sys.calls c).pc.dataAt) : Call.Placed { sys.calls c with pc := pc } :=
  ⟨fun gen pos writing => placed.wrap gen pos (wrap.symm.trans writing),
    fun gen pos writing => placed.data gen pos (data.symm.trans writing)⟩

/-- Storing the next part of a wrap record: the bytes advance its phase, nothing else changes. -/
theorem Inv.advance_wrap (inv : sys.Inv) (gen head tries : ℕ) {spurious : Bool}
    {bytes : ByteMemory} (writing : (sys.calls c).pc.wrapAt = some (gen, head))
    (range : (sys.calls c).pc.storeRange (sys.calls c).message = some (head, spaceTilWrap head))
    (move : sendStep spurious sys.block (sys.calls c).message (sys.calls c).pc =
      ({ sys.block with bytes := bytes }, pc))
    (unclaimed : sys.claimed c spurious = none) (safe : sys.StoreSafe c)
    (changed : ∀ query, query < getHeaderOffset head ∨ getHeaderOffset head + 48 ≤ query →
      bytes query = sys.block.bytes query)
    (next : pc.wrapAt = some (gen, head) ∨
      pc = Shm.retry gen (wrap64 (head + spaceTilWrap head)) (tries + 1))
    (stored : gen < 2 ^ 64 →
      (Reservation.phase ⟨head, spaceTilWrap head, c, true⟩ (sys.calls c).pc).Holds
        sys.block.bytes (getHeaderOffset head) (wrapHeader (spaceTilWrap head) gen stateWrap) [] →
      (Reservation.phase ⟨head, spaceTilWrap head, c, true⟩ pc).Holds bytes (getHeaderOffset head)
        (wrapHeader (spaceTilWrap head) gen stateWrap) [])
    (bound : sys.reservedBytes < 2 ^ 64) : (sys.advance c spurious).Inv := by
  have active : (sys.calls c).pc ≠ .idle := by
    intro idle
    rw [idle] at writing
    cases writing
  have noData : (sys.calls c).pc.dataAt = none ∧ (sys.calls c).pc ≠ .done .none := by
    cases stage : (sys.calls c).pc <;> rw [stage] at writing <;>
      first | (cases writing; done) | exact ⟨rfl, nofun⟩
  have boundary := (inv.stored c).wrap gen head writing
  have placed := spaceTilWrap_placed boundary c
  have same := sys.advance_same c spurious unclaimed
  have moved := sys.advance_moved c spurious
  rw [move] at moved
  have nextData : pc.dataAt = none ∧ pc ≠ .done .none := by
    rcases next with going | done
    · cases pc <;> first | (cases going; done) | exact ⟨rfl, nofun⟩
    · rw [done]
      exact ⟨(retry_unbound ..).data, (retry_unbound ..).unfinished⟩
  have least : 48 ≤ spaceTilWrap head := placed.least
  refine inv.store true same moved ?_ (safe _ _ range) (by omega)
    (fun current => ((inv.locals c current).wrap gen head writing).2) ?_ active ?_ ?_ ?_ ?_
  · intro query outside
    simp only [advance, move]
    exact changed query (by omega)
  · intro current held
    have generation := ((inv.locals c current).wrap gen head writing).1
    unfold Held Sys.phase at held ⊢
    rw [moved.self, same.generation]
    simp only [Reservation.header, Reservation.payload, ↓reduceIte, advance, move, ← generation]
      at held ⊢
    exact stored (generation ▸ inv.generation) held
  · intro _ pos owner
    exact absurd owner (SendPc.not_ownsData noData.1 noData.2 pos)
  · intro r elsewhere owner
    have isWrap : r.wrap = true := by
      by_contra notWrap
      exact SendPc.not_ownsData noData.1 noData.2 _ (owner (by simpa using notWrap))
    have finalBefore : r.phase (sys.calls c).pc = .final := by
      cases stage : (sys.calls c).pc <;> rw [stage] at writing <;> cases writing <;>
        simp [Reservation.phase, Ne.symm elsewhere]
    have finalAfter : r.phase pc = .final := by
      rcases next with going | done
      · cases pc <;> cases going <;> simp [Reservation.phase, Ne.symm elsewhere]
      · rw [done]
        exact Reservation.phase_of_wrap isWrap (retry_unbound ..).wrap
    rw [finalBefore, finalAfter]
  · rcases next with going | done
    · exact Placed.carry (inv.stored c) (going.trans writing.symm) (nextData.1.trans noData.1.symm)
    · rw [done]
      exact SendPc.Unbound.placed (retry_unbound ..)
  · intro current
    have ok := inv.locals c current
    rcases next with going | done
    · refine ok.carry same moved (going.trans writing.symm) (nextData.1.trans noData.1.symm)
        nextData.2 ?_
      cases pc <;> first | (cases going; done) | trivial
    · -- The call goes back to its loop with the position behind the wrap record.
      obtain ⟨generation, member⟩ := ok.wrap gen head writing
      have bounds := inv.tiles.mem_bounds member
      have counted := inv.counted
      simp only at bounds
      rw [wrap64_of_lt (by omega)] at done
      refine .of_unbound moved (done ▸ retry_unbound ..) ?_
      rcases retry_cases gen (head + spaceTilWrap head) (tries + 1) with loop | stop
      · rw [done, loop]
        exact ⟨by rw [same.generation]; exact generation, placed.next,
          by rw [same.head]; exact bounds.2.1⟩
      · rw [done, stop]
        exact .inr (.inr rfl)

/-- Storing the next part of a data record: the bytes advance its phase, nothing else changes. -/
theorem Inv.advance_data (inv : sys.Inv) (gen head : ℕ) {spurious : Bool} {bytes : ByteMemory}
    (writing : (sys.calls c).pc.dataAt = some (gen, head))
    (range : (sys.calls c).pc.storeRange (sys.calls c).message =
      some (head, (sys.calls c).message.reserved))
    (move : sendStep spurious sys.block (sys.calls c).message (sys.calls c).pc =
      ({ sys.block with bytes := bytes }, pc))
    (unclaimed : sys.claimed c spurious = none) (safe : sys.StoreSafe c)
    (changed : ∀ query, query < getHeaderOffset head ∨
      getHeaderOffset head + (sys.calls c).message.reserved ≤ query →
      bytes query = sys.block.bytes query)
    (next : pc.dataAt = some (gen, head))
    (stored : gen < 2 ^ 64 →
      (Reservation.phase ⟨head, (sys.calls c).message.reserved, c, false⟩ (sys.calls c).pc).Holds
        sys.block.bytes (getHeaderOffset head) ((sys.calls c).message.header gen stateCommitted)
        (sys.calls c).message.buf →
      (Reservation.phase ⟨head, (sys.calls c).message.reserved, c, false⟩ pc).Holds bytes
        (getHeaderOffset head) ((sys.calls c).message.header gen stateCommitted)
        (sys.calls c).message.buf) : (sys.advance c spurious).Inv := by
  obtain ⟨noWrap, active, unfinished⟩ := SendPc.wrapAt_of_dataAt writing
  obtain ⟨nextNoWrap, _, nextUnfinished⟩ := SendPc.wrapAt_of_dataAt next
  have bounds := (inv.range c active).bounds
  have same := sys.advance_same c spurious unclaimed
  have moved := sys.advance_moved c spurious
  rw [move] at moved
  refine inv.store false same moved ?_ (safe _ _ range) (by omega)
    (fun current => ((inv.locals c current).data gen head writing).2) ?_ active ?_ ?_
    (Placed.carry (inv.stored c) (nextNoWrap.trans noWrap.symm) (next.trans writing.symm)) ?_
  · intro query outside
    simp only [advance, move]
    exact changed query outside
  · intro current held
    have generation := ((inv.locals c current).data gen head writing).1
    unfold Held Sys.phase at held ⊢
    rw [moved.self, same.generation]
    simp only [Reservation.header, Reservation.payload, Bool.false_eq_true, ↓reduceIte, advance,
      move, ← generation] at held ⊢
    exact stored (generation ▸ inv.generation) held
  · rintro _ pos (⟨gen', at'⟩ | finished)
    · exact .inl ⟨gen', (next.trans writing.symm).trans at'⟩
    · exact absurd finished (unfinished _)
  · intro r elsewhere owner
    have isWrap : r.wrap = true := by
      by_contra notWrap
      rcases owner (by simpa using notWrap) with ⟨gen', at'⟩ | finished
      · have same := Option.some.inj (writing.symm.trans at')
        exact elsewhere (Prod.mk.inj same).2.symm
      · exact unfinished _ finished
    rw [Reservation.phase_of_wrap isWrap nextNoWrap, Reservation.phase_of_wrap isWrap noWrap]
  · intro current
    refine (inv.locals c current).carry same moved (nextNoWrap.trans noWrap.symm)
      (next.trans writing.symm) (nextUnfinished _) ?_
    cases pc <;> first | (cases next; done) | trivial

/-- Moving on with a reserved data record without storing to it. -/
theorem Inv.advance_bound (inv : sys.Inv) (gen head : ℕ) {spurious : Bool}
    (writing : (sys.calls c).pc.dataAt = some (gen, head))
    (move : (sendStep spurious sys.block (sys.calls c).message (sys.calls c).pc).2 = pc)
    (bytes : (sys.advance c spurious).block.bytes = sys.block.bytes)
    (unclaimed : sys.claimed c spurious = none)
    (next : pc.dataAt = some (gen, head) ∨ pc = .done .none)
    (phase : ∀ r : Reservation ι, r.wrap = false → r.phase pc = r.phase (sys.calls c).pc) :
    (sys.advance c spurious).Inv := by
  obtain ⟨noWrap, active, unfinished⟩ := SendPc.wrapAt_of_dataAt writing
  have nextNoWrap : pc.wrapAt = none := by
    rcases next with going | done
    · exact (SendPc.wrapAt_of_dataAt going).1
    · rw [done]
      rfl
  have same := sys.advance_same c spurious unclaimed
  have moved := sys.advance_moved c spurious
  rw [move] at moved
  refine inv.quiet same moved bytes active ?_ ?_ ?_ ?_
  · rintro _ pos (⟨gen', at'⟩ | finished)
    · rcases next with going | done
      · exact .inl ⟨gen', (going.trans writing.symm).trans at'⟩
      · exact .inr done
    · exact absurd finished (unfinished _)
  · intro _ r _
    cases isWrap : r.wrap with
    | false => exact phase r isWrap
    | true =>
      rw [Reservation.phase_of_wrap isWrap nextNoWrap, Reservation.phase_of_wrap isWrap noWrap]
  · rcases next with going | done
    · exact Placed.carry (inv.stored c) (nextNoWrap.trans noWrap.symm) (going.trans writing.symm)
    · rw [done]
      exact ⟨nofun, nofun⟩
  · intro current
    have ok := inv.locals c current
    rcases next with going | done
    · refine ok.carry same moved (nextNoWrap.trans noWrap.symm) (going.trans writing.symm)
        ((SendPc.wrapAt_of_dataAt going).2.2 _) ?_
      cases pc <;> first | (cases going; done) | trivial
    · obtain ⟨_, member⟩ := ok.data gen head writing
      refine ⟨?_, ?_, ?_, ?_⟩ <;> rw [moved.self, done]
      · exact .inl rfl
      · exact nofun
      · exact nofun
      · exact fun _ => ⟨head, by rw [same.log]; exact member⟩

/-- A call that has not begun, or has returned, makes no step. -/
theorem advance_stuck (sys : Sys ι) (c : ι) (spurious : Bool)
    (stuck : (sys.calls c).pc = .idle ∨ ∃ result, (sys.calls c).pc = .done result) :
    sys.advance c spurious = sys := by
  have calls (pc : SendPc) (stage : (sys.calls c).pc = pc) :
      Function.update sys.calls c { sys.calls c with pc := pc } = sys.calls := by
    rw [← stage]
    exact Function.update_eq_self c sys.calls
  rcases stuck with stage | ⟨result, stage⟩ <;>
    simp only [advance, claimed, stage, sendStep, calls _ stage, Option.toList_none, List.append_nil,
      Option.map_none, Option.getD_none, Nat.add_zero]

/-- The re-check of a call that began under an earlier initialisation. -/
private theorem Inv.recheck_foreign (inv : sys.Inv) {gen head : ℕ} {spurious : Bool}
    (stage : (sys.calls c).pc = .reserved gen head)
    (foreign : (sys.calls c).born ≠ sys.incarnation) : (sys.advance c spurious).Inv := by
  have writing : (sys.calls c).pc.dataAt = some (gen, head) := by rw [stage]; rfl
  have placed := (inv.stored c).data gen head writing
  have moved := sys.advance_moved c spurious
  have unclaimed : sys.claimed c spurious = none := by simp only [claimed, stage]
  have move : sendStep spurious sys.block (sys.calls c).message (sys.calls c).pc =
      (sys.block, .checked gen head) ∨
      sendStep spurious sys.block (sys.calls c).message (sys.calls c).pc =
        (sys.block, .done .blockReinitialized) := by
    simp only [stage, sendStep, mapToType_boundary placed.1]
    split_ifs
    · exact .inr rfl
    · exact .inl rfl
  rcases move with move | move <;> rw [move] at moved
  · exact inv.quiet (sys.advance_same c spurious unclaimed) moved (by simp only [Sys.advance, move])
      (by rw [stage]; exact nofun) (fun current => absurd current foreign)
      (fun current => absurd current foreign)
      (Placed.carry (inv.stored c) (by rw [stage]; rfl) (by rw [stage]; rfl))
      (fun current => absurd current foreign)
  · exact inv.quiet (sys.advance_same c spurious unclaimed) moved (by simp only [Sys.advance, move])
      (by rw [stage]; exact nofun) (fun current => absurd current foreign)
      (fun current => absurd current foreign) ⟨nofun, nofun⟩ (fun current => absurd current foreign)

/-- Every sender step that stores harmlessly and reserves under the present initialisation keeps
the invariant, as long as the positions do not wrap around. -/
theorem Inv.advance (inv : sys.Inv) {spurious : Bool} (safe : sys.StoreSafe c)
    (reserve : sys.ReserveSafe c spurious)
    (bound : (sys.advance c spurious).reservedBytes < 2 ^ 64) : (sys.advance c spurious).Inv := by
  have before : sys.reservedBytes < 2 ^ 64 := lt_of_le_of_lt (Nat.le_add_right _ _) bound
  have moved := sys.advance_moved c spurious
  cases stage : (sys.calls c).pc with
  | idle => rw [advance_stuck _ _ _ (.inl stage)]; exact inv
  | done result => rw [advance_stuck _ _ _ (.inr ⟨result, stage⟩)]; exact inv
  | entered =>
    have move : sendStep spurious sys.block (sys.calls c).message (sys.calls c).pc =
        (sys.block, .loadGeneration) := by
      simp only [stage, sendStep, mapToType_header, inv.ready, ne_eq, not_true_eq_false, ↓reduceIte]
    rw [move] at moved
    exact inv.search (sys.advance_same c _ (by simp only [claimed, stage])) moved
      (by simp only [Sys.advance, move]) (by rw [stage]; rintro ⟨⟩)
      (by rw [stage]; exact ⟨rfl, rfl, by rintro ⟨⟩⟩) ⟨rfl, rfl, by rintro ⟨⟩⟩ (fun _ => trivial)
  | loadGeneration =>
    have active : (sys.calls c).pc ≠ .idle := by rw [stage]; rintro ⟨⟩
    have size := (inv.range c active).bounds.2.2
    have move : sendStep spurious sys.block (sys.calls c).message (sys.calls c).pc =
        (sys.block, .loadHead sys.generation) := by
      simp only [stage, sendStep, mapToType_metaData]
      rw [if_neg (by rw [dataBlockSize_eq]; omega)]
    rw [move] at moved
    exact inv.search (sys.advance_same c _ (by simp only [claimed, stage])) moved
      (by simp only [Sys.advance, move]) active (by rw [stage]; exact ⟨rfl, rfl, by rintro ⟨⟩⟩)
      ⟨rfl, rfl, by rintro ⟨⟩⟩ (fun _ => rfl)
  | loadHead gen =>
    refine inv.advance_retry (by rw [stage]; rintro ⟨⟩)
      (by rw [stage]; exact ⟨rfl, rfl, by rintro ⟨⟩⟩)
      (by rw [stage]; rfl) (by simp only [claimed, stage]) ?_
    intro current
    have searching := (inv.locals c current).searching
    rwa [stage] at searching
  | loadTail gen head tries =>
    have active : (sys.calls c).pc ≠ .idle := by rw [stage]; rintro ⟨⟩
    simp only [stage, sendStep] at moved
    refine inv.search (sys.advance_same c _ (by simp only [claimed, stage])) moved
      (by simp only [Sys.advance, stage, sendStep]) active
      (by rw [stage]; exact ⟨rfl, rfl, by rintro ⟨⟩⟩) (checkSpace_unbound ..) ?_
    intro current
    obtain ⟨generation, boundary, below⟩ := by
      have searching := (inv.locals c current).searching
      rwa [stage] at searching
    rw [generation]
    exact inv.checkSpace (inv.range c active) boundary below
  | reloadHead gen tries =>
    refine inv.advance_retry (by rw [stage]; rintro ⟨⟩)
      (by rw [stage]; exact ⟨rfl, rfl, by rintro ⟨⟩⟩)
      (by rw [stage]; rfl) (by simp only [claimed, stage]) ?_
    intro current
    have searching := (inv.locals c current).searching
    rwa [stage] at searching
  | casWrap gen head tries =>
    by_cases success : sys.head = head ∧ spurious = false
    · obtain ⟨same, rfl⟩ := success
      refine inv.advance_casWrap stage same (reserve ?_) bound
      simp only [claimed, stage, same, and_self, ↓reduceIte, ne_eq, reduceCtorEq, not_false_eq_true]
    · refine inv.advance_retry (by rw [stage]; rintro ⟨⟩)
        (by rw [stage]; exact ⟨rfl, rfl, by rintro ⟨⟩⟩) (by rw [stage]; exact if_neg success)
        (by simp only [claimed, stage, if_neg success]) ?_
      intro current
      have searching := (inv.locals c current).searching
      rw [stage] at searching
      exact searching.1
  | casData gen head tries =>
    by_cases success : sys.head = head ∧ spurious = false
    · obtain ⟨same, rfl⟩ := success
      refine inv.advance_casData stage same (reserve ?_) bound
      simp only [claimed, stage, same, and_self, ↓reduceIte, ne_eq, reduceCtorEq, not_false_eq_true]
    · refine inv.advance_retry (by rw [stage]; rintro ⟨⟩)
        (by rw [stage]; exact ⟨rfl, rfl, by rintro ⟨⟩⟩) (by rw [stage]; exact if_neg success)
        (by simp only [claimed, stage, if_neg success]) ?_
      intro current
      have searching := (inv.locals c current).searching
      rw [stage] at searching
      exact searching.1
  | wrapReserved gen head tries =>
    refine inv.advance_wrap gen head tries (by rw [stage]; rfl)
      (by rw [stage]; rfl) (by rw [stage]; rfl) (by simp only [claimed, stage]) safe
      (fun query outside => storeState_outside _ _ _ _ outside) (.inl rfl) ?_ before
    intro _ _
    simp only [Reservation.phase, and_self, ↓reduceIte]
    exact Phase.Holds.mark _ _ _ _
  | wrapMarked gen head tries =>
    refine inv.advance_wrap gen head tries (by rw [stage]; rfl)
      (by rw [stage]; rfl) (by rw [stage]; rfl) (by simp only [claimed, stage]) safe
      (fun query outside => storeFields_outside _ _ _ _ outside) (.inl rfl) ?_ before
    intro small held
    simp only [stage, Reservation.phase, and_self, ↓reduceIte] at held ⊢
    refine held.fill (wrapHeader_fits ?_ small)
    simp only [spaceTilWrap, dataBlockSize_eq]
    omega
  | wrapFilled gen head tries =>
    refine inv.advance_wrap gen head tries (by rw [stage]; rfl)
      (by rw [stage]; rfl) (by rw [stage]; rfl) (by simp only [claimed, stage]) safe
      (fun query outside => storeState_outside _ _ _ _ outside) (.inr rfl) ?_ before
    intro _ held
    rw [Reservation.phase_of_wrap rfl (retry_unbound ..).wrap]
    simp only [stage, Reservation.phase, and_self, ↓reduceIte] at held
    have fits : (wrapHeader (spaceTilWrap head) gen stateWrap).state < 2 ^ 32 := by
      simp only [wrapHeader, stateWrap]
      omega
    exact held.publish fits
  | reserved gen head =>
    have writing : (sys.calls c).pc.dataAt = some (gen, head) := by rw [stage]; rfl
    by_cases current : (sys.calls c).born = sys.incarnation
    · have generation := ((inv.locals c current).data gen head writing).1
      have boundary := ((inv.stored c).data gen head writing).1
      have move : sendStep spurious sys.block (sys.calls c).message (sys.calls c).pc =
          (sys.block, .checked gen head) := by
        simp only [stage, sendStep, inv.ready, ← generation, ne_eq, not_true_eq_false, or_self,
          ↓reduceIte, mapToType_boundary boundary]
      exact inv.advance_bound gen head writing (by rw [move]) (by simp only [Sys.advance, move])
        (by simp only [claimed, stage]) (.inl rfl)
        (fun r isData => by rw [stage]; simp only [Reservation.phase, isData])
    · -- A call of an earlier initialisation owns nothing, whatever its re-check says.
      exact inv.recheck_foreign stage current
  | checked gen head =>
    have bounds := (inv.range c (by rw [stage]; rintro ⟨⟩)).bounds
    refine inv.advance_data gen head (by rw [stage]; rfl) (by rw [stage]; rfl)
      (by rw [stage, sendStep]) (by simp only [claimed, stage]) safe ?_ rfl ?_
    · intro query outside
      exact storeState_outside _ _ _ _ (by omega)
    · intro _ _
      exact Phase.Holds.mark _ _ _ _
  | marked gen head =>
    have range := inv.range c (by rw [stage]; rintro ⟨⟩)
    have bounds := range.bounds
    refine inv.advance_data gen head (by rw [stage]; rfl) (by rw [stage]; rfl)
      (by rw [stage, sendStep]) (by simp only [claimed, stage]) safe ?_ rfl ?_
    · intro query outside
      exact storeFields_outside _ _ _ _ (by omega)
    · intro small held
      simp only [stage, Reservation.phase, Bool.false_eq_true, ↓reduceIte] at held ⊢
      exact held.fill (range.header_fits small)
  | filled gen head =>
    have range := inv.range c (by rw [stage]; rintro ⟨⟩)
    have bounds := range.bounds
    have placed := ((inv.stored c).data gen head (by rw [stage]; rfl)).2
    have written : (write sys.block.bytes (sys.calls c).message.buf (getDataOffset head)).2 =
        sys.block.bytes.store (getHeaderOffset head + 48) (sys.calls c).message.buf := by
      rw [write_payload]
      · simp only [getDataOffset, sizeofRecordHeader]
      · rw [dataUsableLimit_eq] at placed
        rw [dataBlockSize_eq] at placed ⊢
        omega
    refine inv.advance_data gen head (by rw [stage]; rfl) (by rw [stage]; rfl)
      (by rw [stage, sendStep, written]) (by simp only [claimed, stage]) safe ?_ rfl ?_
    · intro query outside
      exact ByteMemory.store_outside _ _ _ _ (by omega)
    · intro _ held
      simp only [stage, Reservation.phase, Bool.false_eq_true, ↓reduceIte] at held ⊢
      exact held.copy
  | copied gen head =>
    have range := inv.range c (by rw [stage]; rintro ⟨⟩)
    have bounds := range.bounds
    refine inv.advance_data gen head (by rw [stage]; rfl) (by rw [stage]; rfl)
      (by rw [stage, sendStep]) (by simp only [claimed, stage]) safe ?_ rfl ?_
    · intro query outside
      exact storeState_outside _ _ _ _ (by omega)
    · intro _ held
      simp only [stage, Reservation.phase, Bool.false_eq_true, ↓reduceIte] at held ⊢
      have fits : ((sys.calls c).message.header gen stateCommitted).state < 2 ^ 32 := by
        simp only [Message.header, stateCommitted]
        omega
      exact held.commit fits
  | committed gen head =>
    exact inv.advance_bound gen head (by rw [stage]; rfl) (by rw [stage, sendStep])
      (by simp only [Sys.advance, stage, sendStep]) (by simp only [claimed, stage]) (.inl rfl)
      (fun r isData => by rw [stage]; rfl)
  | counted gen head =>
    exact inv.advance_bound gen head (by rw [stage]; rfl) (by rw [stage, sendStep])
      (by simp only [Sys.advance, stage, sendStep]) (by simp only [claimed, stage]) (.inr rfl)
      (fun r isData => by rw [stage]; rfl)

end Sys

end Eroil.Shm
