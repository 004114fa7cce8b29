import Eroil.Proofs.Shm.Invariant

/-! # Rules for one call moving

Three rules cover every step of a call: it moves without touching the ring, it stores into the
range its program counter points at, or it extends the log by a successful compare-exchange.
-/

namespace Eroil.Shm.Sys

open Lib

variable {ι : Type*} {sys next : Sys ι} {c : ι} {pc : SendPc}

/-- Head, tail, generation, readiness and history agree; the bytes may differ. -/
structure SameRing (sys next : Sys ι) : Prop where
  state : next.block.hdr.state = sys.block.hdr.state
  generation : next.generation = sys.generation
  head : next.head = sys.head
  tail : next.tail = sys.tail
  log : next.log = sys.log
  incarnation : next.incarnation = sys.incarnation
  reservedBytes : next.reservedBytes = sys.reservedBytes

/-- The locals of a call that did not move survive any growth of ring and log. -/
theorem LocalsOk.mono {d : ι} (ok : sys.LocalsOk d) (call : next.calls d = sys.calls d)
    (generation : next.generation = sys.generation) (head : sys.head ≤ next.head)
    (tail : sys.tail ≤ next.tail) (log : ∀ r ∈ sys.log, r ∈ next.log) : next.LocalsOk d := by
  obtain ⟨searching, wrap, data, done⟩ := ok
  refine ⟨?_, ?_, ?_, ?_⟩
  · rw [call]
    revert searching
    cases (sys.calls d).pc <;> simp only [Searching] <;> intro searching
    case loadHead | reloadHead => rw [generation]; exact searching
    case loadTail =>
      obtain ⟨gen, boundary, below⟩ := searching
      exact ⟨gen.trans generation.symm, boundary, below.trans head⟩
    case casWrap =>
      obtain ⟨gen, boundary, space⟩ := searching
      exact ⟨gen.trans generation.symm, boundary, by omega⟩
    case casData =>
      obtain ⟨gen, boundary, fits, space⟩ := searching
      exact ⟨gen.trans generation.symm, boundary, fits, by omega⟩
    all_goals exact searching
  · intro gen pos writing
    rw [call] at writing
    obtain ⟨same, member⟩ := wrap gen pos writing
    exact ⟨same.trans generation.symm, log _ member⟩
  · intro gen pos writing
    rw [call] at writing ⊢
    obtain ⟨same, member⟩ := data gen pos writing
    exact ⟨same.trans generation.symm, log _ member⟩
  · intro finished
    rw [call] at finished ⊢
    obtain ⟨pos, member⟩ := done finished
    exact ⟨pos, log _ member⟩

/-- What the bytes of a reservation hold depends on them and on its owner only. -/
theorem Held.congr {r : Reservation ι} (held : sys.Held r)
    (bytes : ∀ query, getHeaderOffset r.pos ≤ query → query < getHeaderOffset r.pos + r.size →
      next.block.bytes query = sys.block.bytes query)
    (fits : 48 + (r.payload (sys.calls r.owner).message).length ≤ r.size)
    (message : (next.calls r.owner).message = (sys.calls r.owner).message)
    (generation : next.generation = sys.generation)
    (phase : next.phase r = sys.phase r) : next.Held r := by
  have header : readRecordHeader next.block.bytes (getHeaderOffset r.pos) =
      readRecordHeader sys.block.bytes (getHeaderOffset r.pos) :=
    readRecordHeader_congr fun query lower upper => bytes query lower (by omega)
  have word : next.block.bytes.loadWord (getHeaderOffset r.pos) 4 =
      sys.block.bytes.loadWord (getHeaderOffset r.pos) 4 :=
    ByteMemory.loadWord_congr fun query lower upper => bytes query lower (by omega)
  have load : next.block.bytes.load (getHeaderOffset r.pos + 48)
      (r.payload (sys.calls r.owner).message).length =
      sys.block.bytes.load (getHeaderOffset r.pos + 48)
        (r.payload (sys.calls r.owner).message).length :=
    ByteMemory.load_congr fun query lower upper => bytes query (by omega) (by omega)
  unfold Held at held ⊢
  rw [phase, message, generation]
  cases stage : sys.phase r <;> rw [stage] at held <;>
    simp only [Phase.Holds, header, word, load] at held ⊢ <;> exact held

theorem Owned.fits {r : Reservation ι} (owned : sys.Owned r) (placed : r.Placed) :
    48 + (r.payload (sys.calls r.owner).message).length ≤ r.size := by
  unfold Reservation.payload
  split
  · have := placed.least
    simp only [List.length_nil]
    omega
  · rename_i isData
    have size := (owned.data (by simpa using isData)).1
    have := owned.range.bounds.2.1
    omega

/-- Outside an interval of the block nothing changed. -/
def ChangedWithin (sys next : Sys ι) (pos size : ℕ) : Prop :=
  ∀ query, query < getHeaderOffset pos ∨ getHeaderOffset pos + size ≤ query →
    next.block.bytes query = sys.block.bytes query

/-- The whole log tiles the positions up to the head. -/
theorem Inv.tiles (inv : sys.Inv) :
    Tiles Reservation.pos Reservation.size 0 sys.log sys.head := by
  obtain ⟨old, live, log, oldTiles, liveTiles⟩ := inv.tiled
  rw [log]
  exact Tiles.append_iff.mpr ⟨_, oldTiles, liveTiles⟩

/-- Unread reservations share no byte of the block. -/
theorem Inv.apart (inv : sys.Inv) {r r' : Reservation ι} (member : r ∈ sys.log)
    (member' : r' ∈ sys.log) (unread : sys.tail ≤ r.pos) (unread' : sys.tail ≤ r'.pos)
    (distinct : r.pos ≠ r'.pos) :
    getHeaderOffset r.pos + r.size ≤ getHeaderOffset r'.pos ∨
      getHeaderOffset r'.pos + r'.size ≤ getHeaderOffset r.pos := by
  obtain ⟨old, live, log, oldTiles, liveTiles⟩ := inv.tiled
  have inLive (x : Reservation ι) (mem : x ∈ sys.log) (notRead : sys.tail ≤ x.pos) : x ∈ live := by
    rw [log] at mem
    rcases List.mem_append.mp mem with before | now
    · have := oldTiles.mem_bounds before
      omega
    · exact now
  have left := inLive r member unread
  have right := inLive r' member' unread'
  have leftBounds := liveTiles.mem_bounds left
  have rightBounds := liveTiles.mem_bounds right
  have window := inv.window
  unfold getHeaderOffset
  rcases liveTiles.disjoint left right distinct with before | after
  · have within : r'.pos + r'.size ≤ r.pos + dataBlockSize := by omega
    have := ring_disjoint before within leftBounds.2.2
    omega
  · have within : r.pos + r.size ≤ r'.pos + dataBlockSize := by omega
    have := ring_disjoint after within rightBounds.2.2
    omega

/-- A range that is not reserved shares no byte with an unread reservation. -/
private theorem Inv.apart_of_unreserved (inv : sys.Inv) {pos size : ℕ} {r : Reservation ι}
    (member : r ∈ sys.log) (unread : sys.tail ≤ r.pos) (free : sys.Unreserved pos size)
    (positive : 0 < size) :
    getHeaderOffset pos + size ≤ getHeaderOffset r.pos ∨
      getHeaderOffset r.pos + r.size ≤ getHeaderOffset pos := by
  obtain ⟨old, live, log, oldTiles, liveTiles⟩ := inv.tiled
  have bound : r.pos + r.size ≤ sys.head ∧ 0 < r.size := by
    rw [log] at member
    rcases List.mem_append.mp member with before | now
    · have := oldTiles.mem_bounds before
      omega
    · exact (liveTiles.mem_bounds now).2
  have within := (inv.placed r member).within
  unfold getHeaderOffset
  by_contra overlap
  -- The later of the two offsets is a byte of both ranges.
  rcases Nat.le_total (pos % dataBlockSize) (r.pos % dataBlockSize) with before | after
  · refine free (pos + (r.pos % dataBlockSize - pos % dataBlockSize)) r.pos (by omega) (by omega)
      unread (by omega) ?_
    rw [dataBlockSize_eq] at *
    omega
  · refine free pos (r.pos + (pos % dataBlockSize - r.pos % dataBlockSize)) (by omega) (by omega)
      (by omega) (by omega) ?_
    rw [dataBlockSize_eq] at *
    omega

/-- Where the ring stays as it is, only what is said about the calls and the bytes is left to
show. -/
theorem Inv.of_sameRing (inv : sys.Inv) (same : SameRing sys next)
    (owned : ∀ r ∈ sys.log, next.Owned r) (held : ∀ r ∈ sys.log, sys.tail ≤ r.pos → next.Held r)
    (born : ∀ d, (next.calls d).born ≤ sys.incarnation)
    (range : ∀ d, (next.calls d).pc ≠ .idle → (next.calls d).message.InRange)
    (stored : ∀ d, (next.calls d).Placed)
    (locals : ∀ d, (next.calls d).born = sys.incarnation → next.LocalsOk d) : next.Inv where
  ready := same.state.trans inv.ready
  generation := by rw [same.generation]; exact inv.generation
  counted := by rw [same.head, same.reservedBytes]; exact inv.counted
  window := by rw [same.head, same.tail]; exact inv.window
  headBoundary := by rw [same.head]; exact inv.headBoundary
  tailBoundary := by rw [same.tail]; exact inv.tailBoundary
  tiled := by rw [same.log, same.tail, same.head]; exact inv.tiled
  placed := by rw [same.log]; exact inv.placed
  owned := by rw [same.log]; exact owned
  unique := by rw [same.log]; exact inv.unique
  held := by rw [same.log, same.tail]; exact held
  born := by rw [same.incarnation]; exact born
  range := range
  stored := stored
  locals := by rw [same.incarnation]; exact locals

/-- The locals of a call that did not move, over an unchanged ring. -/
theorem Inv.locals_of_sameRing (inv : sys.Inv) (same : SameRing sys next) {d : ι}
    (call : next.calls d = sys.calls d) (current : (sys.calls d).born = sys.incarnation) :
    next.LocalsOk d :=
  (inv.locals d current).mono call same.generation same.head.ge same.tail.ge
    (by rw [same.log]; exact fun _ member => member)

variable [DecidableEq ι]

/-- The call `c` moved to `pc` and every other call stayed. -/
def Moved (sys next : Sys ι) (c : ι) (pc : SendPc) : Prop :=
  next.calls = Function.update sys.calls c { sys.calls c with pc := pc }

theorem Moved.self (moved : Moved sys next c pc) : next.calls c = { sys.calls c with pc := pc } := by
  rw [moved, Function.update_self]

theorem Moved.other (moved : Moved sys next c pc) {d : ι} (distinct : d ≠ c) :
    next.calls d = sys.calls d := by
  rw [moved, Function.update_of_ne distinct]

theorem Moved.message (moved : Moved sys next c pc) (d : ι) :
    (next.calls d).message = (sys.calls d).message := by
  by_cases same : d = c
  · rw [same, moved.self]
  · rw [moved.other same]

theorem Moved.born (moved : Moved sys next c pc) (d : ι) :
    (next.calls d).born = (sys.calls d).born := by
  by_cases same : d = c
  · rw [same, moved.self]
  · rw [moved.other same]

/-- Every started call still has a message in range. -/
theorem Inv.range_moved (inv : sys.Inv) (moved : Moved sys next c pc)
    (active : (sys.calls c).pc ≠ .idle) (d : ι) (started : (next.calls d).pc ≠ .idle) :
    (next.calls d).message.InRange := by
  rw [moved.message]
  by_cases mine : d = c
  · rw [mine]
    exact inv.range c active
  · rw [moved.other mine] at started
    exact inv.range d started

/-- Every call is still placed if the moved one is. -/
theorem Inv.stored_moved (inv : sys.Inv) (moved : Moved sys next c pc)
    (stored : Call.Placed { sys.calls c with pc := pc }) (d : ι) : (next.calls d).Placed := by
  by_cases mine : d = c
  · rw [mine, moved.self]
    exact stored
  · rw [moved.other mine]
    exact inv.stored d

/-- The phase of a reservation changes only if its owner moved, and then as its program counter
says. -/
theorem Inv.phase_moved (inv : sys.Inv) (moved : Moved sys next c pc) {r : Reservation ι}
    (member : r ∈ sys.log)
    (phase : (sys.calls c).born = sys.incarnation →
      (r.wrap = false → (sys.calls c).pc.OwnsData r.pos) → r.phase pc = r.phase (sys.calls c).pc) :
    next.phase r = sys.phase r := by
  have owned := inv.owned r member
  unfold Sys.phase
  by_cases mine : r.owner = c
  · rw [mine, moved.self]
    rw [← mine] at phase ⊢
    exact phase owned.current fun isData => (owned.data isData).2
  · rw [moved.other mine]

/-- The common part of all moves that leave the ring alone. -/
theorem Inv.move (inv : sys.Inv) (same : SameRing sys next) (moved : Moved sys next c pc)
    (active : (sys.calls c).pc ≠ .idle)
    (owns : (sys.calls c).born = sys.incarnation →
      ∀ pos, (sys.calls c).pc.OwnsData pos → pc.OwnsData pos)
    (held : ∀ r ∈ sys.log, sys.tail ≤ r.pos → next.Held r)
    (stored : Call.Placed { sys.calls c with pc := pc })
    (locals : (sys.calls c).born = sys.incarnation → next.LocalsOk c) : next.Inv := by
  refine inv.of_sameRing same ?_ held (fun d => by rw [moved.born]; exact inv.born d)
    (inv.range_moved moved active) (inv.stored_moved moved stored) ?_
  · intro r member
    obtain ⟨current, range, data⟩ := inv.owned r member
    refine ⟨by rw [moved.born, same.incarnation, current], by rw [moved.message]; exact range, ?_⟩
    intro isData
    obtain ⟨size, owner⟩ := data isData
    refine ⟨by rw [moved.message, size], ?_⟩
    by_cases mine : r.owner = c
    · rw [mine, moved.self]
      rw [mine] at owner current
      exact owns current _ owner
    · rw [moved.other mine]
      exact owner
  · intro d current
    rw [moved.born] at current
    by_cases mine : d = c
    · rw [mine] at current ⊢
      exact locals current
    · exact inv.locals_of_sameRing same (moved.other mine) current

/-- A call that moves without touching the ring keeps the invariant if the phases of its
reservations do not change. -/
theorem Inv.quiet (inv : sys.Inv) (same : SameRing sys next) (moved : Moved sys next c pc)
    (bytes : next.block.bytes = sys.block.bytes) (active : (sys.calls c).pc ≠ .idle)
    (owns : (sys.calls c).born = sys.incarnation →
      ∀ pos, (sys.calls c).pc.OwnsData pos → pc.OwnsData pos)
    (phase : (sys.calls c).born = sys.incarnation → ∀ r : Reservation ι,
      (r.wrap = false → (sys.calls c).pc.OwnsData r.pos) → r.phase pc = r.phase (sys.calls c).pc)
    (stored : Call.Placed { sys.calls c with pc := pc })
    (locals : (sys.calls c).born = sys.incarnation → next.LocalsOk c) : next.Inv := by
  refine inv.move same moved active owns ?_ stored locals
  intro r member unread
  exact (inv.held r member unread).congr (fun _ _ _ => by rw [bytes])
    ((inv.owned r member).fits (inv.placed r member)) (moved.message _) same.generation
    (inv.phase_moved moved member fun current => phase current r)

/-- A call that stores into the range its program counter points at keeps the invariant if the
store is harmless and completes the next phase of its own record. -/
theorem Inv.store {pos size : ℕ} (inv : sys.Inv) (flag : Bool) (same : SameRing sys next)
    (moved : Moved sys next c pc) (changed : ChangedWithin sys next pos size)
    (safe : sys.MayStore c pos size) (positive : 0 < size)
    (mine : (sys.calls c).born = sys.incarnation → ⟨pos, size, c, flag⟩ ∈ sys.log)
    (own : (sys.calls c).born = sys.incarnation →
      sys.Held ⟨pos, size, c, flag⟩ → next.Held ⟨pos, size, c, flag⟩)
    (active : (sys.calls c).pc ≠ .idle)
    (owns : (sys.calls c).born = sys.incarnation →
      ∀ pos, (sys.calls c).pc.OwnsData pos → pc.OwnsData pos)
    (phase : ∀ r : Reservation ι, r.pos ≠ pos →
      (r.wrap = false → (sys.calls c).pc.OwnsData r.pos) → r.phase pc = r.phase (sys.calls c).pc)
    (stored : Call.Placed { sys.calls c with pc := pc })
    (locals : (sys.calls c).born = sys.incarnation → next.LocalsOk c) : next.Inv := by
  refine inv.move same moved active owns ?_ stored locals
  intro r member unread
  have bounds := inv.tiles.mem_bounds member
  by_cases here : r.pos = pos
  · rcases safe with ⟨current, _⟩ | free
    · have equal : r = ⟨pos, size, c, flag⟩ := inv.tiles.eq_of_pos member (mine current) here
      rw [equal]
      exact own current (equal ▸ inv.held r member unread)
    · exact absurd rfl (free pos pos le_rfl (by omega) (by omega) (by omega))
  · have apart : getHeaderOffset pos + size ≤ getHeaderOffset r.pos ∨
        getHeaderOffset r.pos + r.size ≤ getHeaderOffset pos := by
      rcases safe with ⟨current, notRead⟩ | free
      · exact inv.apart (mine current) member notRead unread (Ne.symm here)
      · exact inv.apart_of_unreserved member unread free positive
    exact (inv.held r member unread).congr (fun query lower upper => changed query (by omega))
      ((inv.owned r member).fits (inv.placed r member)) (moved.message _) same.generation
      (inv.phase_moved moved member fun _ => phase r here)

/-- A successful compare-exchange appends a reservation at the head. -/
theorem Inv.claim {r : Reservation ι} (inv : sys.Inv) (moved : Moved sys next c pc)
    (bytes : next.block.bytes = sys.block.bytes)
    (state : next.block.hdr.state = sys.block.hdr.state)
    (generation : next.generation = sys.generation) (head : next.head = sys.head + r.size)
    (tail : next.tail = sys.tail) (log : next.log = sys.log ++ [r])
    (incarnation : next.incarnation = sys.incarnation)
    (reservedBytes : next.reservedBytes = sys.reservedBytes + r.size)
    (here : r.pos = sys.head) (owner : r.owner = c)
    (current : (sys.calls c).born = sys.incarnation) (placed : r.Placed)
    (space : sys.head + r.size ≤ sys.tail + dataBlockSize)
    (active : (sys.calls c).pc ≠ .idle)
    (data : r.wrap = false → r.size = (sys.calls c).message.reserved ∧ pc.OwnsData r.pos)
    (fresh : ∀ pos, ¬ (sys.calls c).pc.OwnsData pos)
    (phaseNew : r.phase pc = .unmarked)
    (phase : ∀ r' : Reservation ι, r'.pos ≠ r.pos → r'.wrap = true →
      r'.phase pc = r'.phase (sys.calls c).pc)
    (stored : Call.Placed { sys.calls c with pc := pc })
    (locals : next.LocalsOk c) : next.Inv := by
  have range := inv.range c active
  have notMine (r' : Reservation ι) (member : r' ∈ sys.log) (isData : r'.wrap = false) :
      r'.owner ≠ c := by
    intro same
    have := ((inv.owned r' member).data isData).2
    rw [same] at this
    exact fresh _ this
  have ownsNew : next.Owned r := by
    refine ⟨by rw [moved.born, owner, incarnation, current],
      by rw [moved.message, owner]; exact range, ?_⟩
    intro isData
    rw [moved.message, owner, moved.self]
    exact data isData
  have ownsOld (r' : Reservation ι) (member : r' ∈ sys.log) : next.Owned r' := by
    obtain ⟨current', range', data'⟩ := inv.owned r' member
    refine ⟨by rw [moved.born, incarnation, current'], by rw [moved.message]; exact range', ?_⟩
    intro isData
    rw [moved.message, moved.other (notMine r' member isData)]
    exact data' isData
  refine {
    ready := state.trans inv.ready
    generation := by rw [generation]; exact inv.generation
    counted := by have := inv.counted; omega
    window := by omega
    headBoundary := by rw [head, ← here]; exact placed.next
    tailBoundary := by rw [tail]; exact inv.tailBoundary
    tiled := ?_, placed := ?_, owned := ?_, unique := ?_, held := ?_
    born := by intro d; rw [moved.born, incarnation]; exact inv.born d
    range := inv.range_moved moved active
    stored := inv.stored_moved moved stored
    locals := ?_ }
  · obtain ⟨old, live, split, oldTiles, liveTiles⟩ := inv.tiled
    refine ⟨old, live ++ [r], by rw [log, split, List.append_assoc], by rw [tail]; exact oldTiles, ?_⟩
    rw [tail, head]
    exact liveTiles.snoc here (by have := placed.least; omega)
  · rw [log]
    intro r' member
    rcases List.mem_append.mp member with earlier | new
    · exact inv.placed r' earlier
    · rw [List.mem_singleton.mp new]
      exact placed
  · rw [log]
    intro r' member
    rcases List.mem_append.mp member with earlier | new
    · exact ownsOld r' earlier
    · rw [List.mem_singleton.mp new]
      exact ownsNew
  · rw [log]
    intro left leftMem right rightMem leftData rightData sameOwner
    rcases List.mem_append.mp leftMem with leftOld | leftNew <;>
      rcases List.mem_append.mp rightMem with rightOld | rightNew
    · exact inv.unique left leftOld right rightOld leftData rightData sameOwner
    · rw [List.mem_singleton.mp rightNew] at sameOwner
      exact absurd (sameOwner.trans owner) (notMine left leftOld leftData)
    · rw [List.mem_singleton.mp leftNew] at sameOwner
      exact absurd (sameOwner.symm.trans owner) (notMine right rightOld rightData)
    · rw [List.mem_singleton.mp leftNew, List.mem_singleton.mp rightNew]
  · rw [log, tail]
    intro r' member unread
    rcases List.mem_append.mp member with earlier | new
    · have bounds := inv.tiles.mem_bounds earlier
      refine (inv.held r' earlier unread).congr (fun _ _ _ => by rw [bytes])
        ((inv.owned r' earlier).fits (inv.placed r' earlier)) (moved.message _) generation
        (inv.phase_moved moved earlier fun _ owns => phase r' (by omega) ?_)
      by_contra notWrap
      exact fresh _ (owns (by simpa using notWrap))
    · rw [List.mem_singleton.mp new]
      have stage : next.phase r = .unmarked := by
        unfold Sys.phase
        rw [owner, moved.self]
        exact phaseNew
      unfold Held
      rw [stage]
      trivial
  · intro d currentD
    rw [moved.born, incarnation] at currentD
    by_cases mine : d = c
    · rw [mine]
      exact locals
    · refine (inv.locals d currentD).mono (moved.other mine) generation (by omega) tail.ge ?_
      intro r' member
      rw [log]
      exact List.mem_append_left _ member

end Eroil.Shm.Sys
