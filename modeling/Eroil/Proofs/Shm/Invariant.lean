import Eroil.Model.Shm.System
import Eroil.Proofs.Shm.Layout

/-! # The representation invariant of the ring

The log of successful reservations tiles the positions from zero to the head, and the tail is one
of its boundaries. How far the owner of a reservation has come (its phase) says what the bytes of
the reservation hold. The invariant is maintained by every step that meets `StepSafe`; the claims
differ in which of these conditions their schedules guarantee and which they have to assume.
-/

namespace Eroil.Shm

open Lib

/-- How far the owner of a reservation has come with writing it. -/
inductive Phase where
  | unmarked
  | marked
  | filled
  | copied
  | final
deriving DecidableEq, Repr

/-- What the bytes at the reservation hold in each phase, for the header it ends up with. -/
def Phase.Holds (bytes : ByteMemory) (offset : ℕ) (header : RecordHeader) (payload : List UInt8) :
    Phase → Prop
  | .unmarked => True
  | .marked => bytes.loadWord offset 4 = stateWriting
  | .filled => readRecordHeader bytes offset = { header with state := stateWriting }
  | .copied => readRecordHeader bytes offset = { header with state := stateWriting } ∧
      bytes.load (offset + 48) payload.length = payload
  | .final => readRecordHeader bytes offset = header ∧
      bytes.load (offset + 48) payload.length = payload

namespace Reservation

variable {ι : Type*}

/-- The phase of a reservation, read off its owner's program counter. An owner that has moved on
from a wrap record has published it. -/
def phase (r : Reservation ι) : SendPc → Phase
  | .wrapReserved _ head _ => if r.wrap ∧ head = r.pos then .unmarked else .final
  | .wrapMarked _ head _ => if r.wrap ∧ head = r.pos then .marked else .final
  | .wrapFilled _ head _ => if r.wrap ∧ head = r.pos then .filled else .final
  | .reserved _ _ => if r.wrap then .final else .unmarked
  | .checked _ _ => if r.wrap then .final else .unmarked
  | .marked _ _ => if r.wrap then .final else .marked
  | .filled _ _ => if r.wrap then .final else .filled
  | .copied _ _ => if r.wrap then .final else .copied
  | _ => .final

/-- The header that the owner stores last. -/
def header (r : Reservation ι) (message : Message) (gen : ℕ) : RecordHeader :=
  if r.wrap then wrapHeader r.size gen stateWrap else message.header gen stateCommitted

def payload (r : Reservation ι) (message : Message) : List UInt8 :=
  if r.wrap then [] else message.buf

/-- A reservation starts at a boundary and leaves one behind it: a wrap record ends exactly at the
end of the block, a data record at or before the usable limit. -/
structure Placed (r : Reservation ι) : Prop where
  boundary : Boundary r.pos
  aligned : r.size % 8 = 0
  least : 48 ≤ r.size
  inside : if r.wrap then r.pos % dataBlockSize + r.size = dataBlockSize
    else r.pos % dataBlockSize + r.size ≤ dataUsableLimit

theorem Placed.within {r : Reservation ι} (placed : r.Placed) :
    r.pos % dataBlockSize + r.size ≤ dataBlockSize := by
  have inside := placed.inside
  split at inside
  · exact inside.le
  · rw [dataUsableLimit_eq] at inside
    rw [dataBlockSize_eq] at inside ⊢
    omega

/-- The end of a placed reservation is a boundary again. -/
theorem Placed.next {r : Reservation ι} (placed : r.Placed) : Boundary (r.pos + r.size) := by
  obtain ⟨⟨posAligned, _⟩, aligned, _, inside⟩ := placed
  refine ⟨by omega, ?_⟩
  rw [dataUsableLimit_eq] at inside ⊢
  rw [dataBlockSize_eq] at inside ⊢
  split at inside <;> omega

end Reservation

namespace SendPc

/-- Generation and position of the wrap record that a call is writing. -/
def wrapAt : SendPc → Option (ℕ × ℕ)
  | .wrapReserved gen head _ => some (gen, head)
  | .wrapMarked gen head _ => some (gen, head)
  | .wrapFilled gen head _ => some (gen, head)
  | _ => none

/-- Generation and position of the data record that a call has reserved. -/
def dataAt : SendPc → Option (ℕ × ℕ)
  | .reserved gen head => some (gen, head)
  | .checked gen head => some (gen, head)
  | .marked gen head => some (gen, head)
  | .filled gen head => some (gen, head)
  | .copied gen head => some (gen, head)
  | .committed gen head => some (gen, head)
  | .counted gen head => some (gen, head)
  | _ => none

/-- The program counters of a call that owns a data reservation at `pos`. -/
def OwnsData (pos : ℕ) (pc : SendPc) : Prop :=
  (∃ gen, pc.dataAt = some (gen, pos)) ∨ pc = .done .none

/-- The range of positions that the next step of a call stores to. -/
def storeRange (message : Message) : SendPc → Option (ℕ × ℕ)
  | .wrapReserved _ head _ => some (head, spaceTilWrap head)
  | .wrapMarked _ head _ => some (head, spaceTilWrap head)
  | .wrapFilled _ head _ => some (head, spaceTilWrap head)
  | .checked _ head => some (head, message.reserved)
  | .marked _ head => some (head, message.reserved)
  | .filled _ head => some (head, message.reserved)
  | .copied _ head => some (head, message.reserved)
  | _ => none

end SendPc

/-- The record that a call is writing is placed, under whichever initialisation it was reserved. -/
structure Call.Placed (call : Call) : Prop where
  wrap : ∀ gen pos, call.pc.wrapAt = some (gen, pos) → Boundary pos
  data : ∀ gen pos, call.pc.dataAt = some (gen, pos) →
    Boundary pos ∧ pos % dataBlockSize + call.message.reserved ≤ dataUsableLimit

namespace Sys

variable {ι : Type*}

def phase (sys : Sys ι) (r : Reservation ι) : Phase := r.phase (sys.calls r.owner).pc

/-- The bytes of a reservation are those its phase requires. -/
def Held (sys : Sys ι) (r : Reservation ι) : Prop :=
  (sys.phase r).Holds sys.block.bytes (getHeaderOffset r.pos)
    (r.header (sys.calls r.owner).message sys.generation) (r.payload (sys.calls r.owner).message)

/-- A reservation of the log belongs to a call of the present initialisation. -/
structure Owned (sys : Sys ι) (r : Reservation ι) : Prop where
  current : (sys.calls r.owner).born = sys.incarnation
  range : (sys.calls r.owner).message.InRange
  data : r.wrap = false →
    r.size = (sys.calls r.owner).message.reserved ∧ (sys.calls r.owner).pc.OwnsData r.pos

/-- What a call that has not reserved its record yet knows about the ring. Loaded positions may be
stale: they are below the present head, and a space check stays valid because the tail only
grows. -/
def Searching (sys : Sys ι) (message : Message) : SendPc → Prop
  | .loadHead gen => gen = sys.generation
  | .loadTail gen head _ => gen = sys.generation ∧ Boundary head ∧ head ≤ sys.head
  | .reloadHead gen _ => gen = sys.generation
  | .casWrap gen head _ => gen = sys.generation ∧ Boundary head ∧
      head + spaceTilWrap head ≤ sys.tail + dataBlockSize
  | .casData gen head _ => gen = sys.generation ∧ Boundary head ∧
      head % dataBlockSize + message.reserved ≤ dataUsableLimit ∧
      head + message.reserved ≤ sys.tail + dataBlockSize
  | .done result => result = .none ∨ result = .notEnoughSpace ∨ result = .couldNotAllocate
  | _ => True

/-- The locals of a call of the present initialisation agree with the ring and its log. -/
structure LocalsOk (sys : Sys ι) (c : ι) : Prop where
  searching : sys.Searching (sys.calls c).message (sys.calls c).pc
  wrap : ∀ gen pos, (sys.calls c).pc.wrapAt = some (gen, pos) →
    gen = sys.generation ∧ ⟨pos, spaceTilWrap pos, c, true⟩ ∈ sys.log
  data : ∀ gen pos, (sys.calls c).pc.dataAt = some (gen, pos) →
    gen = sys.generation ∧ ⟨pos, (sys.calls c).message.reserved, c, false⟩ ∈ sys.log
  done : (sys.calls c).pc = .done .none →
    ∃ pos, ⟨pos, (sys.calls c).message.reserved, c, false⟩ ∈ sys.log

/-- The representation invariant. -/
structure Inv (sys : Sys ι) : Prop where
  ready : sys.block.hdr.state = shmReady
  generation : sys.generation < 2 ^ 64
  counted : sys.head ≤ sys.reservedBytes
  window : sys.head ≤ sys.tail + dataBlockSize
  headBoundary : Boundary sys.head
  tailBoundary : Boundary sys.tail
  tiled : ∃ old live, sys.log = old ++ live ∧
    Tiles Reservation.pos Reservation.size 0 old sys.tail ∧
    Tiles Reservation.pos Reservation.size sys.tail live sys.head
  placed : ∀ r ∈ sys.log, r.Placed
  owned : ∀ r ∈ sys.log, sys.Owned r
  unique : ∀ r ∈ sys.log, ∀ r' ∈ sys.log, r.wrap = false → r'.wrap = false →
    r.owner = r'.owner → r.pos = r'.pos
  held : ∀ r ∈ sys.log, sys.tail ≤ r.pos → sys.Held r
  born : ∀ c, (sys.calls c).born ≤ sys.incarnation
  range : ∀ c, (sys.calls c).pc ≠ .idle → (sys.calls c).message.InRange
  stored : ∀ c, (sys.calls c).Placed
  locals : ∀ c, (sys.calls c).born = sys.incarnation → sys.LocalsOk c

/-- No byte of the range `[pos, pos + size)` is a byte of an unread reservation. -/
def Unreserved (sys : Sys ι) (pos size : ℕ) : Prop :=
  ∀ mine theirs, pos ≤ mine → mine < pos + size → sys.tail ≤ theirs → theirs < sys.head →
    mine % dataBlockSize ≠ theirs % dataBlockSize

/-- A store of call `c` into `[pos, pos + size)` is harmless: the range is its own reservation,
not yet passed by the tail, or it is not reserved at all. -/
def MayStore (sys : Sys ι) (c : ι) (pos size : ℕ) : Prop :=
  ((sys.calls c).born = sys.incarnation ∧ sys.tail ≤ pos) ∨ sys.Unreserved pos size

/-- Condition on the next step of call `c`: its stores are harmless. -/
def StoreSafe (sys : Sys ι) (c : ι) : Prop :=
  ∀ pos size, (sys.calls c).pc.storeRange (sys.calls c).message = some (pos, size) →
    sys.MayStore c pos size

/-- Condition on the next step of call `c`: it reserves only if it began under the present
initialisation. -/
def ReserveSafe [DecidableEq ι] (sys : Sys ι) (c : ι) (spurious : Bool) : Prop :=
  sys.claimed c spurious ≠ none → (sys.calls c).born = sys.incarnation

/-- The scan of `recv` reaches a reservation when only published wrap records stand before it. -/
def Reached (sys : Sys ι) (r : Reservation ι) : Prop :=
  r ∈ sys.log ∧ sys.tail ≤ r.pos ∧
    ∀ r' ∈ sys.log, sys.tail ≤ r'.pos → r'.pos < r.pos → r'.wrap = true ∧ sys.phase r' = .final

/-- Condition on `recv`: if the scan reaches a reservation whose owner has not stored its WRITING
mark yet, then the old bytes there happen to read WRITING. -/
def RecvSafe (sys : Sys ι) : Prop :=
  ∀ r, sys.Reached r → sys.phase r = .unmarked →
    sys.block.bytes.loadWord (getHeaderOffset r.pos) 4 = stateWriting

end Sys

end Eroil.Shm
