import Eroil.Lib.Machine
import Mathlib.Logic.Function.Basic
import Eroil.Model.Shm.Send
import Eroil.Model.Shm.Recv

/-! # Many senders and one consumer on a shared block

Calls of `ShmSend::send` are indexed by an arbitrary type; each index stands for one call of one
process. The consumer is one thread, so `recv`, `flush_backlog` and `reinit` are whole steps.
The history fields record what happened since the last initialisation and are read by no step.
-/

namespace Eroil.Shm

open Lib

/-- One successful head compare-exchange: the bytes `[pos, pos + size)` now belong to `owner`. -/
structure Reservation (ι : Type*) where
  pos : ℕ
  size : ℕ
  owner : ι
  wrap : Bool
deriving DecidableEq

/-- One message handed to the consumer: the position it was read at, and what it said. -/
structure Delivery where
  pos : ℕ
  data : ShmRecvData
  payload : List UInt8
deriving DecidableEq

/-- A `send` call: its arguments, where it stands, and the initialisation it began under. -/
structure Call where
  message : Message := default
  pc : SendPc := .idle
  born : ℕ := 0

structure Sys (ι : Type*) where
  block : ShmBlock
  calls : ι → Call
  recvBuf : ByteMemory
  semaphore : ℕ
  incarnation : ℕ
  log : List (Reservation ι)
  delivered : List Delivery
  reservedBytes : ℕ

namespace Sys

variable {ι : Type*} [DecidableEq ι]

abbrev head (sys : Sys ι) : ℕ := sys.block.metaData.headBytes
abbrev tail (sys : Sys ι) : ℕ := sys.block.metaData.tailBytes
abbrev generation (sys : Sys ι) : ℕ := sys.block.metaData.generation

/-- No call has begun on a block that was just initialised. -/
def initial (block : ShmBlock) (buf : ByteMemory) (semaphore : ℕ) : Sys ι where
  block := block
  calls _ := {}
  recvBuf := buf
  semaphore := semaphore
  incarnation := 0
  log := []
  delivered := []
  reservedBytes := 0

/-- The reservation that a call obtains if its next step is a successful compare-exchange. -/
def claimed (sys : Sys ι) (c : ι) (spurious : Bool) : Option (Reservation ι) :=
  match (sys.calls c).pc with
  | .casWrap _ head _ =>
      if sys.head = head ∧ spurious = false then some ⟨head, spaceTilWrap head, c, true⟩ else none
  | .casData _ head _ =>
      if sys.head = head ∧ spurious = false then
        some ⟨head, (sys.calls c).message.reserved, c, false⟩ else none
  | _ => none

/-- A new `send` call; an index is used for one call only. -/
def begin (sys : Sys ι) (c : ι) (message : Message) : Sys ι :=
  match (sys.calls c).pc with
  | .idle => { sys with calls := Function.update sys.calls c ⟨message, .entered, sys.incarnation⟩ }
  | _ => sys

/-- The next atomic step of call `c`. -/
def advance (sys : Sys ι) (c : ι) (spurious : Bool) : Sys ι :=
  let call := sys.calls c
  let next := sendStep spurious sys.block call.message call.pc
  { sys with
    block := next.1
    calls := Function.update sys.calls c { call with pc := next.2 }
    semaphore := match call.pc with
      | .counted _ _ => sys.semaphore + 1
      | _ => sys.semaphore
    log := sys.log ++ (sys.claimed c spurious).toList
    reservedBytes := sys.reservedBytes + ((sys.claimed c spurious).map Reservation.size).getD 0 }

/-- The next step of call `c` when a successful compare-exchange and the marking of the header it
claims are one step: a data record is marked WRITING, a wrap record is published. -/
def advanceMarked (sys : Sys ι) (c : ι) (spurious : Bool) : Sys ι :=
  let next := sys.advance c spurious
  match sys.claimed c spurious with
  | none => next
  | some claim =>
      if claim.wrap then ((next.advance c false).advance c false).advance c false
      else (next.advance c false).advance c false

/-- The delivery that a `recv` outcome stands for. -/
def deliveryOf (tail : ℕ) (run : RecvRun) : List Delivery :=
  if run.data.code = .none then [⟨tail, run.data, run.buf.load 0 run.data.bufSize⟩] else []

/-- Position of the record that a successful `recv` consumed. -/
def consumedAt (sys : Sys ι) : ℕ :=
  (recvScan sys.generation (recvFuel sys.block) sys.block sys.tail sys.head []).tail

/-- One whole `recv` call with the worker's buffer. -/
def receive (sys : Sys ι) : Sys ι :=
  match recv (recvFuel sys.block) sys.block sys.recvBuf recvBufSize with
  | .returned run =>
      { sys with
        block := run.block
        recvBuf := run.buf
        delivered := sys.delivered ++ deliveryOf sys.consumedAt run }
  | .nullPointer => sys
  | .outOfFuel => sys

/-- `flush_backlog`, as `get_next_record` calls it on a publisher timeout. -/
def flush (sys : Sys ι) : Sys ι := { sys with block := flushBacklog sys.block }

/-- A successful consumer re-initialisation starts a new history. -/
def restart (sys : Sys ι) (id : NodeId) : Sys ι :=
  match reinit id sys.block with
  | (true, block) =>
      { sys with
        block := block
        incarnation := sys.incarnation + 1
        log := []
        delivered := [] }
  | (false, block) => { sys with block := block }

end Sys

/-- What the scheduler can let happen next. -/
inductive Action (ι : Type*) where
  | begin (c : ι) (message : Message)
  | advance (c : ι) (spurious : Bool)
  | advanceMarked (c : ι) (spurious : Bool)
  | recv
  | flush
  | reinit (id : NodeId)
  | mangle (hdr : ShmHeader)

/-- One step of the system. Mangling stands for whatever made `reinit` find a foreign header. -/
def step {ι : Type*} [DecidableEq ι] (sys : Sys ι) : Action ι → Sys ι
  | .begin c message => sys.begin c message
  | .advance c spurious => sys.advance c spurious
  | .advanceMarked c spurious => sys.advanceMarked c spurious
  | .recv => sys.receive
  | .flush => sys.flush
  | .reinit id => sys.restart id
  | .mangle hdr => { sys with block.hdr := { hdr with state := sys.block.hdr.state } }

end Eroil.Shm
