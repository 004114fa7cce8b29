import Mathlib.Logic.Function.Basic
import Eroil.Model.EventLog

/-! # The event log with several threads

`log/evtlog.cpp` one load or store at a time: any number of calls of the three writers, and one pass
of `write_evtlog` beside them. Loads and stores take effect in one order that all threads see. The
two counters are taken one after the other, and the copy of `write_evtlog` reads the members of a
record in any order.
-/

namespace Eroil.EvtLog

/-- A member of a record that is written and copied on its own. -/
inductive Cell where
  | tick | a | b | c | kind | severity | category | flags | payloadLen
  | payload (index : Fin payloadBytes)
deriving DecidableEq

namespace Cell

/-- The member is copied from one record to another. -/
def copy (cell : Cell) (source target : EventRecord) : EventRecord :=
  match cell with
  | .tick => { target with tick := source.tick }
  | .a => { target with a := source.a }
  | .b => { target with b := source.b }
  | .c => { target with c := source.c }
  | .kind => { target with kind := source.kind }
  | .severity => { target with severity := source.severity }
  | .category => { target with category := source.category }
  | .flags => { target with flags := source.flags }
  | .payloadLen => { target with payloadLen := source.payloadLen }
  | .payload index =>
      { target with payload := Function.update target.payload index (source.payload index) }

/-- The members that every writer fills first, in its order. -/
def head : List Cell := [.tick, .a, .b, .c, .kind, .severity, .category, .flags]

def payloads : List Cell := (List.finRange payloadBytes).map .payload

/-- The members up to `commit_seq`. -/
def all : List Cell := head ++ .payloadLen :: payloads

end Cell

/-- A store: the member, and a record that has the value. -/
structure CellStore where
  cell : Cell
  source : EventRecord

def CellStore.apply (record : EventRecord) (store : CellStore) : EventRecord :=
  store.cell.copy store.source record

/-- The values that do not depend on a payload; everything else is zero. -/
def Event.record (event : Event) (tick : UInt64) (flags : UInt16) : EventRecord :=
  { EventRecord.zero with
    tick := tick
    a := event.a
    b := event.b
    c := event.c
    kind := event.kind.value
    severity := event.severity.value
    category := event.category.value
    flags := flags }

/-- The stores of a call between the two stores of `commit_seq`. -/
def LogCall.stores : LogCall → List CellStore
  | .payload event bytes now =>
      let record := event.record now hasTick
      Cell.head.map (⟨·, record⟩) ++
        match bytes with
        | some (byte :: bytes) =>
            let size :=
              if (byte :: bytes).length < payloadBytes then (byte :: bytes).length else payloadBytes
            let record :=
              { record with
                flags := record.flags ||| hasPayload
                payloadLen := .ofNat size
                payload := fun index => if index < size then (byte :: bytes).getD index 0 else 0 }
            (Cell.flags :: .payloadLen :: Cell.payloads).map (⟨·, record⟩)
        | _ => (Cell.payloadLen :: Cell.payloads).map (⟨·, record⟩)
  | .hot event now => (Cell.head ++ [Cell.payloadLen]).map (⟨·, event.record now hasTick⟩)
  | .hotNoTime event => (Cell.head ++ [Cell.payloadLen]).map (⟨·, event.record 0 0⟩)

/-- Where a call is. -/
inductive WriterPc where
  | called
  /-- `m_seq` has been taken; next `m_idx`. -/
  | numbered (seq : UInt32)
  /-- Next the record is marked as invalid. -/
  | claimed (seq : UInt32) (slot : ℕ)
  /-- These stores are left, and then `commit_seq`. -/
  | writing (seq : UInt32) (slot : ℕ) (left : List CellStore)
  | done (seq : UInt32) (slot : ℕ)

structure Writer where
  call : LogCall
  pc : WriterPc

/-- Where the pass of `write_evtlog` is. -/
inductive ReaderPc where
  /-- Next the first load of `commit_seq` of this slot; the pass ends behind the last slot. -/
  | looking (index : ℕ)
  /-- These members have been copied to the snapshot. -/
  | copying (index : ℕ) (seq : UInt32) (snapshot : EventRecord) (copied : List Cell)

/-- A text that `write_evtlog` handed to `LOG`, and the slot and the number it is of. -/
structure Line where
  index : ℕ
  seq : UInt32
  text : List UInt8

structure LogThreads where
  log : EventLog
  writers : List Writer
  reader : ReaderPc
  printed : List Line

namespace LogThreads

/-- Nothing logged, and `write_evtlog` at the first slot. -/
def initial : LogThreads := ⟨.initial, [], .looking 0, []⟩

def setRecord (log : EventLog) (slot : ℕ) (record : EventRecord) : EventLog :=
  { log with evtLogs := Function.update log.evtLogs slot record }

/-- The next step of a call. -/
def write (threads : LogThreads) (index : ℕ) : LogThreads :=
  match threads.writers[index]? with
  | none => threads
  | some writer =>
      let log := threads.log
      let goes (log : EventLog) (pc : WriterPc) : LogThreads :=
        { threads with log := log, writers := threads.writers.set index { writer with pc := pc } }
      match writer.pc with
      | .called => goes { log with seq := log.seq + 1 } (.numbered log.seq)
      | .numbered seq => goes { log with idx := wrap64 (log.idx + 1) } (.claimed seq log.slot)
      | .claimed seq slot =>
          goes (setRecord log slot { log.evtLogs slot with commitSeq := 0 })
            (.writing seq slot writer.call.stores)
      | .writing seq slot (store :: left) =>
          goes (setRecord log slot (store.apply (log.evtLogs slot))) (.writing seq slot left)
      | .writing seq slot [] =>
          goes (setRecord log slot { log.evtLogs slot with commitSeq := seq }) (.done seq slot)
      | .done _ _ => threads

/-- The first load of `commit_seq`. -/
def look (threads : LogThreads) : LogThreads :=
  match threads.reader with
  | .looking index =>
      if index < eventLogCapacity then
        let seq := (threads.log.evtLogs index).commitSeq
        { threads with
          reader := if seq = 0 then .looking (index + 1) else .copying index seq .zero [] }
      else threads
  | .copying _ _ _ _ => threads

/-- One member of the record is copied. -/
def copy (threads : LogThreads) (cell : Cell) : LogThreads :=
  match threads.reader with
  | .looking _ => threads
  | .copying index seq snapshot copied =>
      { threads with
        reader := .copying index seq (cell.copy (threads.log.evtLogs index) snapshot)
          (cell :: copied) }

/-- The second load of `commit_seq`, after the copy. -/
def confirm (threads : LogThreads) : LogThreads :=
  match threads.reader with
  | .looking _ => threads
  | .copying index seq snapshot copied =>
      if ∀ cell ∈ Cell.all, cell ∈ copied then
        { threads with
          reader := .looking (index + 1)
          printed :=
            if seq ≠ (threads.log.evtLogs index).commitSeq then threads.printed
            else threads.printed ++ [⟨index, seq, recordText snapshot seq⟩] }
      else threads

inductive Action where
  | call (call : LogCall)
  | write (index : ℕ)
  | look
  | copy (cell : Cell)
  | confirm

def step (threads : LogThreads) : Action → LogThreads
  | .call call => { threads with writers := threads.writers ++ [⟨call, .called⟩] }
  | .write index => threads.write index
  | .look => threads.look
  | .copy cell => threads.copy cell
  | .confirm => threads.confirm

end LogThreads

end Eroil.EvtLog
