import Mathlib.Data.Nat.Digits.Defs
import Eroil.Model.Types

/-! # The event log

`log/evtlog.cpp`, `log/evtlog.h` and `log/evtrecord.h`: a ring of records that three writers fill
and `write_evtlog` prints through `LOG` (`safe_print.h`). Without concurrent writers each call is
one step; `now_fast` is an argument. Text is the bytes that reach the stream.
-/

namespace Eroil.EvtLog

/-- `EventKind`. -/
inductive EventKind where
  | none
  | noSelfId | noSockContext | noComms | noBroadcast
  | start | failed | «end» | exit | send | sendFailed | recv | recvFailed | waitError | recvError
  | unknownError | unhandledError
  | invalidHeader | invalidFlags
  | malformedRecv | invalidLabelSize | dataDistributed | publishTimeout | blockNotInitialized
  | blockCorruption | labelTooLarge
  | addLocalSendSubscriber | addRemoteSendSubscriber | removeLocalSendSubscriber
  | removeRemoteSendSubscriber | duplicateLabel
  | connect | ping | startFailed | acceptFailed | connectionFailed | newConnection | reconnected
  | deadSocketFound
deriving DecidableEq

def EventKind.value (kind : EventKind) : UInt16 := .ofNat kind.ctorIdx

/-- `Severity`. -/
inductive Severity where
  | info | warning | error | critical
deriving DecidableEq

def Severity.value (severity : Severity) : UInt8 := .ofNat severity.ctorIdx

/-- `Category`. -/
inductive Category where
  | general | manager | router | shm | socket | worker | sendWorker | shmRecvWorker
  | socketRecvWorker | broadcast | socketMonitor | tcpServer
deriving DecidableEq

def Category.value (category : Category) : UInt8 := .ofNat category.ctorIdx

def payloadBytes : ℕ := 20
def eventLogCapacity : ℕ := 1024

def hasTick : UInt16 := 1
def hasPayload : UInt16 := 2

/-- `EventRecord`; the snapshot that `write_evtlog` takes has the same members up to
`commit_seq`. -/
structure EventRecord where
  tick : UInt64
  a : Int32
  b : Int32
  c : Int32
  kind : UInt16
  severity : UInt8
  category : UInt8
  flags : UInt16
  payloadLen : UInt16
  payload : Fin payloadBytes → UInt8
  commitSeq : UInt32

def EventRecord.zero : EventRecord := ⟨0, 0, 0, 0, 0, 0, 0, 0, 0, fun _ => 0, 0⟩

/-- `EventLog`. -/
structure EventLog where
  seq : UInt32
  idx : ℕ
  evtLogs : ℕ → EventRecord

/-- The arguments that the three writers share. -/
structure Event where
  kind : EventKind
  severity : Severity
  category : Category
  a : Int32
  b : Int32
  c : Int32

namespace EventLog

def initial : EventLog := ⟨1, 0, fun _ => .zero⟩

/-- The slot of the next call. -/
def slot (log : EventLog) : ℕ := log.idx &&& (eventLogCapacity - 1)

/-- Both counters move on and the slot holds the record. -/
def commit (log : EventLog) (record : EventRecord) : EventLog where
  seq := log.seq + 1
  idx := wrap64 (log.idx + 1)
  evtLogs := fun query => if query = log.slot then record else log.evtLogs query

/-- `log_payload`; the payload is what `payload_size` bytes behind a pointer hold, `none` for a null
pointer. -/
def logPayload (log : EventLog) (event : Event) (payload : Option (List UInt8)) (now : UInt64) :
    EventLog :=
  let record : EventRecord :=
    { log.evtLogs log.slot with
      tick := now
      a := event.a
      b := event.b
      c := event.c
      kind := event.kind.value
      severity := event.severity.value
      category := event.category.value
      flags := hasTick }
  match payload with
  | some (byte :: bytes) =>
      let size :=
        if (byte :: bytes).length < payloadBytes then (byte :: bytes).length else payloadBytes
      -- `memcpy` of the first `size` bytes, `memset` of the others
      log.commit
        { record with
          flags := record.flags ||| hasPayload
          payloadLen := .ofNat size
          payload := fun index => if index < size then (byte :: bytes).getD index 0 else 0
          commitSeq := log.seq }
  | _ => log.commit { record with payloadLen := 0, payload := fun _ => 0, commitSeq := log.seq }

/-- `log_hot`, which leaves the payload bytes as they are. -/
def logHot (log : EventLog) (event : Event) (now : UInt64) : EventLog :=
  log.commit
    { log.evtLogs log.slot with
      tick := now
      a := event.a
      b := event.b
      c := event.c
      kind := event.kind.value
      severity := event.severity.value
      category := event.category.value
      flags := hasTick
      payloadLen := 0
      commitSeq := log.seq }

/-- `log_hot_no_time`, which leaves the payload bytes as they are. -/
def logHotNoTime (log : EventLog) (event : Event) : EventLog :=
  log.commit
    { log.evtLogs log.slot with
      tick := 0
      a := event.a
      b := event.b
      c := event.c
      kind := event.kind.value
      severity := event.severity.value
      category := event.category.value
      flags := 0
      payloadLen := 0
      commitSeq := log.seq }

end EventLog

/-- A call of one of the writers. -/
inductive LogCall where
  | payload (event : Event) (payload : Option (List UInt8)) (now : UInt64)
  | hot (event : Event) (now : UInt64)
  | hotNoTime (event : Event)

def EventLog.step (log : EventLog) : LogCall → EventLog
  | .payload event payload now => log.logPayload event payload now
  | .hot event now => log.logHot event now
  | .hotNoTime event => log.logHotNoTime event

def EventLog.run (log : EventLog) (calls : List LogCall) : EventLog := calls.foldl step log

/-- An unsigned number as a stream prints it. -/
def decimal (value : ℕ) : List UInt8 :=
  if value = 0 then [48] else (Nat.digits 10 value).reverse.map fun digit => .ofNat (48 + digit)

/-- A signed number as a stream prints it. -/
def signedDecimal (value : ℤ) : List UInt8 :=
  if value < 0 then 45 :: decimal value.natAbs else decimal value.natAbs

def comma : UInt8 := 44
def newline : UInt8 := 10

/-- What `write_evtlog` streams for one record. `severity` and `category` are of type `uint8_t`,
which a stream inserts as a character; `+val` makes numbers of the payload bytes. -/
def recordText (snapshot : EventRecord) (seq : UInt32) : List UInt8 :=
  let size := if snapshot.payloadLen.toNat ≤ payloadBytes then snapshot.payloadLen.toNat
    else payloadBytes
  decimal snapshot.tick.toNat ++ [comma] ++
  signedDecimal snapshot.a.toInt ++ [comma] ++
  signedDecimal snapshot.b.toInt ++ [comma] ++
  signedDecimal snapshot.c.toInt ++ [comma] ++
  decimal snapshot.kind.toNat ++ [comma] ++
  [snapshot.severity] ++ [comma] ++
  [snapshot.category] ++ [comma] ++
  decimal snapshot.flags.toNat ++ [comma] ++
  decimal snapshot.payloadLen.toNat ++ [comma] ++
  (List.finRange payloadBytes).flatMap (fun index =>
    decimal (if index.val < size then snapshot.payload index else 0).toNat ++ [comma]) ++
  decimal seq.toNat ++ [newline]

/-- The texts of the records of a log, slot after slot, as `write_evtlog` hands them to `LOG`.
Nothing changes a record between the two loads of `commit_seq`. -/
def EventLog.recordTexts (log : EventLog) : List (List UInt8) :=
  (List.range eventLogCapacity).filterMap fun index =>
    let record := log.evtLogs index
    if record.commitSeq = 0 then none else some (recordText record record.commitSeq)

/-- A string literal in ASCII. -/
def ascii (text : String) : List UInt8 := text.toList.map fun c => .ofNat c.toNat

/-- What `print::info_print` writes before its arguments; `id` is `print::detail::__id`. -/
def infoPrefix (id : Int32) : List UInt8 := ascii "[ " ++ signedDecimal id.toInt ++ ascii " ] INFO: "

/-- `LOG`, that is `print::info_print`, with one string: what it writes to `std::clog`. -/
def infoPrint (id : Int32) (text : List UInt8) : List UInt8 := infoPrefix id ++ text ++ [newline]

/-- `write_evtlog`: what it writes to `std::clog`. It walks `g_event_log`, whatever log it is called
on. -/
def EventLog.writeEvtlog (_ gEventLog : EventLog) (id : Int32) : List UInt8 :=
  gEventLog.recordTexts.flatMap (infoPrint id)

end Eroil.EvtLog
