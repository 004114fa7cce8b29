import Eroil.Model.LabelHeader
import Eroil.Model.Shm.System

/-! # The shared-memory receive worker

`workers/shm_recv_worker.cpp`. The worker waits on the semaphore and then drains the block. Every
`recv` that the drain makes is one step, with what `get_next_record` and `run` make of its result;
senders run in between. Whether the timer of `get_next_record` has expired is part of the action.
-/

namespace Eroil.Shm

open Lib

/-- What becomes of a record. -/
inductive Handled where
  | skipped
  | abandoned
  | dispatched (dispatch : Dispatch)
deriving DecidableEq

/-- The body of the drain loop of `run`, for a record of `bufSize` bytes at the start of the receive
buffer. A record that is skipped leaves the loop running, one that is abandoned ends it. -/
def handleRecord (bufSize : ℕ) (buf : ByteMemory) : Handled :=
  if bufSize < sizeofLabelHeader then .skipped
  else
    let hdr := LabelHeader.ofBytes (buf.load 0 sizeofLabelHeader)
    if hdr.magic ≠ magicNum ∨ hdr.version ≠ version then .skipped
    else if hdr.labelSize > maxLabelSize then .abandoned
    else
      .dispatched
        ⟨hdr.sourceId, hdr.label, buf.load sizeofLabelHeader hdr.labelSize, hdr.recvOffset⟩

/-- Where the worker stands: in `wait`, in the drain loop, or at its end. -/
inductive WorkerPc where
  | waiting
  | draining
  | exited
deriving DecidableEq

/-- The block with its senders, and the worker of node `id` that reads it; `dispatched` holds the
calls of `distribute_recvd_label`. -/
structure ShmRecvWorker (ι : Type*) where
  id : NodeId
  sys : Sys ι
  pc : WorkerPc
  stop : Bool
  waitErrCount : ℕ
  dispatched : List Dispatch

namespace ShmRecvWorker

variable {ι : Type*} [DecidableEq ι]

/-- A worker that was just started. -/
def start (id : NodeId) (sys : Sys ι) : ShmRecvWorker ι := ⟨id, sys, .waiting, false, 0, []⟩

/-- The head of the outer loop of `run`. -/
def again (worker : ShmRecvWorker ι) : ShmRecvWorker ι :=
  { worker with pc := if worker.stop then .exited else .waiting }

/-- `wait` returns without an error; with an empty semaphore it blocks. -/
def wake (worker : ShmRecvWorker ι) : ShmRecvWorker ι :=
  if worker.pc ≠ .waiting ∨ worker.sys.semaphore = 0 then worker
  else
    { worker with
      sys.semaphore := worker.sys.semaphore - 1
      waitErrCount := 0
      pc := if worker.stop then .exited else .draining }

/-- `wait` returns with an error. -/
def waitError (worker : ShmRecvWorker ι) : ShmRecvWorker ι :=
  if worker.pc ≠ .waiting then worker
  else
    let counted := { worker with waitErrCount := worker.waitErrCount + 1 }
    if counted.waitErrCount > 10 then { counted with pc := .exited } else counted.again

/-- What `run` does with a record that `get_next_record` returned. -/
def take (worker : ShmRecvWorker ι) (run : RecvRun) : ShmRecvWorker ι :=
  match handleRecord run.data.bufSize run.buf with
  | .skipped => worker
  | .abandoned => worker.again
  | .dispatched dispatch => { worker with dispatched := worker.dispatched ++ [dispatch] }

/-- The switch of `get_next_record` after `recv` has returned. -/
def getNextRecord (worker : ShmRecvWorker ι) (expired : Bool) (run : RecvRun) : ShmRecvWorker ι :=
  match run.data.code with
  | .none => worker.take run
  | .noRecords => worker.again
  | .notYetPublished => if expired then { worker with sys := worker.sys.flush }.again else worker
  | .blockNotInitialized => { worker with stop := true }.again
  | .tailCorruption => { worker with sys := worker.sys.restart worker.id }.again
  | .blockCorrupted => { worker with sys := worker.sys.restart worker.id }.again
  | .labelTooLarge => worker.again
  | .unknownError => { worker with sys := worker.sys.restart worker.id }.again

/-- The worker in its drain loop calls `recv`. -/
def poll (worker : ShmRecvWorker ι) (expired : Bool) : ShmRecvWorker ι :=
  if worker.pc ≠ .draining then worker
  else
    match recv (recvFuel worker.sys.block) worker.sys.block worker.sys.recvBuf recvBufSize with
    | .returned run => { worker with sys := worker.sys.receive }.getNextRecord expired run
    | .nullPointer => worker
    | .outOfFuel => worker

inductive Action (ι : Type*) where
  | begin (c : ι) (message : Message)
  | advanceMarked (c : ι) (spurious : Bool)
  | wake
  | waitError
  | poll (expired : Bool)
  | requestStop

/-- One step of a sender or of the worker. -/
def step (worker : ShmRecvWorker ι) : Action ι → ShmRecvWorker ι
  | .begin c message => { worker with sys := worker.sys.begin c message }
  | .advanceMarked c spurious => { worker with sys := worker.sys.advanceMarked c spurious }
  | .wake => worker.wake
  | .waitError => worker.waitError
  | .poll expired => worker.poll expired
  | .requestStop => { worker with stop := true }

end ShmRecvWorker

end Eroil.Shm
