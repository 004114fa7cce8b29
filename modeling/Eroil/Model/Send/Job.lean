import Eroil.Model.Node

/-! # Send jobs and the two workers that complete them

`types/send_io_types.h`, `Router::build_send_job`, `ConnectionManager::enqueue_send` and the loop
over receivers of `SendWorker::run`. One job is shared by the local and the remote worker. Between
any two accesses to the shared job the other worker may run, so a receiver is served in several
steps: the send, the increment of the failure count, and the load and the compare-exchange of
`complete_one`.
-/

namespace Eroil

/-- `io::SendBuf`: header and payload in one block, with the address the payload was copied from. -/
structure SendBuf where
  dataSrcAddr : ℕ
  data : List UInt8
  dataSize : ℕ
  sized : data.length = dataSize + sizeofLabelHeader

def SendBuf.totalSize (buf : SendBuf) : ℕ := buf.dataSize + sizeofLabelHeader

inductive SendJobErr where
  | routeNotFound
  | sizeMismatch
  | unknownHandle
  | noPublishers
  | incorrectPublisher
deriving DecidableEq

/-- `io::SendJob`. -/
structure SendJob where
  sourceId : NodeId
  label : Label
  sendBuffer : SendBuf
  seq : ℕ
  publisher : HandleRef
  localFailureCount : ℕ
  localRecvrs : List (Option ShmRef)
  remoteFailureCount : ℕ
  remoteRecvrs : List (Option SockRef)
  pendingSends : ℕ

/-- `Router::build_send_job`; a job that is not sent is dropped with its error. -/
def Router.buildSendJob (router : Router) (myId : NodeId) (label : Label) (uid : HandleUid)
    (sendBuf : SendBuf) (seq : ℕ) : Except SendJobErr SendJob :=
  match router.routes.send.table.lookup label with
  | none => .error .routeNotFound
  | some route =>
      if route.labelSize + sizeofLabelHeader ≠ sendBuf.totalSize then .error .sizeMismatch
      else
        match router.sendHandles.lookup uid with
        | none => .error .unknownHandle
        | some publisher =>
            if route.publishers = [] then .error .noPublishers
            else if uid ∉ route.publishers then .error .incorrectPublisher
            else
              let localRecvrs := route.localSubscribers.map router.transports.getSendShm
              let remoteRecvrs := route.remoteSubscribers.map router.transports.getSocket
              .ok
                { sourceId := myId
                  label := label
                  sendBuffer := sendBuf
                  seq := seq
                  publisher := publisher
                  localFailureCount := 0
                  localRecvrs := localRecvrs
                  remoteFailureCount := 0
                  remoteRecvrs := remoteRecvrs
                  pendingSends := wrap32 (localRecvrs.length + remoteRecvrs.length) }

namespace SendJob

/-- `ShmSendPlan::receivers` and `TcpSendPlan::receivers`. -/
def receivers (job : SendJob) : Transport → List (Option ℕ)
  | .shm => job.localRecvrs
  | .socket => job.remoteRecvrs

/-- `++SendPlan::fail_count(job)`, on the counter of the worker's own plan. -/
def countFailure (job : SendJob) : Transport → SendJob
  | .shm => { job with localFailureCount := wrap32 (job.localFailureCount + 1) }
  | .socket => { job with remoteFailureCount := wrap32 (job.remoteFailureCount + 1) }

/-- The failure count that `finalize_send_iosb` reports. -/
def failureCount (job : SendJob) : ℕ := wrap32 (job.localFailureCount + job.remoteFailureCount)

end SendJob

/-- Where a worker is in its loop, with the receivers after the one it is serving. -/
inductive WorkerPc where
  /-- At the head of the loop. -/
  | next (rest : List (Option ℕ))
  /-- `send_one` returned false. -/
  | failed (rest : List (Option ℕ))
  /-- Entering `complete_one`. -/
  | complete (rest : List (Option ℕ))
  /-- In the retry loop of `complete_one`, with the value last seen. -/
  | loaded (pending : ℕ) (rest : List (Option ℕ))
  /-- This worker took the count to zero. -/
  | finalize (rest : List (Option ℕ))
deriving DecidableEq

/-- A job in flight. The last three fields record what happened and are never read back. -/
structure JobRun where
  job : SendJob
  publisher : SendHandle
  world : SendWorld
  pc : Transport → WorkerPc
  failures : ℕ
  reports : List ℕ
  unexpected : ℕ

/-- One step of one worker. The outcome is what `send_one` returns and whether a weak
compare-exchange of equal values succeeds. -/
structure WorkerStep where
  worker : Transport
  outcome : Bool
  now : RTOSTime

namespace JobRun

def goto (run : JobRun) (worker : Transport) (pc : WorkerPc) : JobRun :=
  { run with pc := Function.update run.pc worker pc }

/-- `SendJob::finalize_send_iosb`. -/
def finalizeSendIosb (run : JobRun) (now : RTOSTime) : JobRun :=
  let (world, publisher) := run.publisher.writeSendIosb run.world run.job.sourceId run.job.label
    run.job.sendBuffer.dataSize run.job.failureCount run.job.sendBuffer.dataSrcAddr now
  { run with
    world := world.trySignalSem publisher.data.sem
    publisher := publisher
    reports := run.reports ++ [run.job.failureCount] }

/-- `ConnectionManager::enqueue_send` after the job was built: a job without receivers is completed
on the spot, otherwise each worker that has receivers gets it. -/
def enqueueSend (job : SendJob) (publisher : SendHandle) (world : SendWorld) (now : RTOSTime) :
    JobRun :=
  let run : JobRun :=
    { job := job
      publisher := publisher
      world := world
      pc := fun worker => .next (job.receivers worker)
      failures := 0
      reports := []
      unexpected := 0 }
  if job.localRecvrs = [] ∧ job.remoteRecvrs = [] then run.finalizeSendIosb now else run

def step (run : JobRun) (action : WorkerStep) : JobRun :=
  match run.pc action.worker with
  | .next [] => run
  | .next (none :: rest) => run.goto action.worker (.complete rest)
  | .next (some _ :: rest) =>
      if action.outcome then run.goto action.worker (.complete rest)
      else { run.goto action.worker (.failed rest) with failures := run.failures + 1 }
  | .failed rest =>
      { run.goto action.worker (.complete rest) with job := run.job.countFailure action.worker }
  | .complete rest => run.goto action.worker (.loaded run.job.pendingSends rest)
  | .loaded pending rest =>
      if pending = 0 then
        { run.goto action.worker (.next rest) with unexpected := run.unexpected + 1 }
      else if action.outcome ∧ run.job.pendingSends = pending then
        { run.goto action.worker (if pending - 1 = 0 then .finalize rest else .next rest) with
          job.pendingSends := pending - 1 }
      else run.goto action.worker (.loaded run.job.pendingSends rest)
  | .finalize rest => (run.finalizeSendIosb action.now).goto action.worker (.next rest)

end JobRun

end Eroil
