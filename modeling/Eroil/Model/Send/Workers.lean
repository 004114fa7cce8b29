import Eroil.Lib.WorkQueue
import Eroil.Model.Traffic

/-! # The queues of the two send workers

`ConnectionManager::enqueue_send` and `workers/send_worker.h`. A call builds its job under the
router's mutex, completes a job without receivers on the spot, and offers any other job to the local
worker and then to the remote one: it pushes the job under the mutex of the queue and posts the
semaphore. A worker sleeps on its semaphore and drains its queue when it wakes up. Workers are never
stopped.
-/

namespace Eroil

open Lib

/-- Where a call of `enqueue_send` stands once its job is built: the workers that it has yet to
offer the job to, and the worker whose semaphore it has yet to post. -/
inductive EnqueuePc where
  | built
  | offering (workers : List Transport)
  | posting (worker : Transport) (workers : List Transport)
deriving DecidableEq

/-- The workers that have not been offered the job. -/
def EnqueuePc.left : EnqueuePc → List Transport
  | .built => [.shm, .socket]
  | .offering workers => workers
  | .posting _ workers => workers

/-- `wrk::SendWorker`; `m_send_q` holds the jobs that wait. -/
structure SendWorker where
  queue : WorkQueue ℕ
  semaphore : ℕ
  draining : Bool

/-- A completed job, with the handle it was sent for and the position of its IOSB, if the handle has
an array of them. -/
structure Completion where
  index : ℕ
  publisher : HandleRef
  entry : Option ℕ
deriving DecidableEq

/-- The position in the IOSB array that `write_send_iosb` uses next. -/
def SendHandle.nextEntry (handle : SendHandle) : Option ℕ :=
  match handle.data.iosb with
  | none => none
  | some _ => if handle.data.numIosb = 0 then none else some handle.data.iosbIndex

/-- The connection manager over the traffic of its node. Jobs are named by their place among the
sendings; `completions` is a record only. -/
structure ConnectionManager where
  traffic : Traffic
  calls : List EnqueuePc
  worker : Transport → SendWorker
  completions : List Completion

namespace ConnectionManager

def initial (world : RecvWorld) (sendWorld : SendWorld) : ConnectionManager where
  traffic := .initial world sendWorld
  calls := []
  worker _ := ⟨.empty, 0, false⟩
  completions := []

/-- The record of a job that is being completed. -/
def completion (manager : ConnectionManager) (index : ℕ) : List Completion :=
  match manager.traffic.sendings[index]? with
  | none => []
  | some sending =>
      match manager.traffic.node.sendObjects[sending.publisher]? with
      | none => []
      | some publisher => [⟨index, sending.publisher, publisher.nextEntry⟩]

def setWorker (manager : ConnectionManager) (worker : Transport) (state : SendWorker) :
    ConnectionManager :=
  { manager with worker := Function.update manager.worker worker state }

/-- `enqueue_send` up to the end of `build_send_job`; without a job the call returns. -/
def begin (manager : ConnectionManager) (myId : NodeId) (label : Label) (uid : HandleUid)
    (sendBuf : SendBuf) (seq : ℕ) : ConnectionManager :=
  match manager.traffic.node.router.buildSendJob myId label uid sendBuf seq with
  | .error _ => manager
  | .ok _ =>
      { manager with
        traffic := manager.traffic.build myId label uid sendBuf seq
        calls := manager.calls ++ [.built] }

/-- The next step of a call of `enqueue_send`. -/
def proceed (manager : ConnectionManager) (index : ℕ) (now : RTOSTime) : ConnectionManager :=
  match manager.calls[index]?, manager.traffic.sendings[index]? with
  | some .built, some (.built job) =>
      { manager with
        traffic := manager.traffic.enqueue index now
        calls := manager.calls.set index (.offering [.shm, .socket])
        completions := manager.completions ++
          if job.localRecvrs = [] ∧ job.remoteRecvrs = [] then manager.completion index else [] }
  | some (.offering (worker :: rest)), some (.running run) =>
      if run.job.receivers worker = [] then
        { manager with calls := manager.calls.set index (.offering rest) }
      else
        let state := manager.worker worker
        { manager.setWorker worker { state with queue := state.queue.push index } with
          calls := manager.calls.set index (.posting worker rest) }
  | some (.posting worker rest), some (.running _) =>
      let state := manager.worker worker
      { manager.setWorker worker { state with semaphore := state.semaphore + 1 } with
        calls := manager.calls.set index (.offering rest) }
  | _, _ => manager

/-- The next step of a worker on the job it has taken. -/
def serve (manager : ConnectionManager) (index : ℕ) (action : WorkerStep) : ConnectionManager :=
  match manager.traffic.sendings[index]? with
  | some (.running run) =>
      match run.pc action.worker with
      | .next [] =>
          let state := manager.worker action.worker
          manager.setWorker action.worker { state with queue := state.queue.finish }
      | .finalize _ =>
          { manager with
            traffic := manager.traffic.work index action
            completions := manager.completions ++ manager.completion index }
      | _ => { manager with traffic := manager.traffic.work index action }
  | _ => manager

/-- The next step of `SendWorker::run`. -/
def work (manager : ConnectionManager) (action : WorkerStep) : ConnectionManager :=
  let state := manager.worker action.worker
  if !state.draining then
    if state.semaphore = 0 then manager
    else
      manager.setWorker action.worker
        { state with semaphore := state.semaphore - 1, draining := true }
  else
    match state.queue.current with
    | some index => manager.serve index action
    | none =>
        if state.queue.waiting = [] then
          manager.setWorker action.worker { state with draining := false }
        else manager.setWorker action.worker { state with queue := state.queue.take }

/-- What else happens on the node: calls of the application and deliveries of received labels. -/
inductive Other where
  | call (action : Node.Action) (whole : action.isDistribute = false)
  | snapshot (arrival : Arrival)
  | writeNext (index : ℕ)

def Other.action : Other → Traffic.Action
  | .call action whole => .call action whole
  | .snapshot arrival => .snapshot arrival
  | .writeNext index => .writeNext index

inductive Action where
  | other (other : Other)
  | begin (myId : NodeId) (label : Label) (uid : HandleUid) (sendBuf : SendBuf) (seq : ℕ)
  | proceed (index : ℕ) (now : RTOSTime)
  | work (action : WorkerStep)

def step (book : AddressBook) (manager : ConnectionManager) : Action → ConnectionManager
  | .other other => { manager with traffic := manager.traffic.step book other.action }
  | .begin myId label uid sendBuf seq => manager.begin myId label uid sendBuf seq
  | .proceed index now => manager.proceed index now
  | .work action => manager.work action

end ConnectionManager

end Eroil
