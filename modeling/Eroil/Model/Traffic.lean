import Eroil.Model.Send.Job

/-! # A node with work in flight

`Router::distribute_recvd_label` takes its snapshot of the subscribers under the router's mutex and
writes to them afterwards; a send job is built under the mutex, and is sent and completed
afterwards. Both hold shared pointers to the handles they were given, so a handle that is closed in
between stays alive for them. Any number of such calls run beside the calls of the application.
-/

namespace Eroil

/-- A `distribute_recvd_label` call after its snapshot, with the subscribers it has yet to serve. -/
structure Distribution where
  arrival : Arrival
  left : List HandleRef

/-- A send job that `enqueue_send` has built, or handed on. -/
inductive Sending where
  | built (job : SendJob)
  | running (run : JobRun)

def Sending.publisher : Sending → HandleRef
  | .built job => job.publisher
  | .running run => run.job.publisher

/-- A node with its unfinished calls. Calls that have finished keep their place in the lists. -/
structure Traffic where
  node : Node
  sendWorld : SendWorld
  distributions : List Distribution
  sendings : List Sending

/-- `distribute_recvd_label` as a whole, which is taken apart here. -/
def Node.Action.isDistribute : Node.Action → Bool
  | .distribute _ => true
  | _ => false

namespace Traffic

def initial (world : RecvWorld) (sendWorld : SendWorld) : Traffic :=
  ⟨.initial world, sendWorld, [], []⟩

/-- The part of `distribute_recvd_label` under the router's mutex. -/
def snapshot (traffic : Traffic) (arrival : Arrival) : Traffic :=
  match traffic.node.router.recvSubscribers arrival.label arrival.buf.length with
  | none => traffic
  | some subscribers =>
      { traffic with distributions := traffic.distributions ++ [⟨arrival, subscribers⟩] }

/-- The next round of the loop over the subscribers. -/
def writeNext (traffic : Traffic) (index : ℕ) : Traffic :=
  match traffic.distributions[index]? with
  | some ⟨arrival, ref :: left⟩ =>
      { traffic with
        node := traffic.node.deliverTo arrival ref
        distributions := traffic.distributions.set index ⟨arrival, left⟩ }
  | _ => traffic

/-- The call of `build_send_job` in `enqueue_send`. -/
def build (traffic : Traffic) (myId : NodeId) (label : Label) (uid : HandleUid) (sendBuf : SendBuf)
    (seq : ℕ) : Traffic :=
  match traffic.node.router.buildSendJob myId label uid sendBuf seq with
  | .error _ => traffic
  | .ok job => { traffic with sendings := traffic.sendings ++ [.built job] }

/-- What a step of a job leaves in the publisher and in the memory that all jobs share. -/
def settle (traffic : Traffic) (index : ℕ) (run : JobRun) : Traffic :=
  { traffic with
    node.sendObjects := traffic.node.sendObjects.set run.job.publisher run.publisher
    sendWorld := run.world
    sendings := traffic.sendings.set index (.running run) }

/-- The rest of `enqueue_send`. -/
def enqueue (traffic : Traffic) (index : ℕ) (now : RTOSTime) : Traffic :=
  match traffic.sendings[index]? with
  | some (.built job) =>
      match traffic.node.sendObjects[job.publisher]? with
      | none => traffic
      | some publisher =>
          traffic.settle index (JobRun.enqueueSend job publisher traffic.sendWorld now)
  | _ => traffic

/-- One step of a worker on a job, `finalize_send_iosb` included. -/
def work (traffic : Traffic) (index : ℕ) (action : WorkerStep) : Traffic :=
  match traffic.sendings[index]? with
  | some (.running run) =>
      match traffic.node.sendObjects[run.job.publisher]? with
      | none => traffic
      | some publisher =>
          traffic.settle index
            ({ run with publisher := publisher, world := traffic.sendWorld }.step action)
  | _ => traffic

inductive Action where
  | call (action : Node.Action) (whole : action.isDistribute = false)
  | snapshot (arrival : Arrival)
  | writeNext (index : ℕ)
  | build (myId : NodeId) (label : Label) (uid : HandleUid) (sendBuf : SendBuf) (seq : ℕ)
  | enqueue (index : ℕ) (now : RTOSTime)
  | work (index : ℕ) (action : WorkerStep)

def step (book : AddressBook) (traffic : Traffic) : Action → Traffic
  | .call action _ => { traffic with node := traffic.node.step book action }
  | .snapshot arrival => traffic.snapshot arrival
  | .writeNext index => traffic.writeNext index
  | .build myId label uid sendBuf seq => traffic.build myId label uid sendBuf seq
  | .enqueue index now => traffic.enqueue index now
  | .work index action => traffic.work index action

end Traffic

end Eroil
