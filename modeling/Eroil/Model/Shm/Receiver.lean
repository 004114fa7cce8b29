import Eroil.Model.Shm.Worker
import Eroil.Model.Traffic

/-! # A node and the worker that reads its block

`ShmRecvWorker::run` calls `distribute_recvd_label` itself: the thread takes the snapshot, writes
for one subscriber after the other and only then asks the block for the next record. The application
and the other threads of the node go on meanwhile.
-/

namespace Eroil

/-- The message of a call of `distribute_recvd_label`. -/
def Dispatch.arrival (dispatch : Dispatch) (now : RTOSTime) : Arrival :=
  ⟨dispatch.sourceId, dispatch.label, dispatch.buf, dispatch.recvOffset, now⟩

def Arrival.dispatch (arrival : Arrival) : Dispatch :=
  ⟨arrival.sourceId, arrival.label, arrival.buf, arrival.recvOffset⟩

namespace Shm

/-- Where the worker's call of `distribute_recvd_label` is. -/
inductive RouterCall where
  | none
  /-- Next the snapshot of the subscribers. -/
  | entered (dispatch : Dispatch)
  /-- The distribution at this place is the worker's. -/
  | writing (index : ℕ)
deriving DecidableEq

/-- The worker of a node, the block with its senders, and the node. -/
structure Receiver (ι : Type*) where
  worker : ShmRecvWorker ι
  call : RouterCall
  traffic : Traffic

namespace Receiver

variable {ι : Type*} [DecidableEq ι]

/-- The worker reads the next record. -/
def poll (receiver : Receiver ι) (expired : Bool) : Receiver ι :=
  let next := receiver.worker.poll expired
  { receiver with
    worker := next
    call := match next.dispatched[receiver.worker.dispatched.length]? with
      | some dispatch => .entered dispatch
      | none => .none }

/-- The worker's call takes its snapshot. -/
def snapshot (receiver : Receiver ι) (now : RTOSTime) : Receiver ι :=
  match receiver.call with
  | .entered dispatch =>
      let traffic := receiver.traffic.snapshot (dispatch.arrival now)
      { receiver with
        traffic := traffic
        call := if receiver.traffic.distributions.length < traffic.distributions.length
          then .writing receiver.traffic.distributions.length else .none }
  | _ => receiver

/-- The worker's call writes for the next subscriber, or returns. -/
def write (receiver : Receiver ι) : Receiver ι :=
  match receiver.call with
  | .writing index =>
      match receiver.traffic.distributions[index]? with
      | some ⟨_, _ :: _⟩ => { receiver with traffic := receiver.traffic.writeNext index }
      | _ => { receiver with call := .none }
  | _ => receiver

inductive Action (ι : Type*) where
  /-- A step of a sender, or of the worker outside of `distribute_recvd_label`. -/
  | worker (action : ShmRecvWorker.Action ι)
  | snapshot (now : RTOSTime)
  | write
  /-- A step of any other thread. -/
  | other (action : Traffic.Action)

def step (book : AddressBook) (receiver : Receiver ι) : Action ι → Receiver ι
  | .worker (.poll expired) => if receiver.call = .none then receiver.poll expired else receiver
  | .worker action => { receiver with worker := receiver.worker.step action }
  | .snapshot now => receiver.snapshot now
  | .write => receiver.write
  | .other (.writeNext index) =>
      -- Nobody else goes on with the distribution of the worker.
      if receiver.call = .writing index then receiver
      else { receiver with traffic := receiver.traffic.writeNext index }
  | .other action => { receiver with traffic := receiver.traffic.step book action }

end Receiver

end Shm

end Eroil
