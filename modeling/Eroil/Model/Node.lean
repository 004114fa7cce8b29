import Eroil.Model.Address
import Eroil.Model.Router.Router

/-! # One node: the manager's calls on the router

`manager/manager.cpp` and `root.cpp`. Each action is one call of the application, one message from
the network or one label of a received broadcast; they arrive in any order. What comes from
outside (contents of the messages, whether a block can be opened) is part of the action.
-/

namespace Eroil

/-- The address book, which skips ids up to `INVALID_NODE`; unknown ids have kind `None`. -/
structure AddressBook where
  kind : NodeId → RouteKind
  valid : ∀ id, id ≤ invalidNode → kind id = .none

/-- The kinds that `get_address` reports. -/
def Addr.Book.toAddressBook (book : Addr.Book) : AddressBook where
  kind id := (book.getAddress id).kind
  valid id low := by
    have unknown : book.find? id = none := by
      simp only [Addr.Book.find?, List.find?_eq_none, decide_eq_true_eq]
      rintro addr mem rfl
      exact absurd low (Int32.not_le.mpr (book.valid addr mem))
    rw [Addr.Book.getAddress, unknown, Option.getD_none]

structure Node where
  nextId : ℕ
  router : Router
  sendObjects : List SendHandle
  recvObjects : List RecvHandle
  world : RecvWorld

namespace Node

def initial (world : RecvWorld) : Node := ⟨1, .empty, [], [], world⟩

/-- `unique_id`, a 64-bit counter whose values handles keep in 32 bits. -/
def uniqueId (node : Node) : HandleUid × Node :=
  (wrap32 node.nextId, { node with nextId := wrap64 (node.nextId + 1) })

def openSend (node : Node) (data : OpenSendData) : Node × Option HandleRef :=
  if data.accepted then
    let (uid, node) := node.uniqueId
    let handle : SendHandle := ⟨uid, data⟩
    let router := node.router.registerSendPublisher node.sendObjects.length handle
    ({ node with router := router, sendObjects := node.sendObjects ++ [handle] },
      router.getSendHandle uid)
  else (node, none)

def closeSend (node : Node) (ref : HandleRef) : Node :=
  match node.sendObjects[ref]? with
  | none => node
  | some handle => { node with router := node.router.unregisterSendPublisher ref handle }

def openRecv (node : Node) (data : OpenReceiveData) : Node × Option HandleRef :=
  if data.accepted then
    let (uid, node) := node.uniqueId
    let handle : RecvHandle := .new uid data
    let router := node.router.registerRecvSubscriber node.recvObjects.length handle
    ({ node with router := router, recvObjects := node.recvObjects ++ [handle] },
      router.getRecvHandle uid)
  else (node, none)

def closeRecv (node : Node) (ref : HandleRef) : Node :=
  match node.recvObjects[ref]? with
  | none => node
  | some handle => { node with router := node.router.unregisterRecvSubscriber ref handle }

/-- A call of the application on a receive handle. -/
def callRecv (node : Node) (ref : HandleRef) (call : RecvHandle.Call) : Node :=
  match node.recvObjects[ref]? with
  | none => node
  | some handle => { node with recvObjects := node.recvObjects.set ref (handle.call call) }

/-- Deliver a message to one subscriber of the snapshot. -/
def deliverTo (arrival : Arrival) (node : Node) (ref : HandleRef) : Node :=
  match node.recvObjects[ref]? with
  | none => node
  | some handle =>
      let (world, handle) := handle.deliver arrival node.world
      { node with world := world, recvObjects := node.recvObjects.set ref handle }

/-- `Router::distribute_recvd_label`. -/
def distributeRecvdLabel (node : Node) (arrival : Arrival) : Node :=
  match node.router.recvSubscribers arrival.label arrival.buf.length with
  | none => node
  | some subscribers => subscribers.foldl (deliverTo arrival) node

/-- The loop body of `Manager::add_subscriber`. -/
def addSubscriber (book : AddressBook) (node : Node) (source : NodeId) (label : Label) (size : ℕ) :
    Node :=
  if label ≤ invalidLabel then node
  else if !node.router.hasSendRoute label then node
  else if node.router.isSendSubscriber label source then node
  else
    match book.kind source with
    | .self => { node with router := node.router.addLocalSendSubscriber label size source }
    | .shm => { node with router := node.router.addLocalSendSubscriber label size source }
    | .socket => { node with router := node.router.addRemoteSendSubscriber label size source }
    | .none => node

/-- The loop body of `Manager::remove_subscriber` for a label that the node no longer lists. -/
def removeSubscriber (book : AddressBook) (node : Node) (source : NodeId) (label : Label) : Node :=
  if label ≤ invalidLabel then node
  else if !node.router.isSendSubscriber label source then node
  else
    match book.kind source with
    | .self => { node with router := node.router.removeLocalSendSubscriber label source }
    | .shm => { node with router := node.router.removeLocalSendSubscriber label source }
    | .socket => { node with router := node.router.removeRemoteSendSubscriber label source }
    | .none => node

inductive Action where
  | openSend (data : OpenSendData)
  | closeSend (ref : HandleRef)
  | openRecv (request : RecvRequest)
  | closeRecv (ref : HandleRef)
  | callRecv (ref : HandleRef) (call : RecvHandle.Call)
  | distribute (arrival : Arrival)
  | addSubscriber (source : NodeId) (label : Label) (size : UInt32)
  | removeSubscriber (source : NodeId) (label : Label)
  | openSendShm (id : NodeId) (opened : Option ShmRef)
  | upsertSocket (id : NodeId) (sock : Option SockRef)

def step (book : AddressBook) (node : Node) : Action → Node
  | .openSend data => (node.openSend data).1
  | .closeSend ref => node.closeSend ref
  | .openRecv request => (node.openRecv (openRecvLabel request)).1
  | .closeRecv ref => node.closeRecv ref
  | .callRecv ref call => node.callRecv ref call
  | .distribute arrival => node.distributeRecvdLabel arrival
  | .addSubscriber source label size => node.addSubscriber book source label size.toNat
  | .removeSubscriber source label => node.removeSubscriber book source label
  | .openSendShm id opened =>
      { node with router.transports := (node.router.transports.openSendShm id opened).1 }
  | .upsertSocket id sock =>
      { node with router.transports := (node.router.transports.upsertSocket id sock).1 }

end Node

/-- A node with the handles that its application holds; the lists are a record only. -/
structure Session where
  node : Node
  sendOpen : List HandleRef
  recvOpen : List HandleRef

namespace Session

def initial (world : RecvWorld) : Session := ⟨.initial world, [], []⟩

inductive Call where
  | openSend (data : OpenSendData)
  | closeSend (ref : HandleRef)
  | openRecv (data : OpenReceiveData)
  | closeRecv (ref : HandleRef)

def step (session : Session) : Call → Session
  | .openSend data =>
      { session with
        node := (session.node.openSend data).1
        sendOpen := (session.node.openSend data).2.toList ++ session.sendOpen }
  | .closeSend ref =>
      { session with
        node := session.node.closeSend ref
        sendOpen := session.sendOpen.filter (· ≠ ref) }
  | .openRecv data =>
      { session with
        node := (session.node.openRecv data).1
        recvOpen := (session.node.openRecv data).2.toList ++ session.recvOpen }
  | .closeRecv ref =>
      { session with
        node := session.node.closeRecv ref
        recvOpen := session.recvOpen.filter (· ≠ ref) }

end Session

end Eroil
