import Eroil.Model.Router.RouteTable

/-! # The router and the calls that reach it

`router/router.cpp`, `router/transport_registry.cpp`, and the parts of `manager/manager.cpp` that
open and close handles and update subscriptions. Every router method runs under the router's
mutex and is one step. Handle objects live in a list that only grows: a reference is a position
in it, which stands for the address that the source compares. Shared memory senders and sockets
are opaque here and known by a reference too.
-/

namespace Eroil

open Lib

abbrev HandleRef := ℕ
abbrev ShmRef := ℕ
abbrev SockRef := ℕ

/-- `rt::TransportRegistry`, the sending side. -/
structure TransportRegistry where
  sendShm : AList (fun _ : NodeId => ShmRef)
  sockets : AList (fun _ : NodeId => SockRef)

namespace TransportRegistry

def empty : TransportRegistry := ⟨∅, ∅⟩

def getSendShm (registry : TransportRegistry) (id : NodeId) : Option ShmRef :=
  registry.sendShm.lookup id

def hasSendShm (registry : TransportRegistry) (id : NodeId) : Bool := (registry.getSendShm id).isSome

def getSocket (registry : TransportRegistry) (id : NodeId) : Option SockRef :=
  registry.sockets.lookup id

def hasSocket (registry : TransportRegistry) (id : NodeId) : Bool := (registry.getSocket id).isSome

/-- `open_send_shm`, given what opening the block yields. -/
def openSendShm (registry : TransportRegistry) (id : NodeId) (opened : Option ShmRef) :
    TransportRegistry × Bool :=
  if registry.hasSendShm id then (registry, true)
  else
    match opened with
    | none => (registry, false)
    | some shm => ({ registry with sendShm := registry.sendShm.insert id shm }, true)

/-- `upsert_socket`; the socket it replaces is returned to be disconnected. -/
def upsertSocket (registry : TransportRegistry) (id : NodeId) (sock : Option SockRef) :
    TransportRegistry × Option SockRef :=
  match sock with
  | none => (registry, none)
  | some sock =>
      ({ registry with sockets := registry.sockets.insert id sock }, registry.getSocket id)

/-- The transport of one kind to a node. -/
def has (registry : TransportRegistry) (id : NodeId) : Transport → Bool
  | .shm => registry.hasSendShm id
  | .socket => registry.hasSocket id

end TransportRegistry

/-- `rt::Router`. -/
structure Router where
  routes : RouteTable
  transports : TransportRegistry
  sendHandles : AList (fun _ : HandleUid => HandleRef)
  recvHandles : AList (fun _ : HandleUid => HandleRef)

namespace Router

def empty : Router := ⟨⟨.empty, .empty⟩, .empty, ∅, ∅⟩

/-- Store a handle under its uid, unless the uid is taken or the route table refuses it. -/
def storeHandle {ρ : Type} (routes : Routes ρ) (handles : AList (fun _ : HandleUid => HandleRef))
    (uid : HandleUid) (ref : HandleRef) (added : Routes ρ × Bool) :
    Routes ρ × AList (fun _ : HandleUid => HandleRef) :=
  if uid ∈ handles then (routes, handles)
  else
    let handles := handles.insert uid ref
    if added.2 then (added.1, handles) else (added.1, handles.erase uid)

/-- Forget a handle if the uid still stands for this very object. -/
def dropHandle {ρ : Type} (routes : Routes ρ) (handles : AList (fun _ : HandleUid => HandleRef))
    (uid : HandleUid) (ref : HandleRef) (removed : Routes ρ × Bool) :
    Routes ρ × AList (fun _ : HandleUid => HandleRef) :=
  if handles.lookup uid = some ref then (removed.1, handles.erase uid) else (routes, handles)

def registerSendPublisher (router : Router) (ref : HandleRef) (handle : SendHandle) : Router :=
  let (routes, handles) := storeHandle router.routes.send router.sendHandles handle.uid ref
    (router.routes.send.addSendPublisher handle.data.label handle)
  { router with routes.send := routes, sendHandles := handles }

def unregisterSendPublisher (router : Router) (ref : HandleRef) (handle : SendHandle) : Router :=
  let (routes, handles) := dropHandle router.routes.send router.sendHandles handle.uid ref
    (router.routes.send.removeSendPublisher handle.data.label handle.uid)
  { router with routes.send := routes, sendHandles := handles }

def registerRecvSubscriber (router : Router) (ref : HandleRef) (handle : RecvHandle) : Router :=
  let (routes, handles) := storeHandle router.routes.recv router.recvHandles handle.uid ref
    (router.routes.recv.addRecvSubscriber handle.data.label handle)
  { router with routes.recv := routes, recvHandles := handles }

def unregisterRecvSubscriber (router : Router) (ref : HandleRef) (handle : RecvHandle) : Router :=
  let (routes, handles) := dropHandle router.routes.recv router.recvHandles handle.uid ref
    (router.routes.recv.removeRecvSubscriber handle.data.label handle.uid)
  { router with routes.recv := routes, recvHandles := handles }

def getSendHandle (router : Router) (uid : HandleUid) : Option HandleRef :=
  router.sendHandles.lookup uid

def getRecvHandle (router : Router) (uid : HandleUid) : Option HandleRef :=
  router.recvHandles.lookup uid

/-- Subscribe a node to a label, if the transport to it exists. -/
def addSubscriber (router : Router) (kind : Transport) (label : Label) (size : ℕ) (dst : NodeId) :
    Router :=
  if router.transports.has dst kind then
    { router with routes.send := (router.routes.send.addSendSubscriber kind label size dst).1 }
  else router

def addLocalSendSubscriber (router : Router) := router.addSubscriber .shm

def addRemoteSendSubscriber (router : Router) := router.addSubscriber .socket

def removeSubscriber (router : Router) (kind : Transport) (label : Label) (dst : NodeId) : Router :=
  { router with routes.send := (router.routes.send.removeSendSubscriber kind label dst).1 }

def removeLocalSendSubscriber (router : Router) := router.removeSubscriber .shm

def removeRemoteSendSubscriber (router : Router) := router.removeSubscriber .socket

def hasSendRoute (router : Router) (label : Label) : Bool := router.routes.send.has label

def isSendSubscriber (router : Router) (label : Label) (dst : NodeId) : Bool :=
  router.routes.send.isRemoteSendSubscriber label dst ||
    router.routes.send.isLocalSendSubscriber label dst

/-- The subscribers that `distribute_recvd_label` writes to, or `none` if a check fails. -/
def recvSubscribers (router : Router) (label : Label) (size : ℕ) : Option (List HandleRef) :=
  if size = 0 then none
  else
    match router.routes.recv.table.lookup label with
    | none => none
    | some route =>
        if route.labelSize ≠ size then none
        else if route.subscribers = [] then none
        else some (route.subscribers.filterMap router.recvHandles.lookup)

/-- The handle objects that callers of the router own. The router reads their uid, label and
buffer size, none of which changes. -/
structure Objects where
  send : HandleRef → SendHandle
  recv : HandleRef → RecvHandle

/-- A call that changes the router; handles are pointers and can be null. -/
inductive Call where
  | registerSendPublisher (handle : Option HandleRef)
  | unregisterSendPublisher (handle : Option HandleRef)
  | registerRecvSubscriber (handle : Option HandleRef)
  | unregisterRecvSubscriber (handle : Option HandleRef)
  | addLocalSendSubscriber (label : Label) (size : ℕ) (dst : NodeId)
  | addRemoteSendSubscriber (label : Label) (size : ℕ) (dst : NodeId)
  | removeLocalSendSubscriber (label : Label) (dst : NodeId)
  | removeRemoteSendSubscriber (label : Label) (dst : NodeId)
  | upsertSocket (id : NodeId) (sock : Option SockRef)
  | openSendShm (id : NodeId) (opened : Option ShmRef)

def call (objects : Objects) (router : Router) : Call → Router
  | .registerSendPublisher none => router
  | .registerSendPublisher (some ref) => router.registerSendPublisher ref (objects.send ref)
  | .unregisterSendPublisher none => router
  | .unregisterSendPublisher (some ref) => router.unregisterSendPublisher ref (objects.send ref)
  | .registerRecvSubscriber none => router
  | .registerRecvSubscriber (some ref) => router.registerRecvSubscriber ref (objects.recv ref)
  | .unregisterRecvSubscriber none => router
  | .unregisterRecvSubscriber (some ref) => router.unregisterRecvSubscriber ref (objects.recv ref)
  | .addLocalSendSubscriber label size dst => router.addLocalSendSubscriber label size dst
  | .addRemoteSendSubscriber label size dst => router.addRemoteSendSubscriber label size dst
  | .removeLocalSendSubscriber label dst => router.removeLocalSendSubscriber label dst
  | .removeRemoteSendSubscriber label dst => router.removeRemoteSendSubscriber label dst
  | .upsertSocket id sock => { router with transports := (router.transports.upsertSocket id sock).1 }
  | .openSendShm id opened =>
      { router with transports := (router.transports.openSendShm id opened).1 }

/-- Registration ends without an error: the uid was free and the route table took the handle. -/
def stored {ρ : Type} (handles : AList (fun _ : HandleUid => HandleRef)) (uid : HandleUid)
    (added : Routes ρ × Bool) : Bool := decide (uid ∉ handles) && added.2

/-- Unregistration ends without an error: the uid stood for this object and its route listed it. -/
def dropped {ρ : Type} (handles : AList (fun _ : HandleUid => HandleRef)) (uid : HandleUid)
    (ref : HandleRef) (removed : Routes ρ × Bool) : Bool :=
  decide (handles.lookup uid = some ref) && removed.2

/-- The call ends without an error, which the source prints or returns. -/
def accepts (objects : Objects) (router : Router) : Call → Bool
  | .registerSendPublisher none => false
  | .registerSendPublisher (some ref) =>
      stored router.sendHandles (objects.send ref).uid
        (router.routes.send.addSendPublisher (objects.send ref).data.label (objects.send ref))
  | .unregisterSendPublisher none => false
  | .unregisterSendPublisher (some ref) =>
      dropped router.sendHandles (objects.send ref).uid ref
        (router.routes.send.removeSendPublisher (objects.send ref).data.label (objects.send ref).uid)
  | .registerRecvSubscriber none => false
  | .registerRecvSubscriber (some ref) =>
      stored router.recvHandles (objects.recv ref).uid
        (router.routes.recv.addRecvSubscriber (objects.recv ref).data.label (objects.recv ref))
  | .unregisterRecvSubscriber none => false
  | .unregisterRecvSubscriber (some ref) =>
      dropped router.recvHandles (objects.recv ref).uid ref
        (router.routes.recv.removeRecvSubscriber (objects.recv ref).data.label (objects.recv ref).uid)
  | .addLocalSendSubscriber label size dst =>
      router.transports.hasSendShm dst && (router.routes.send.addLocalSendSubscriber label size dst).2
  | .addRemoteSendSubscriber label size dst =>
      router.transports.hasSocket dst && (router.routes.send.addRemoteSendSubscriber label size dst).2
  | .removeLocalSendSubscriber label dst => (router.routes.send.removeLocalSendSubscriber label dst).2
  | .removeRemoteSendSubscriber label dst =>
      (router.routes.send.removeRemoteSendSubscriber label dst).2
  | .upsertSocket _ sock => sock.isSome
  | .openSendShm id opened => (router.transports.openSendShm id opened).2

end Router

end Eroil
