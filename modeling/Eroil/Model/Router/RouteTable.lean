import Mathlib.Data.List.AList
import Eroil.Model.Router.RecvHandle
import Eroil.Model.Router.SendHandle

/-! # Route tables

`router/route_table.h` and `router/route_table.cpp`. The send and the receive half of the table
keep handles in routes the same way: a route is created by its first handle, fixes the label size
of all later ones and is erased with its last handle, and each half counts these two events in a
generation number. That part is written once, over any kind of route; send routes add the nodes
that receive the label. The order in which the source iterates over its unordered maps is not
specified; here it is the order of the entries.
-/

namespace Eroil

structure SendRoute where
  label : Label
  labelSize : ℕ
  publishers : List HandleUid
  remoteSubscribers : List NodeId
  localSubscribers : List NodeId
deriving DecidableEq

structure RecvRoute where
  label : Label
  labelSize : ℕ
  subscribers : List HandleUid
deriving DecidableEq

/-- A route that lists the handles using it. -/
class HandleRoute (ρ : Type) where
  create : Label → ℕ → ρ
  labelOf : ρ → Label
  labelSize : ρ → ℕ
  members : ρ → List HandleUid
  setMembers : ρ → List HandleUid → ρ
  labelOf_create : ∀ label size, labelOf (create label size) = label
  labelSize_create : ∀ label size, labelSize (create label size) = size
  members_create : ∀ label size, members (create label size) = []
  labelOf_setMembers : ∀ route uids, labelOf (setMembers route uids) = labelOf route
  labelSize_setMembers : ∀ route uids, labelSize (setMembers route uids) = labelSize route
  members_setMembers : ∀ route uids, members (setMembers route uids) = uids

attribute [simp] HandleRoute.labelOf_create HandleRoute.labelSize_create HandleRoute.members_create
  HandleRoute.labelOf_setMembers HandleRoute.labelSize_setMembers HandleRoute.members_setMembers

instance : HandleRoute SendRoute where
  create label size := ⟨label, size, [], [], []⟩
  labelOf := SendRoute.label
  labelSize := SendRoute.labelSize
  members := SendRoute.publishers
  setMembers route uids := { route with publishers := uids }
  labelOf_create _ _ := rfl
  labelSize_create _ _ := rfl
  members_create _ _ := rfl
  labelOf_setMembers _ _ := rfl
  labelSize_setMembers _ _ := rfl
  members_setMembers _ _ := rfl

instance : HandleRoute RecvRoute where
  create label size := ⟨label, size, []⟩
  labelOf := RecvRoute.label
  labelSize := RecvRoute.labelSize
  members := RecvRoute.subscribers
  setMembers route uids := { route with subscribers := uids }
  labelOf_create _ _ := rfl
  labelSize_create _ _ := rfl
  members_create _ _ := rfl
  labelOf_setMembers _ _ := rfl
  labelSize_setMembers _ _ := rfl
  members_setMembers _ _ := rfl

/-- One half of the table with its generation number. -/
structure Routes (ρ : Type) where
  table : AList (fun _ : Label => ρ)
  gen : ℕ

namespace Routes

open HandleRoute

variable {ρ : Type} [HandleRoute ρ]

def empty : Routes ρ := ⟨∅, 1⟩

def has (routes : Routes ρ) (label : Label) : Bool := (routes.table.lookup label).isSome

/-- `create_send_route` or `create_recv_route`, with the increment of the generation. -/
def createRoute (routes : Routes ρ) (label : Label) (size : ℕ) : Routes ρ :=
  ⟨routes.table.insert label (create label size), wrap64 (routes.gen + 1)⟩

/-- List a handle in the route of its label. -/
def addMember (routes : Routes ρ) (label : Label) (size : ℕ) (uid : HandleUid) : Routes ρ × Bool :=
  let routes := if routes.has label then routes else routes.createRoute label size
  match routes.table.lookup label with
  | none => (routes, false)
  | some route =>
      if labelSize route ≠ size then (routes, false)
      else if uid ∈ members route then (routes, false)
      else
        ({ routes with
            table := routes.table.insert label (setMembers route (members route ++ [uid])) }, true)

/-- Strike a handle from the route of its label. -/
def removeMember (routes : Routes ρ) (label : Label) (uid : HandleUid) : Routes ρ × Bool :=
  match routes.table.lookup label with
  | none => (routes, false)
  | some route =>
      if uid ∉ members route then (routes, false)
      else if (members route).erase uid = [] then
        (⟨routes.table.erase label, wrap64 (routes.gen + 1)⟩, true)
      else
        ({ routes with
            table := routes.table.insert label (setMembers route ((members route).erase uid)) },
          true)

def addSendPublisher (routes : Routes SendRoute) (label : Label) (handle : SendHandle) :
    Routes SendRoute × Bool := routes.addMember label handle.data.bufSize handle.uid

def removeSendPublisher (routes : Routes SendRoute) (label : Label) (uid : HandleUid) :
    Routes SendRoute × Bool := routes.removeMember label uid

def addRecvSubscriber (routes : Routes RecvRoute) (label : Label) (handle : RecvHandle) :
    Routes RecvRoute × Bool := routes.addMember label handle.data.bufSize handle.uid

def removeRecvSubscriber (routes : Routes RecvRoute) (label : Label) (uid : HandleUid) :
    Routes RecvRoute × Bool := routes.removeMember label uid

end Routes

/-- How a node receives a label: through its shared memory block or through a socket. -/
inductive Transport where
  | shm
  | socket
deriving DecidableEq

namespace SendRoute

def subscribers (route : SendRoute) : Transport → List NodeId
  | .shm => route.localSubscribers
  | .socket => route.remoteSubscribers

def setSubscribers (route : SendRoute) (kind : Transport) (nodes : List NodeId) : SendRoute :=
  match kind with
  | .shm => { route with localSubscribers := nodes }
  | .socket => { route with remoteSubscribers := nodes }

end SendRoute

namespace Routes

/-- The node receives the label through the given transport. -/
def isSendSubscriber (routes : Routes SendRoute) (kind : Transport) (label : Label) (dst : NodeId) :
    Bool :=
  match routes.table.lookup label with
  | none => false
  | some route => dst ∈ route.subscribers kind

def addSendSubscriber (routes : Routes SendRoute) (kind : Transport) (label : Label) (size : ℕ)
    (dst : NodeId) : Routes SendRoute × Bool :=
  match routes.table.lookup label with
  | none => (routes, false)
  | some route =>
      if route.labelSize ≠ size then (routes, false)
      else if dst ∈ route.subscribers kind then (routes, false)
      else
        ({ routes with
            table := routes.table.insert label
              (route.setSubscribers kind (route.subscribers kind ++ [dst])) }, true)

def removeSendSubscriber (routes : Routes SendRoute) (kind : Transport) (label : Label)
    (dst : NodeId) : Routes SendRoute × Bool :=
  match routes.table.lookup label with
  | none => (routes, false)
  | some route =>
      if dst ∉ route.subscribers kind then (routes, false)
      else
        ({ routes with
            table := routes.table.insert label
              (route.setSubscribers kind ((route.subscribers kind).erase dst)) }, true)

def isLocalSendSubscriber (routes : Routes SendRoute) := routes.isSendSubscriber .shm

def isRemoteSendSubscriber (routes : Routes SendRoute) := routes.isSendSubscriber .socket

def addLocalSendSubscriber (routes : Routes SendRoute) := routes.addSendSubscriber .shm

def addRemoteSendSubscriber (routes : Routes SendRoute) := routes.addSendSubscriber .socket

def removeLocalSendSubscriber (routes : Routes SendRoute) := routes.removeSendSubscriber .shm

def removeRemoteSendSubscriber (routes : Routes SendRoute) := routes.removeSendSubscriber .socket

end Routes

/-- The table of the source: both halves. -/
structure RouteTable where
  send : Routes SendRoute
  recv : Routes RecvRoute

end Eroil
