import Eroil.Lib.ByteFields
import Eroil.Model.Node

/-! # Discovery by broadcast

`types/label_io_types.h`, the label lists of `router/route_table.cpp`, `recv_broadcast` of
`socket/linux/linux_udp_multicast.cpp` and the broadcast threads of `manager/manager.cpp`. A node
announces the labels it sends and receives in one datagram, which is the memory of one structure;
the other nodes subscribe it to the labels it receives. Padding bytes are zero.
-/

namespace Eroil

open Lib HandleRoute

/-- `io::LabelInfo`. -/
structure LabelInfo where
  label : Label := invalidLabel
  size : UInt32 := 0
deriving DecidableEq, Inhabited

/-- `io::LabelsSnapshot`. -/
structure LabelsSnapshot where
  gen : UInt64 := 0
  labels : Vector LabelInfo maxLabels := .replicate maxLabels {}

/-- `io::BroadcastMessage`. -/
structure BroadcastMessage where
  id : NodeId := invalidNode
  sendLabels : LabelsSnapshot := {}
  recvLabels : LabelsSnapshot := {}

namespace Routes

variable {ρ : Type} [HandleRoute ρ]

/-- `get_send_labels` or `get_recv_labels`: the array has room for the first routes only. -/
def getLabels (routes : Routes ρ) : Vector LabelInfo maxLabels :=
  .ofFn fun index =>
    match routes.table.entries[index]? with
    | some entry => ⟨entry.1, UInt32.ofNat (labelSize entry.2)⟩
    | none => {}

/-- `get_send_labels_sorted` or `get_recv_labels_sorted`. -/
def getLabelsSorted (routes : Routes ρ) : Vector LabelInfo maxLabels :=
  ⟨(routes.getLabels.toList.mergeSort fun a b => a.label ≤ b.label).toArray, by simp⟩

/-- `get_send_labels_snapshot` or `get_recv_labels_snapshot`. -/
def getLabelsSnapshot (routes : Routes ρ) : LabelsSnapshot :=
  ⟨UInt64.ofNat routes.gen, routes.getLabelsSorted⟩

end Routes

namespace BroadcastMessage

def sizeofLabelInfo : ℕ := 8
def sizeofLabelsSnapshot : ℕ := 8 + sizeofLabelInfo * maxLabels
def sizeofBroadcastMessage : ℕ := 8 + sizeofLabelsSnapshot + sizeofLabelsSnapshot

def labelBytes (info : LabelInfo) : List UInt8 :=
  ByteMemory.encode 4 info.label.toUInt32.toNat ++ ByteMemory.encode 4 info.size.toNat

def snapshotBytes (snapshot : LabelsSnapshot) : List UInt8 :=
  ByteMemory.encode 8 snapshot.gen.toNat ++ snapshot.labels.toList.flatMap labelBytes

/-- The memory of a message. -/
def bytes (msg : BroadcastMessage) : List UInt8 :=
  ByteMemory.encode 4 msg.id.toUInt32.toNat ++ [0, 0, 0, 0] ++ snapshotBytes msg.sendLabels ++
    snapshotBytes msg.recvLabels

def labelAt (memory : List UInt8) (offset : ℕ) : LabelInfo where
  label := (UInt32.ofNat (field memory offset 4)).toInt32
  size := UInt32.ofNat (field memory (offset + 4) 4)

def snapshotAt (memory : List UInt8) (offset : ℕ) : LabelsSnapshot where
  gen := UInt64.ofNat (field memory offset 8)
  labels := .ofFn fun index => labelAt memory (offset + 8 + sizeofLabelInfo * index)

/-- The message that a piece of memory holds. -/
def ofBytes (memory : List UInt8) : BroadcastMessage where
  id := (UInt32.ofNat (field memory 0 4)).toInt32
  sendLabels := snapshotAt memory 8
  recvLabels := snapshotAt memory (8 + sizeofLabelsSnapshot)

/-- The message that `send_broadcast` fills in and sends. -/
def ofRouter (myId : NodeId) (router : Router) : BroadcastMessage where
  id := myId
  sendLabels := router.routes.send.getLabelsSnapshot
  recvLabels := router.routes.recv.getLabelsSnapshot

/-- The map of `recv_broadcast`; `emplace` keeps the first of two entries. -/
def recv (msg : BroadcastMessage) : AList (fun _ : Label => UInt32) :=
  msg.recvLabels.labels.toList.foldl (fun recv info =>
    if info.label > invalidLabel then
      if info.label ∈ recv then recv else recv.insert info.label info.size
    else recv) ∅

end BroadcastMessage

namespace Node

/-- `Manager::add_subscriber`; the map is iterated in the order of its entries. -/
def addSubscribers (book : AddressBook) (node : Node) (source : NodeId)
    (recv : AList (fun _ : Label => UInt32)) : Node :=
  recv.entries.foldl (fun node entry => node.addSubscriber book source entry.1 entry.2.toNat) node

/-- The loop body of `Manager::remove_subscriber`: a label that is still wanted stays. -/
def removeUnlisted (book : AddressBook) (source : NodeId) (recv : AList (fun _ : Label => UInt32))
    (node : Node) (info : LabelInfo) : Node :=
  if info.label ∈ recv then node else node.removeSubscriber book source info.label

/-- `Manager::remove_subscriber`. -/
def removeSubscribers (book : AddressBook) (node : Node) (source : NodeId)
    (recv : AList (fun _ : Label => UInt32)) : Node :=
  node.router.routes.send.getLabels.toList.foldl (removeUnlisted book source recv) node

/-- What `recv_broadcast` does with a message. -/
def processBroadcast (book : AddressBook) (node : Node) (source : NodeId)
    (recv : AList (fun _ : Label => UInt32)) : Node :=
  (node.addSubscribers book source recv).removeSubscribers book source recv

end Node

/-- What the multicast receive yields: an error, or a datagram of which the kernel copies what
fits. -/
inductive BroadcastResult where
  | failed
  | datagram (bytes : List UInt8)

/-- The state of the receiving thread: its node and its message, which is never cleared; `heard` is
a record only. -/
structure Listener where
  node : Node
  memory : List UInt8
  heard : List BroadcastResult

/-- The calls of other threads; subscriptions are the business of the receiving thread. -/
def Node.Action.outside : Node.Action → Bool
  | .addSubscriber _ _ _ => false
  | .removeSubscriber _ _ => false
  | _ => true

namespace Listener

/-- `UDPMulticastSocket::recv_broadcast` as it leaves the buffer. -/
def recvInto (memory : List UInt8) : BroadcastResult → List UInt8
  | .failed => memory
  | .datagram bytes =>
      let copied := bytes.take BroadcastMessage.sizeofBroadcastMessage
      copied ++ memory.drop copied.length

/-- One round of `Manager::recv_broadcast`, which does not look at the result of the receive. -/
def recvBroadcast (book : AddressBook) (listener : Listener) (result : BroadcastResult) : Listener :=
  let memory := recvInto listener.memory result
  let msg := BroadcastMessage.ofBytes memory
  ⟨listener.node.processBroadcast book msg.id msg.recv, memory, listener.heard ++ [result]⟩

/-- The thread starts with an empty message. -/
def start (node : Node) : Listener := ⟨node, BroadcastMessage.bytes {}, []⟩

inductive Action where
  | receive (result : BroadcastResult)
  | call (action : Node.Action) (outside : action.outside = true)

def step (book : AddressBook) (listener : Listener) : Action → Listener
  | .receive result => listener.recvBroadcast book result
  | .call action _ => { listener with node := listener.node.step book action }

end Listener

end Eroil
