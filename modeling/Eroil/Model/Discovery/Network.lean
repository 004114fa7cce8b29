import Eroil.Model.Discovery.Broadcast

/-! # A network of nodes that broadcast

`send_broadcast` and `recv_broadcast` of `manager/manager.cpp` on all nodes at once. The threads of
the nodes take their rounds in any order, and multicast loses, repeats and reorders datagrams as it
likes: a receive yields any datagram that was ever sent, or it fails. Each node has its own address
book, since the kind of a peer depends on the host.
-/

namespace Eroil

/-- The listening threads of all nodes, and the datagrams that were sent. -/
structure Network where
  listener : NodeId → Listener
  sent : List (List UInt8)

namespace Network

inductive Action where
  | broadcast (id : NodeId)
  | receive (id : NodeId) (index : ℕ)
  | receiveFailed (id : NodeId)
  | call (id : NodeId) (action : Node.Action) (outside : action.outside = true)

/-- One round of a node's own. -/
def act (books : NodeId → AddressBook) (network : Network) (id : NodeId)
    (action : Listener.Action) : Network :=
  { network with
    listener := Function.update network.listener id
      ((network.listener id).step (books id) action) }

/-- One round of `Manager::send_broadcast`. -/
def sendBroadcast (network : Network) (id : NodeId) : Network :=
  { network with
    sent := network.sent ++ [(BroadcastMessage.ofRouter id (network.listener id).node.router).bytes] }

def step (books : NodeId → AddressBook) (network : Network) : Action → Network
  | .broadcast id => network.sendBroadcast id
  | .receive id index =>
      match network.sent[index]? with
      | none => network
      | some bytes => network.act books id (.receive (.datagram bytes))
  | .receiveFailed id => network.act books id (.receive .failed)
  | .call id action outside => network.act books id (.call action outside)

end Network

end Eroil
