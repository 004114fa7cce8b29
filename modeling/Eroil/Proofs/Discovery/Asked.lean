import Eroil.Proofs.Discovery.Network
import Eroil.Proofs.Send.Completion

/-! # Subscribers have asked

In a network in which every node started afresh a node has a subscriber for a route only if the
subscriber had the label open with the size of the route before. Nothing is assumed of the order in
which the datagrams arrive or of what the nodes do.
-/

namespace Eroil

open Lib

namespace Network

variable {books : NodeId → AddressBook} {start network : Network}

/-- Any step. -/
abbrev Any (_ : Network) (_ : Action) : Prop := True

/-- No node has done anything yet. -/
def Fresh (network : Network) : Prop :=
  network.sent = [] ∧ ∀ id, ∃ world, network.listener id = .start (.initial world)

/-- The node has had the label open with this size. -/
def Asked (books : NodeId → AddressBook) (start network : Network) (id : NodeId) (label : Label)
    (size : ℕ) : Prop :=
  ∃ before, Reaches (step books) Any start before ∧ Reaches (step books) Any before network ∧
    Node.OpenRecv (before.listener id).node label size

/-- A message lists only labels that its sender has had open. -/
def Honest (books : NodeId → AddressBook) (start network : Network) (bytes : List UInt8) : Prop :=
  ∀ label size, (BroadcastMessage.ofBytes bytes).recv.lookup label = some size →
    Asked books start network (BroadcastMessage.ofBytes bytes).id label size.toNat

theorem Asked.later {id : NodeId} {label : Label} {size : ℕ}
    (asked : Asked books start network id label size) (action : Action) :
    Asked books start (network.step books action) id label size := by
  obtain ⟨before, first, second, opened⟩ := asked
  exact ⟨before, first, .tail second trivial, opened⟩

theorem Honest.later {bytes : List UInt8} (honest : Honest books start network bytes)
    (action : Action) : Honest books start (network.step books action) bytes :=
  fun label size found => (honest label size found).later action

/-- All that is under way is honest, and so are the subscriptions. -/
structure Truthful (books : NodeId → AddressBook) (start network : Network) : Prop where
  run : Reaches (step books) Any start network
  reachable : ∀ id, Node.Reachable (books id) (network.listener id).node
  complete : ∀ bytes ∈ network.sent, bytes.length = BroadcastMessage.sizeofBroadcastMessage
  sent : ∀ bytes ∈ network.sent, Honest books start network bytes
  memory : ∀ id, Honest books start network (network.listener id).memory
  subscribed : ∀ id, (network.listener id).node.router.routes.send.Each fun label route =>
    ∀ other ∈ route.allSubscribers, Asked books start network other label route.labelSize

theorem Fresh.truthful (fresh : Fresh start) : Truthful books start start := by
  obtain ⟨silent, listeners⟩ := fresh
  refine ⟨.refl, fun id => ?_, ?_, ?_, fun id => ?_, fun id => ?_⟩
  · obtain ⟨world, initial⟩ := listeners id
    rw [initial]
    exact ⟨world, .refl⟩
  · rw [silent]
    rintro _ ⟨⟩
  · rw [silent]
    rintro _ ⟨⟩
  · obtain ⟨world, initial⟩ := listeners id
    have whole := BroadcastMessage.ofBytes_bytes {} []
    rw [List.append_nil] at whole
    rw [initial]
    intro label size found
    -- A message that was never filled in lists no valid label.
    rw [Listener.start, whole, BroadcastMessage.recv_eq_collect] at found
    rcases BroadcastMessage.collect_sound _ _ found with nothing | ⟨member, valid⟩
    · cases nothing
    · have none : label = invalidLabel := by
        simpa using congrArg LabelInfo.label (List.eq_of_mem_replicate member)
      exact absurd (none ▸ valid) (by decide)
  · obtain ⟨world, initial⟩ := listeners id
    rw [initial]
    rintro label route ⟨⟩

/-- A node has what it announces open. -/
private theorem Truthful.honest_broadcast (truthful : Truthful books start network) (id : NodeId) :
    Honest books start network
      (BroadcastMessage.ofRouter id (network.listener id).node.router).bytes := by
  have whole := BroadcastMessage.ofBytes_bytes
    (BroadcastMessage.ofRouter id (network.listener id).node.router) []
  rw [List.append_nil] at whole
  intro label size found
  rw [whole] at found ⊢
  have inv := (truthful.reachable id).recvInv
  have announced : ((Node.announced id (network.listener id).node []).lookup label).map
      UInt32.toNat = some size.toNat := by
    rw [Node.announced_eq]
    exact congrArg (Option.map UInt32.toNat) found
  obtain ⟨route, member, sized⟩ := (inv.announced_iff id []).mp announced
  have opened : Node.OpenRecv (network.listener id).node label size.toNat :=
    inv.openRecv_iff.mpr ⟨route, AList.mem_lookup_iff.mpr (List.mem_of_mem_take member), sized⟩
  exact ⟨network, truthful.run, .refl, opened⟩

theorem Truthful.asked_later (truthful : Truthful books start network) (action : Action)
    (id : NodeId) :
    (network.listener id).node.router.routes.send.Each fun label route =>
      ∀ other ∈ route.allSubscribers,
        Asked books start (network.step books action) other label route.labelSize :=
  fun label route found other member =>
    (truthful.subscribed id label route found other member).later action

/-- A round of one node: what it does to this node is enough. -/
theorem Truthful.act (truthful : Truthful books start network) {id : NodeId}
    {round : Listener.Action} {action : Action}
    (step_eq : network.step books action = network.act books id round)
    (reachable : Node.Reachable (books id) ((network.listener id).step (books id) round).node)
    (memory : Honest books start network ((network.listener id).step (books id) round).memory)
    (subscribed : ((network.listener id).step (books id) round).node.router.routes.send.Each
      fun label route => ∀ other ∈ route.allSubscribers,
        Asked books start (network.step books action) other label route.labelSize) :
    Truthful books start (network.step books action) := by
  have sent : (network.step books action).sent = network.sent := by rw [step_eq, Network.act]
  have listener (other : NodeId) : (network.step books action).listener other =
      if other = id then (network.listener id).step (books id) round
      else network.listener other := by rw [step_eq, act_listener]
  refine ⟨.tail truthful.run trivial, fun other => ?_, ?_, ?_, fun other => ?_, fun other => ?_⟩
  · rw [listener]
    split
    · next here => exact here ▸ reachable
    · exact truthful.reachable other
  · rw [sent]
    exact truthful.complete
  · rw [sent]
    exact fun bytes member => (truthful.sent bytes member).later action
  · rw [listener]
    split
    · exact memory.later action
    · exact (truthful.memory other).later action
  · rw [listener]
    split
    · exact subscribed
    · exact truthful.asked_later action other

/-- A round of a receiving thread. -/
theorem Truthful.receive (truthful : Truthful books start network) {id : NodeId}
    {result : BroadcastResult} {action : Action}
    (step_eq : network.step books action = network.act books id (.receive result))
    (honest : Honest books start network (Listener.recvInto (network.listener id).memory result)) :
    Truthful books start (network.step books action) := by
  refine truthful.act step_eq ?_ honest ?_
  · rw [Listener.step_receive_node]
    exact (truthful.reachable id).processBroadcast _ _
  · rw [Listener.step_receive_node]
    exact Node.each_of_processBroadcast (truthful.asked_later action id) (honest.later action)

/-- Every step keeps the network truthful. -/
theorem Truthful.step (truthful : Truthful books start network) (action : Action) :
    Truthful books start (network.step books action) := by
  cases action with
  | broadcast id =>
    refine ⟨.tail truthful.run trivial, truthful.reachable, ?_, ?_,
      fun other => (truthful.memory other).later _, truthful.asked_later (.broadcast id)⟩
    · intro bytes member
      rcases List.mem_append.mp member with old | new
      · exact truthful.complete bytes old
      · rw [List.mem_singleton.mp new, BroadcastMessage.length_bytes]
    · intro bytes member
      rcases List.mem_append.mp member with old | new
      · exact (truthful.sent bytes old).later _
      · rw [List.mem_singleton.mp new]
        exact (truthful.honest_broadcast id).later _
  | receive id index =>
    cases found : network.sent[index]? with
    | none =>
      have same : network.step books (.receive id index) = network := by
        simp only [Network.step, found]
      rw [same]
      exact truthful
    | some bytes =>
      have member := List.mem_of_getElem? found
      refine truthful.receive (by simp only [Network.step, found]; rfl) ?_
      have message := message_datagram (network.listener id) (truthful.complete bytes member)
      rw [Honest, message]
      exact truthful.sent bytes member
  | receiveFailed id => exact truthful.receive rfl (truthful.memory id)
  | call id action outside =>
    refine truthful.act rfl ((truthful.reachable id).step action) (truthful.memory id) ?_
    refine Node.each_of_outside _ action outside (truthful.asked_later _ id) ?_ fun _ _ _ kept => kept
    rintro label size other ⟨⟩

/-- In a network of nodes that started afresh, with datagrams lost, repeated and reordered and the
nodes doing what they like: a node that is a subscriber of a route has had the label of the route
open with its size. -/
theorem subscribers_asked (fresh : Fresh start) (run : Reaches (step books) Any start network)
    {sender receiver : NodeId} {label : Label} {route : SendRoute}
    (found : (network.listener sender).node.routeOf label = some route)
    (subscribed : receiver ∈ route.allSubscribers) :
    ∃ before, Reaches (step books) Any start before ∧ Reaches (step books) Any before network ∧
      Node.OpenRecv (before.listener receiver).node label route.labelSize := by
  have truthful := run.invariant (Truthful books start) fresh.truthful
    fun _ action truthful _ => truthful.step action
  exact truthful.subscribed sender label route found receiver subscribed

/-- A job is addressed to the subscribers of its route, through the transport of each and to none of
them twice, and all of them have had its label open with the size of its data. -/
theorem addressees_asked (fresh : Fresh start) (run : Reaches (step books) Any start network)
    {sender myId : NodeId} {label : Label} {uid : HandleUid} {sendBuf : SendBuf} {seq : ℕ}
    {job : SendJob}
    (built : (network.listener sender).node.router.buildSendJob myId label uid sendBuf seq =
        .ok job) :
    ∃ route, (network.listener sender).node.routeOf label = some route ∧
      job.localRecvrs =
        route.localSubscribers.map (network.listener sender).node.router.transports.getSendShm ∧
      job.remoteRecvrs =
        route.remoteSubscribers.map (network.listener sender).node.router.transports.getSocket ∧
      route.allSubscribers.Nodup ∧
      (∀ id ∈ route.localSubscribers, (books sender).transport id = some .shm) ∧
      (∀ id ∈ route.remoteSubscribers, (books sender).transport id = some .socket) ∧
      ∀ id ∈ route.allSubscribers, ∃ before, Reaches (step books) Any start before ∧
        Reaches (step books) Any before network ∧
        Node.OpenRecv (before.listener id).node label sendBuf.dataSize := by
  have truthful := run.invariant (Truthful books start) fresh.truthful
    fun _ action truthful _ => truthful.step action
  obtain ⟨route, publisher, found, size, -, -, rfl⟩ := JobRun.buildSendJob_ok.mp built
  have reachable := truthful.reachable sender
  have homed : Node.Homed (books sender) route := reachable.sendInv.homed label route found
  have fits : route.labelSize = sendBuf.dataSize := by
    rw [SendBuf.totalSize] at size
    omega
  refine ⟨route, found, rfl, rfl, (reachable.sendersDistinct label route found).nodup, homed .shm,
    homed .socket, ?_⟩
  intro id member
  exact fits ▸ truthful.subscribed sender label route found id member

/-! ## Two nodes -/

/-- Nobody has done anything. -/
def quiet : Network := ⟨fun _ => .start (.initial Node.zeroed), []⟩

/-- Node 1 opens label 5 for sending, node 2 for receiving. -/
def pairCalls : List Action :=
  [.call 1 (.openSend ⟨5, some 0, 4, false, none, none, 0, 0⟩) rfl,
    .call 1 (.openSendShm 2 (some 0)) rfl,
    .call 2 (.openRecv { Node.wordRequest with label := 5 }) rfl]

private theorem foldl_pairCalls :
    pairCalls.foldl (step fun _ => Node.neighbourBook) quiet = pairNetwork := by
  simp only [pairCalls, List.foldl_cons, List.foldl_nil, step, act, quiet, pairNetwork, mk.injEq,
    and_true]
  funext id
  by_cases one : id = 1
  · subst one
    rfl
  · by_cases two : id = 2
    · subst two
      rfl
    · simp only [Function.update_of_ne one, Function.update_of_ne two, if_neg one, if_neg two]

theorem pairHeard_subscribed : ∃ route, (pairHeard.listener 1).node.routeOf 5 = some route ∧
    2 ∈ route.allSubscribers ∧ route.labelSize = 4 := by
  obtain ⟨route, found, size, _⟩ := pairHeard_route
  have settling : Settling (fun _ => Node.neighbourBook) 1 2 pairNetwork pairHeard :=
    ((Settling.initial pairNetwork_ready).step (.broadcast 2) trivial).step (.receive 1 0) trivial
  have opened : Node.OpenRecv (pairHeard.listener 2).node 5 route.labelSize := by
    rw [size]
    exact ⟨1, 0, _, rfl, rfl, rfl, rfl⟩
  have subscribed := (settling.agrees pairHeard_heard 5 route found).mpr
    ((settling.ready.wants_iff 5 route.labelSize).mpr opened)
  obtain ⟨_, same, member⟩ := Router.isSendSubscriber_iff.mp subscribed
  cases (show _ = some route from found).symm.trans same
  exact ⟨route, found, member, size⟩

theorem quiet_fresh : Fresh quiet := ⟨rfl, fun _ => ⟨Node.zeroed, rfl⟩⟩

theorem pairHeard_run : Reaches (step fun _ => Node.neighbourBook) Any quiet pairHeard := by
  have first : Reaches (step fun _ => Node.neighbourBook) Any quiet pairNetwork :=
    foldl_pairCalls ▸ .foldl pairCalls (fun _ _ _ => trivial) quiet
  exact .tail (.tail first trivial) trivial

theorem subscribers_asked_pair : ∃ before,
    Reaches (step fun _ => Node.neighbourBook) Any quiet before ∧
      Reaches (step fun _ => Node.neighbourBook) Any before pairHeard ∧
      Node.OpenRecv (before.listener 2).node 5 4 := by
  obtain ⟨route, found, subscribed, size⟩ := pairHeard_subscribed
  exact size ▸ subscribers_asked quiet_fresh pairHeard_run found subscribed

/-- The sender can send its label. -/
private theorem pairHeard_sends :
    ∃ job, (pairHeard.listener 1).node.router.buildSendJob 1 5 1 JobRun.pairBuf 0 = .ok job := by
  obtain ⟨route, found, size, publishers⟩ := pairHeard_route
  have registered : (pairHeard.listener 1).node.router.sendHandles.lookup 1 = some 0 := by
    obtain ⟨source, recv, node⟩ := pairHeard_node
    have kept := Node.parts_of_surroundings
      (Node.processBroadcast_surroundings Node.neighbourBook pairSender source recv)
    rw [node, kept.2.2.2.1]
    rfl
  have sized : route.labelSize + sizeofLabelHeader = JobRun.pairBuf.totalSize := by
    rw [size]
    rfl
  exact ⟨_, JobRun.buildSendJob_ok.mpr
    ⟨route, 0, found, sized, registered, publishers ▸ List.mem_cons_self, rfl⟩⟩

theorem addressees_asked_pair : ∃ job,
    (pairHeard.listener 1).node.router.buildSendJob 1 5 1 JobRun.pairBuf 0 = .ok job ∧
      ∃ before, Reaches (step fun _ => Node.neighbourBook) Any quiet before ∧
        Reaches (step fun _ => Node.neighbourBook) Any before pairHeard ∧
        Node.OpenRecv (before.listener 2).node 5 4 := by
  obtain ⟨job, built⟩ := pairHeard_sends
  obtain ⟨route, found, _, _, _, _, _, asked⟩ := addressees_asked quiet_fresh pairHeard_run built
  obtain ⟨other, same, subscribed, _⟩ := pairHeard_subscribed
  have equal : other = route := Option.some.inj (same.symm.trans found)
  exact ⟨job, built, asked 2 (equal ▸ subscribed)⟩

end Network

end Eroil
