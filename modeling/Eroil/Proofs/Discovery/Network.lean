import Eroil.Model.Discovery.Network
import Eroil.Proofs.Discovery.Converge
import Eroil.Proofs.Discovery.Receive
import Eroil.Proofs.Discovery.Snapshot
import Eroil.Proofs.Router.Footprint

/-! # Discovery in a whole network

Whether a node has another one as subscriber depends on the messages of that one alone. Once a node
has heard a message that says what the other one still wants, it stays in agreement with it,
whatever order, repetition or loss of datagrams comes after.
-/

namespace Eroil

open Lib

namespace Node

variable {book : AddressBook} {node : Node} {source : NodeId}
  {recv : AList (fun _ : Label => UInt32)}

/-- The node is subscribed to no route whose label it wants with another size. -/
def Fits (node : Node) (source : NodeId) (recv : AList (fun _ : Label => UInt32)) : Prop :=
  ∀ label route size, node.routeOf label = some route →
    node.router.isSendSubscriber label source = true → recv.lookup label = some size →
      size.toNat = route.labelSize

/-- The node is subscribed to exactly the routes whose label it wants with their size. -/
def Matches (node : Node) (source : NodeId) (recv : AList (fun _ : Label => UInt32)) : Prop :=
  ∀ label route, node.routeOf label = some route →
    (node.router.isSendSubscriber label source = true ↔
      ∃ size, recv.lookup label = some size ∧ size.toNat = route.labelSize)

theorem Matches.fits (agrees : Matches node source recv) : Fits node source recv := by
  intro label route size found subscribed wanted
  obtain ⟨size', wanted', same⟩ := (agrees label route found).mp subscribed
  cases wanted.symm.trans wanted'
  exact same

/-- Its own message brings a node that fits into agreement. -/
theorem Fits.processBroadcast (fits : Fits node source recv) (reachable : Reachable book node)
    (room : node.router.routes.send.table.entries.length ≤ maxLabels)
    (reached : Reached book node source) :
    Matches (node.processBroadcast book source recv) source recv := by
  intro label route there
  rw [reachable.processBroadcast_route room source recv label] at there
  obtain ⟨old, found, rfl⟩ := Option.map_eq_some_iff.mp there
  rw [reachable.subscribed_after room reached recv found,
    (SendRoute.SameHandles.settle book node.router.transports source _ old).labelSize]
  constructor
  · rintro ⟨size, wanted, subscribed | same⟩
    · exact ⟨size, wanted, fits label old size found subscribed wanted⟩
    · exact ⟨size, wanted, same⟩
  · rintro ⟨size, wanted, same⟩
    exact ⟨size, wanted, .inr same⟩

/-- The message of another node does not concern this one. -/
theorem Reachable.subscribed_other (reachable : Reachable book node)
    (room : node.router.routes.send.table.entries.length ≤ maxLabels) {other : NodeId}
    (different : source ≠ other) (label : Label) :
    (node.processBroadcast book other recv).router.isSendSubscriber label source =
      node.router.isSendSubscriber label source := by
  have after := reachable.processBroadcast_route room other recv label
  have lists : ∀ route : SendRoute, source ∈
      (route.settle book node.router.transports other (recv.lookup label)).allSubscribers ↔
        source ∈ route.allSubscribers := by
    intro route
    have each (kind : Transport) : source ∈
        (route.settle book node.router.transports other (recv.lookup label)).subscribers kind ↔
          source ∈ route.subscribers kind := by
      have filtered := SendRoute.subscribers_settle_filter book node.router.transports other
        (recv.lookup label) route kind
      have member := congrArg (source ∈ ·) filtered
      simpa [List.mem_filter, different] using member
    rw [SendRoute.mem_allSubscribers, SendRoute.mem_allSubscribers]
    exact or_congr (each .shm) (each .socket)
  rw [Bool.eq_iff_iff, Router.isSendSubscriber_iff, Router.isSendSubscriber_iff]
  constructor
  · rintro ⟨route, found, member⟩
    have there : (node.processBroadcast book other recv).routeOf label = some route := found
    rw [after] at there
    obtain ⟨old, earlier, rfl⟩ := Option.map_eq_some_iff.mp there
    exact ⟨old, earlier, (lists old).mp member⟩
  · rintro ⟨route, found, member⟩
    have there : node.routeOf label = some route := found
    rw [there, Option.map_some] at after
    exact ⟨_, after, (lists route).mpr member⟩

/-- A message keeps the sizes of the routes. -/
theorem Reachable.route_before (reachable : Reachable book node)
    (room : node.router.routes.send.table.entries.length ≤ maxLabels) (other : NodeId)
    {label : Label} {route : SendRoute}
    (found : (node.processBroadcast book other recv).routeOf label = some route) :
    ∃ old, node.routeOf label = some old ∧ old.labelSize = route.labelSize := by
  rw [reachable.processBroadcast_route room other recv label] at found
  obtain ⟨old, earlier, rfl⟩ := Option.map_eq_some_iff.mp found
  exact ⟨old, earlier,
    ((SendRoute.SameHandles.settle book node.router.transports other _ old).labelSize).symm⟩

theorem Fits.other (fits : Fits node source recv) (reachable : Reachable book node)
    (room : node.router.routes.send.table.entries.length ≤ maxLabels) {other : NodeId}
    (different : source ≠ other) (recv' : AList (fun _ : Label => UInt32)) :
    Fits (node.processBroadcast book other recv') source recv := by
  intro label route size found subscribed wanted
  obtain ⟨old, earlier, same⟩ := reachable.route_before room other found
  rw [reachable.subscribed_other room different] at subscribed
  exact (fits label old size earlier subscribed wanted).trans same

theorem Matches.other (agrees : Matches node source recv) (reachable : Reachable book node)
    (room : node.router.routes.send.table.entries.length ≤ maxLabels) {other : NodeId}
    (different : source ≠ other) (recv' : AList (fun _ : Label => UInt32)) :
    Matches (node.processBroadcast book other recv') source recv := by
  intro label route found
  obtain ⟨old, earlier, same⟩ := reachable.route_before room other found
  rw [reachable.subscribed_other room different, agrees label old earlier, same]

/-- What a message does depends on the sizes that it gives for each label. -/
theorem Matches.congr {recv' : AList (fun _ : Label => UInt32)}
    (agrees : Matches node source recv) (same : ∀ label, recv.lookup label = recv'.lookup label) :
    Matches node source recv' := by
  intro label route found
  rw [agrees label route found, same]

theorem Fits.congr {recv' : AList (fun _ : Label => UInt32)}
    (fits : Fits node source recv) (same : ∀ label, recv.lookup label = recv'.lookup label) :
    Fits node source recv' := by
  intro label route size found subscribed wanted
  exact fits label route size found subscribed ((same label).trans wanted)

/-- A message that does not lie about the source keeps the node fitting, and it brings or keeps the
node in agreement if it is from the source or the node was in agreement before. -/
theorem Fits.after (fits : Fits node source recv) (reachable : Reachable book node)
    (room : node.router.routes.send.table.entries.length ≤ maxLabels)
    (reached : Reached book node source) (id : NodeId) (recv' : AList (fun _ : Label => UInt32))
    (truth : id = source → ∀ label, recv'.lookup label = recv.lookup label) :
    Fits (node.processBroadcast book id recv') source recv ∧
      (id = source ∨ Matches node source recv →
        Matches (node.processBroadcast book id recv') source recv) := by
  by_cases own : id = source
  · subst own
    have same := truth rfl
    have agrees := ((fits.congr fun label => (same label).symm).processBroadcast reachable room
      reached).congr same
    exact ⟨agrees.fits, fun _ => agrees⟩
  · refine ⟨fits.other reachable room (Ne.symm own) recv', fun known => ?_⟩
    exact (known.resolve_left own).other reachable room (Ne.symm own) recv'

theorem subscribed_of_send {other : Node}
    (same : other.router.routes.send = node.router.routes.send) (label : Label) :
    other.router.isSendSubscriber label source = node.router.isSendSubscriber label source := by
  rw [Bool.eq_iff_iff, Router.isSendSubscriber_iff, Router.isSendSubscriber_iff, same]

theorem Fits.of_send {other : Node} (fits : Fits node source recv)
    (same : other.router.routes.send = node.router.routes.send) : Fits other source recv := by
  intro label route size found subscribed wanted
  rw [routeOf, same] at found
  rw [subscribed_of_send same] at subscribed
  exact fits label route size found subscribed wanted

theorem Matches.of_send {other : Node} (agrees : Matches node source recv)
    (same : other.router.routes.send = node.router.routes.send) : Matches other source recv := by
  intro label route found
  rw [routeOf, same] at found
  rw [subscribed_of_send same]
  exact agrees label route found

theorem Reached.processBroadcast (reached : Reached book node source) (id : NodeId)
    (recv' : AList (fun _ : Label => UInt32)) :
    Reached book (node.processBroadcast book id recv') source := by
  rw [Reached, processBroadcast_transports]
  exact reached

end Node

namespace Network

variable {books : NodeId → AddressBook} {network : Network} {sender receiver : NodeId}

/-- The receive labels that a node would announce now. -/
def wants (network : Network) (id : NodeId) : AList (fun _ : Label => UInt32) :=
  (BroadcastMessage.ofRouter id (network.listener id).node.router).recv

/-- A message of this node says what the node wants now. -/
def Tells (network : Network) (receiver : NodeId) (bytes : List UInt8) : Prop :=
  (BroadcastMessage.ofBytes bytes).id = receiver → ∀ label,
    (BroadcastMessage.ofBytes bytes).recv.lookup label = (network.wants receiver).lookup label

/-- The receiver does not change its receive labels, and the sender neither its send routes nor its
transports. -/
def Calm (books : NodeId → AddressBook) (sender receiver : NodeId) (network : Network) :
    Action → Prop
  | .call id action _ =>
      let before := (network.listener id).node
      let after := before.step (books id) action
      (id = receiver → after.router.routes.recv = before.router.routes.recv) ∧
        (id = sender → after.router.routes.send = before.router.routes.send ∧
          after.router.transports = before.router.transports)
  | _ => True

/-- The sender has heard a message of the receiver since the start. -/
def Heard (start network : Network) (sender receiver : NodeId) : Prop :=
  ∃ bytes, .datagram bytes ∈ (network.listener sender).heard.drop
      (start.listener sender).heard.length ∧ (BroadcastMessage.ofBytes bytes).id = receiver

/-- No outdated message of the receiver is under way or in the sender's buffer, datagrams are
complete, the labels of both fit in a message, and the sender can reach the receiver and is not
subscribed with another size. -/
structure Ready (books : NodeId → AddressBook) (sender receiver : NodeId) (network : Network) :
    Prop where
  reachable : ∀ id, Node.Reachable (books id) (network.listener id).node
  complete : ∀ bytes ∈ network.sent, bytes.length = BroadcastMessage.sizeofBroadcastMessage
  sent : ∀ bytes ∈ network.sent, network.Tells receiver bytes
  buffer : network.Tells receiver (network.listener sender).memory
  few : (network.listener receiver).node.router.routes.recv.table.entries.length ≤ maxLabels
  room : (network.listener sender).node.router.routes.send.table.entries.length ≤ maxLabels
  reached : Node.Reached (books sender) (network.listener sender).node receiver
  fits : Node.Fits (network.listener sender).node receiver (network.wants receiver)

/-- What holds after the start: the sender agrees with the receiver as soon as it has heard it. -/
structure Settling (books : NodeId → AddressBook) (sender receiver : NodeId)
    (start network : Network) : Prop where
  ready : Ready books sender receiver network
  record : (start.listener sender).heard.length ≤ (network.listener sender).heard.length
  agrees : Heard start network sender receiver →
    Node.Matches (network.listener sender).node receiver (network.wants receiver)

theorem act_listener (books : NodeId → AddressBook) (network : Network) (id other : NodeId)
    (action : Listener.Action) : (network.act books id action).listener other =
      if other = id then (network.listener id).step (books id) action
      else network.listener other := by
  rw [act]
  exact Function.update_apply ..

theorem wants_eq {later : Network} {id : NodeId}
    (same : (later.listener id).node.router.routes.recv =
      (network.listener id).node.router.routes.recv) : later.wants id = network.wants id := by
  simp only [wants, BroadcastMessage.recv, BroadcastMessage.ofRouter, same]

/-- A message that a node sends is complete and says what the node wants. -/
private theorem tells_broadcast (network : Network) (id receiver : NodeId) :
    network.Tells receiver
      (BroadcastMessage.ofRouter id (network.listener id).node.router).bytes := by
  intro same label
  have whole := BroadcastMessage.ofBytes_bytes
    (BroadcastMessage.ofRouter id (network.listener id).node.router) []
  rw [List.append_nil] at whole
  rw [whole] at same ⊢
  obtain rfl : id = receiver := same
  rfl

/-- A complete datagram replaces the whole message. -/
theorem message_datagram (listener : Listener) {bytes : List UInt8}
    (complete : bytes.length = BroadcastMessage.sizeofBroadcastMessage) :
    BroadcastMessage.ofBytes (Listener.recvInto listener.memory (.datagram bytes)) =
      BroadcastMessage.ofBytes bytes := by
  have whole : listener.message (.datagram bytes) = .ofBytes bytes :=
    Listener.message_of_complete ⟨rfl, Nat.le_of_eq complete.symm⟩
  exact whole

/-- A round of a receiving thread. -/
theorem Settling.receive {start : Network} (settling : Settling books sender receiver start network)
    (id : NodeId) (result : BroadcastResult)
    (tells : id = sender →
      network.Tells receiver (Listener.recvInto (network.listener sender).memory result))
    (named : ∀ bytes, result = .datagram bytes →
      BroadcastMessage.ofBytes (Listener.recvInto (network.listener id).memory result) =
        BroadcastMessage.ofBytes bytes) :
    Settling books sender receiver start (network.act books id (.receive result)) := by
  obtain ⟨ready, record, agrees⟩ := settling
  have recvKept : ((network.act books id (.receive result)).listener
      receiver).node.router.routes.recv = (network.listener receiver).node.router.routes.recv := by
    rw [act_listener]
    split
    · next here =>
      subst here
      rw [Listener.step_receive_node]
      exact (Node.parts_of_surroundings (Node.processBroadcast_surroundings ..)).1
    · rfl
  have kept : (network.act books id (.receive result)).wants receiver = network.wants receiver :=
    wants_eq recvKept
  have tellsKept (bytes : List UInt8) (before : network.Tells receiver bytes) :
      (network.act books id (.receive result)).Tells receiver bytes := by
    intro same label
    rw [kept]
    exact before same label
  have reachable (other : NodeId) :
      Node.Reachable (books other)
        ((network.act books id (.receive result)).listener other).node := by
    rw [act_listener]
    split
    · next here =>
      subst here
      rw [Listener.step_receive_node]
      exact (ready.reachable _).processBroadcast _ _
    · exact ready.reachable other
  by_cases here : id = sender
  · subst here
    have own : (network.act books id (.receive result)).listener id =
        (network.listener id).step (books id) (.receive result) := by
      rw [act_listener, if_pos rfl]
    obtain ⟨fits, matches_⟩ := ready.fits.after (ready.reachable id) ready.room ready.reached
      ((network.listener id).message result).id ((network.listener id).message result).recv
      (tells rfl)
    have node : ((network.listener id).step (books id) (.receive result)).node =
        (network.listener id).node.processBroadcast (books id)
          ((network.listener id).message result).id ((network.listener id).message result).recv :=
      Listener.step_receive_node _ result
    have heard : ((network.listener id).step (books id) (.receive result)).heard =
        (network.listener id).heard ++ [result] := Listener.step_receive_heard _ result
    refine ⟨⟨reachable, ready.complete, fun bytes member => tellsKept bytes (ready.sent bytes member),
      ?_, recvKept ▸ ready.few, ?_, ?_, ?_⟩, ?_, ?_⟩
    · rw [own]
      exact tellsKept _ (tells rfl)
    · rw [own, node]
      exact (ready.reachable id).processBroadcast_room ready.room _ _
    · rw [own, node]
      exact ready.reached.processBroadcast _ _
    · rw [own, node, kept]
      exact fits
    · rw [own, heard, List.length_append]
      exact Nat.le_add_right_of_le record
    · rintro ⟨bytes, member, sent⟩
      rw [own, heard, List.drop_append_of_le_length record] at member
      rw [own, node, kept]
      apply matches_
      rcases List.mem_append.mp member with earlier | now
      · exact .inr (agrees ⟨bytes, earlier, sent⟩)
      · have same := named bytes (List.mem_singleton.mp now).symm
        exact .inl ((congrArg BroadcastMessage.id same).trans sent)
  · have other : (network.act books id (.receive result)).listener sender =
        network.listener sender := by
      rw [act_listener, if_neg (Ne.symm here)]
    refine ⟨⟨reachable, ready.complete, fun bytes member => tellsKept bytes (ready.sent bytes member),
      ?_, recvKept ▸ ready.few, ?_, ?_, ?_⟩, ?_, ?_⟩
    · rw [other]
      exact tellsKept _ ready.buffer
    · rw [other]
      exact ready.room
    · rw [other]
      exact ready.reached
    · rw [other, kept]
      exact ready.fits
    · rw [other]
      exact record
    · rw [Heard, other, kept]
      exact agrees

theorem Settling.initial {start : Network} (ready : Ready books sender receiver start) :
    Settling books sender receiver start start where
  ready := ready
  record := le_rfl
  agrees := by
    rintro ⟨bytes, member, _⟩
    rw [List.drop_length] at member
    cases member

/-- The labels that the receiver wants are those that it has open. -/
theorem Ready.wants_iff (ready : Ready books sender receiver network) (label : Label) (size : ℕ) :
    (∃ wanted, (network.wants receiver).lookup label = some wanted ∧ wanted.toNat = size) ↔
      Node.OpenRecv (network.listener receiver).node label size := by
  have inv := (ready.reachable receiver).recvInv
  have same : network.wants receiver = Node.announced receiver (network.listener receiver).node [] :=
    (Node.announced_eq receiver (network.listener receiver).node []).symm
  rw [same, ← Option.map_eq_some_iff, inv.announced_iff receiver [], inv.openRecv_iff,
    List.take_of_length_le ready.few]
  exact exists_congr fun route => and_congr_left fun _ => AList.mem_lookup_iff.symm

/-- Every step that is calm for the two nodes keeps what holds after the start. -/
theorem Settling.step {start : Network} (settling : Settling books sender receiver start network)
    (action : Action) (calm : Calm books sender receiver network action) :
    Settling books sender receiver start (network.step books action) := by
  have ready := settling.ready
  cases action with
  | broadcast id =>
    refine ⟨⟨ready.reachable, ?_, ?_, ready.buffer, ready.few, ready.room, ready.reached, ready.fits⟩,
      settling.record, settling.agrees⟩
    · intro bytes member
      rcases List.mem_append.mp member with old | new
      · exact ready.complete bytes old
      · rw [List.mem_singleton.mp new, BroadcastMessage.length_bytes]
    · intro bytes member
      rcases List.mem_append.mp member with old | new
      · exact ready.sent bytes old
      · rw [List.mem_singleton.mp new]
        exact network.tells_broadcast id receiver
  | receive id index =>
    simp only [Network.step]
    cases found : network.sent[index]? with
    | none => exact settling
    | some bytes =>
      have member := List.mem_of_getElem? found
      have complete := ready.complete bytes member
      apply settling.receive
      · rintro rfl
        rw [Tells, message_datagram _ complete]
        exact ready.sent bytes member
      · rintro other ⟨⟩
        exact message_datagram _ complete
  | receiveFailed id =>
    apply settling.receive
    · rintro rfl
      exact ready.buffer
    · rintro bytes ⟨⟩
  | call id action outside =>
    obtain ⟨receives, sends⟩ := calm
    have after (other : NodeId) :
        ((network.act books id (.call action outside)).listener other).node =
        if other = id then (network.listener id).node.step (books id) action
        else (network.listener other).node := by
      rw [act_listener]
      split
      · rw [Listener.step_call_node]
      · rfl
    have thread (other : NodeId) :
        ((network.act books id (.call action outside)).listener other).heard =
            (network.listener other).heard ∧
          ((network.act books id (.call action outside)).listener other).memory =
            (network.listener other).memory := by
      rw [act_listener]
      split
      · next here =>
        subst here
        exact ⟨rfl, rfl⟩
      · exact ⟨rfl, rfl⟩
    have recvKept : ((network.act books id (.call action outside)).listener
        receiver).node.router.routes.recv = (network.listener receiver).node.router.routes.recv := by
      rw [after]
      split
      · next here =>
        subst here
        exact receives rfl
      · rfl
    have kept : (network.act books id (.call action outside)).wants receiver =
        network.wants receiver := wants_eq recvKept
    have same : ((network.act books id (.call action outside)).listener
          sender).node.router.routes.send = (network.listener sender).node.router.routes.send ∧
        ((network.act books id (.call action outside)).listener sender).node.router.transports =
          (network.listener sender).node.router.transports := by
      rw [after]
      split
      · next here =>
        subst here
        exact sends rfl
      · exact ⟨rfl, rfl⟩
    have tellsKept (bytes : List UInt8) (before : network.Tells receiver bytes) :
        (network.act books id (.call action outside)).Tells receiver bytes := by
      intro same label
      rw [kept]
      exact before same label
    refine ⟨⟨fun other => ?_, ready.complete, fun bytes member =>
      tellsKept bytes (ready.sent bytes member),
      ?_, recvKept ▸ ready.few, ?_, ?_, ?_⟩, ?_, ?_⟩
    · rw [Network.step, after]
      split
      · next here =>
        subst here
        exact (ready.reachable _).step action
      · exact ready.reachable other
    · rw [Network.step, (thread sender).2]
      exact tellsKept _ ready.buffer
    · rw [Network.step, same.1]
      exact ready.room
    · rw [Network.step, Node.Reached, same.2]
      exact ready.reached
    · rw [Network.step, kept]
      exact ready.fits.of_send same.1
    · rw [Network.step, (thread sender).1]
      exact settling.record
    · rw [Network.step, Heard, (thread sender).1, kept]
      exact fun heard => (settling.agrees heard).of_send same.1

/-- From a start in which no outdated message of the receiver is left, and as long as the receiver
keeps its receive labels and the sender its send routes: once the sender has heard the receiver, it
has it as a subscriber of exactly those of its labels that the receiver has open with their size.
Datagrams may be lost, repeated and reordered, and all other nodes may do what they like. -/
theorem network_converges {start : Network} (ready : Ready books sender receiver start)
    (run : Reaches (step books) (Calm books sender receiver) start network)
    (heard : Heard start network sender receiver) :
    ∀ label route,
      (network.listener sender).node.router.routes.send.table.lookup label = some route →
        ((network.listener sender).node.router.isSendSubscriber label receiver = true ↔
          Node.OpenRecv (network.listener receiver).node label route.labelSize) := by
  have settling := run.invariant (Settling books sender receiver start)
    (.initial ready) fun _ action settling calm => settling.step action calm
  intro label route found
  rw [settling.agrees heard label route found, settling.ready.wants_iff]

section Pair

/-- A sender of label 5 that can reach node 2. -/
def pairSender : Node :=
  [Node.Action.openSend ⟨5, some 0, 4, false, none, none, 0, 0⟩, .openSendShm 2 (some 0)].foldl
    (Node.step Node.neighbourBook) (.initial Node.zeroed)

/-- A receiver of label 5, and of nothing else. -/
def pairReceiver : Node :=
  (Node.initial Node.zeroed).step Node.neighbourBook (.openRecv { Node.wordRequest with label := 5 })

/-- Node 1 sends, node 2 receives, and the others do nothing. -/
def pairNetwork : Network where
  listener id := .start
    (if id = 1 then pairSender else if id = 2 then pairReceiver else .initial Node.zeroed)
  sent := []

/-- Node 2 announces itself and node 1 hears it. -/
def pairHeard : Network :=
  (pairNetwork.step (fun _ => Node.neighbourBook) (.broadcast 2)).step
    (fun _ => Node.neighbourBook) (.receive 1 0)

theorem pairNetwork_ready : Ready (fun _ => Node.neighbourBook) 1 2 pairNetwork where
  reachable id := by
    show Node.Reachable _ (if id = 1 then pairSender else if id = 2 then pairReceiver else _)
    split
    · exact ⟨_, Reaches.foldl _ (fun _ _ _ => trivial) _⟩
    · split
      · exact ⟨_, .single _ trivial⟩
      · exact ⟨_, .refl⟩
  complete _ member := by cases member
  sent _ member := by cases member
  buffer := by
    have empty := BroadcastMessage.ofBytes_bytes {} []
    rw [List.append_nil] at empty
    intro same
    have same : (BroadcastMessage.ofBytes (BroadcastMessage.bytes {})).id = 2 := same
    rw [empty] at same
    exact absurd same (by decide)
  few := by decide
  room := by decide
  reached := .inl ⟨.inr rfl, by decide⟩
  fits := by
    intro label route size found subscribed _
    have nobody : route.allSubscribers = [] := by
      have listed : (⟨label, route⟩ : Sigma fun _ : Label => SendRoute) ∈
          pairSender.router.routes.send.table.entries := AList.mem_lookup_iff.mp found
      cases List.mem_singleton.mp listed
      rfl
    obtain ⟨other, there, member⟩ := Router.isSendSubscriber_iff.mp subscribed
    cases (show _ = some route from found).symm.trans there
    rw [nobody] at member
    cases member

theorem pairHeard_heard : Heard pairNetwork pairHeard 1 2 := by
  refine ⟨(BroadcastMessage.ofRouter 2 pairReceiver.router).bytes, List.mem_singleton.mpr rfl, ?_⟩
  have whole := BroadcastMessage.ofBytes_bytes (BroadcastMessage.ofRouter 2 pairReceiver.router) []
  rw [List.append_nil] at whole
  rw [whole]
  rfl

theorem pairHeard_node : ∃ source recv, (pairHeard.listener 1).node =
    pairSender.processBroadcast Node.neighbourBook source recv :=
  ⟨_, _, Listener.step_receive_node (.start pairSender)
    (.datagram (BroadcastMessage.ofRouter 2 pairReceiver.router).bytes)⟩

/-- The sender still has its route for label 5, with the size of the receiver's buffer. -/
theorem pairHeard_route : ∃ route, (pairHeard.listener 1).node.routeOf 5 = some route ∧
    route.labelSize = 4 ∧ route.publishers = [1] := by
  have start : ∃ route, pairSender.routeOf 5 = some route ∧ route.labelSize = 4 ∧
      route.publishers = [1] := ⟨_, rfl, rfl, rfl⟩
  obtain ⟨old, found, size, publishers⟩ := start
  obtain ⟨source, recv, node⟩ := pairHeard_node
  rw [node]
  have after := (pairNetwork_ready.reachable 1).processBroadcast_route (by decide) source recv 5
  have same := SendRoute.SameHandles.settle Node.neighbourBook pairSender.router.transports source
    (recv.lookup 5) old
  exact ⟨_, after.trans (congrArg _ found), same.labelSize.trans size,
    same.publishers.trans publishers⟩

theorem network_converges_pair :
    (pairHeard.listener 1).node.router.isSendSubscriber 5 2 = true := by
  obtain ⟨route, found, size, _⟩ := pairHeard_route
  have run : Reaches (step fun _ => Node.neighbourBook) (Calm (fun _ => Node.neighbourBook) 1 2)
      pairNetwork pairHeard := .tail (.tail .refl trivial) trivial
  have opened : Node.OpenRecv (pairHeard.listener 2).node 5 route.labelSize := by
    rw [size]
    exact ⟨1, 0, _, rfl, rfl, rfl, rfl⟩
  exact (network_converges pairNetwork_ready run pairHeard_heard 5 route found).mpr opened

end Pair

end Network

end Eroil
