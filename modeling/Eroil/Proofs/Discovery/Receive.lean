import Eroil.Proofs.Discovery.Converge
import Eroil.Proofs.Discovery.Snapshot

/-! # What the receiving thread makes of its buffer

The receiving thread processes its buffer after every receive, also when nothing or only a part of a
message arrived. A round is safe when a complete message arrived, or when the message that the
buffer then holds asks for nothing that is not already so; in a run of safe rounds every
subscription was announced by a complete message.
-/

namespace Eroil

open Lib

/-- The kernel copied a complete message. -/
def BroadcastResult.Complete (result : BroadcastResult) (bytes : List UInt8) : Prop :=
  result = .datagram bytes ∧ BroadcastMessage.sizeofBroadcastMessage ≤ bytes.length

namespace SendRoute

variable {book : AddressBook} {transports : TransportRegistry} {source : NodeId} {route : SendRoute}

private theorem mem_allSubscribers_subscribe {kind : Transport} {size : ℕ} {node : NodeId}
    (member : node ∈ (route.subscribe kind size source).allSubscribers) :
    node ∈ route.allSubscribers ∨ node = source ∧ route.labelSize = size := by
  rw [mem_allSubscribers, mem_subscribe, mem_subscribe] at member
  rw [mem_allSubscribers]
  rcases member with (earlier | ⟨_, asked⟩) | (earlier | ⟨_, asked⟩)
  · exact .inl (.inl earlier)
  · exact .inr asked
  · exact .inl (.inr earlier)
  · exact .inr asked

/-- A node that is welcomed asked for the size of the route. -/
private theorem mem_allSubscribers_welcome {size : ℕ} {node : NodeId}
    (member : node ∈ (route.welcome book transports source size).allSubscribers) :
    node ∈ route.allSubscribers ∨ node = source ∧ route.labelSize = size := by
  unfold welcome at member
  split at member
  · exact .inl member
  · split at member
    · exact mem_allSubscribers_subscribe member
    · exact .inl member

private theorem mem_allSubscribers_dismiss {node : NodeId}
    (member : node ∈ (route.dismiss book source).allSubscribers) : node ∈ route.allSubscribers := by
  unfold dismiss at member
  split at member
  · exact member
  · next kind _ =>
    rw [mem_allSubscribers] at member ⊢
    exact member.imp (fun earlier =>
      (route.subscribers_unsubscribe_sublist kind _ source).subset earlier)
      fun earlier => (route.subscribers_unsubscribe_sublist kind _ source).subset earlier

end SendRoute

namespace Node

variable {book : AddressBook} {node : Node} {source : NodeId}

/-- What holds of all subscribers and of those who ask holds after a broadcast. -/
theorem each_of_processBroadcast {asked : NodeId → Label → ℕ → Prop}
    {recv : AList (fun _ : Label => UInt32)}
    (before : node.router.routes.send.Each fun label route =>
      ∀ id ∈ route.allSubscribers, asked id label route.labelSize)
    (message : ∀ label size, recv.lookup label = some size → asked source label size.toNat) :
    (node.processBroadcast book source recv).router.routes.send.Each fun label route =>
      ∀ id ∈ route.allSubscribers, asked id label route.labelSize := by
  intro label route found id member
  have after := processBroadcast_visited book node source recv label
  rw [show (node.processBroadcast book source recv).routeOf label = some route from found] at after
  obtain ⟨old, there, rfl⟩ := Option.map_eq_some_iff.mp after.symm
  have known := before label old there
  cases wanted : recv.lookup label with
  | none =>
    simp only [wanted] at member ⊢
    split at member
    · next visited =>
      rw [if_pos visited]
      have size :=
        (SendRoute.SameHandles.settle book node.router.transports source none old).labelSize
      exact size ▸ known id (SendRoute.mem_allSubscribers_dismiss member)
    · next missed =>
      rw [if_neg missed]
      exact known id member
  | some size =>
    simp only [wanted] at member ⊢
    split at member
    · next valid =>
      rw [if_pos valid]
      have same :=
        (SendRoute.SameHandles.settle book node.router.transports source (some size) old).labelSize
      rcases SendRoute.mem_allSubscribers_welcome member with earlier | ⟨rfl, fits⟩
      · exact same ▸ known id earlier
      · have asks : (old.welcome book node.router.transports id size.toNat).labelSize = size.toNat :=
          same.trans fits
        rw [asks]
        exact message label size wanted
    · next invalid =>
      rw [if_neg invalid]
      exact known id member

/-- A broadcast subscribes its source alone, and to labels that it lists. -/
private theorem subscribed_of_processBroadcast {recv : AList (fun _ : Label => UInt32)}
    {label : Label}
    {id : NodeId}
    (subscribed : (node.processBroadcast book source recv).router.isSendSubscriber label id = true) :
    node.router.isSendSubscriber label id = true ∨ id = source ∧ label ∈ recv := by
  obtain ⟨route, found, member⟩ := Router.isSendSubscriber_iff.mp subscribed
  refine @each_of_processBroadcast book node source (fun id label _ =>
    node.router.isSendSubscriber label id = true ∨ id = source ∧ label ∈ recv) recv ?_ ?_ label route
    found id member
  · exact fun label old there id listed => .inl (Router.isSendSubscriber_iff.mpr ⟨old, there, listed⟩)
  · exact fun label size wanted => .inr ⟨rfl, AList.lookup_isSome.mp (by rw [wanted]; rfl)⟩

/-- The message asks for nothing new: where it lists a label, its source is subscribed already, asks
for another size or cannot be reached; where it does not, its source is not subscribed. -/
def Settled (book : AddressBook) (node : Node) (source : NodeId)
    (recv : AList (fun _ : Label => UInt32)) : Prop :=
  ∀ kind, book.transport source = some kind → ∀ label route, node.routeOf label = some route →
    (∀ size, recv.lookup label = some size → source ∈ route.allSubscribers ∨
        route.labelSize ≠ size.toNat ∨ node.router.transports.has source kind = false) ∧
      (recv.lookup label = none → source ∉ route.subscribers kind)

/-- Processing a message that asks for nothing new changes no route. -/
theorem Settled.unchanged {recv : AList (fun _ : Label => UInt32)}
    (settled : Settled book node source recv)
    (label : Label) :
    (node.processBroadcast book source recv).routeOf label = node.routeOf label := by
  rw [processBroadcast_visited]
  cases found : node.routeOf label with
  | none => rfl
  | some route =>
    rw [Option.map_some]
    congr 1
    cases known : book.transport source with
    | none => cases recv.lookup label <;> simp [SendRoute.welcome, SendRoute.dismiss, known]
    | some kind =>
      obtain ⟨listed, unlisted⟩ := settled kind known label route found
      cases wanted : recv.lookup label with
      | none =>
        have nothing : route.dismiss book source = route := by
          simp [SendRoute.dismiss, known, SendRoute.unsubscribe,
            List.erase_of_not_mem (unlisted wanted)]
        simp [nothing]
      | some size =>
        have nothing : route.welcome book node.router.transports source size.toNat = route := by
          simp only [SendRoute.welcome, known]
          rcases listed size wanted with subscribed | differs | unreachable
          · rw [if_neg (fun asked => asked.1 subscribed)]
          · have refused : route.subscribe kind size.toNat source = route := by
              rw [SendRoute.subscribe, if_neg (fun fits => differs fits.1)]
            rw [refused, ite_self]
          · rw [if_neg (by simp [unreachable])]
        simp [nothing]

/-- The route lists only nodes that are subscribed to the label in the given table. -/
def ListedIn (before : Routes SendRoute) (label : Label) (route : SendRoute) : Prop :=
  ∀ id ∈ route.allSubscribers, ∃ old, before.table.lookup label = some old ∧ id ∈ old.allSubscribers

private theorem listedIn_create (before : Routes SendRoute) (label : Label) (size : ℕ) :
    ListedIn before label (HandleRoute.create label size) := by
  intro id member
  cases member

private theorem listedIn_setMembers (before : Routes SendRoute) (label : Label) (route : SendRoute)
    (uids : List HandleUid) (listed : ListedIn before label route) :
    ListedIn before label (HandleRoute.setMembers route uids) := listed

private theorem listedIn_refl (routes : Routes SendRoute) : routes.Each (ListedIn routes) :=
  fun _ route found _ member => ⟨route, found, member⟩

/-- Calls of other threads keep what holds of new routes and does not depend on the publishers. -/
theorem each_of_outside {good : Label → SendRoute → Prop} (node : Node) (action : Node.Action)
    (outside : action.outside = true) (before : node.router.routes.send.Each good)
    (create : ∀ label size, good label (HandleRoute.create label size))
    (setMembers : ∀ label route uids, good label route →
        good label (HandleRoute.setMembers route uids)) :
    (node.step book action).router.routes.send.Each good := by
  cases action with
  | openSend data =>
    simp only [Node.step, Node.openSend]
    split
    · exact before.storeHandle _ _ _ _ (create _ _) setMembers
    · exact before
  | closeSend ref =>
    simp only [Node.step, Node.closeSend]
    split
    · exact before
    · exact before.dropHandle _ _ _ setMembers
  | openRecv request =>
    simp only [Node.step, Node.openRecv]
    split <;> exact before
  | closeRecv ref =>
    simp only [Node.step, Node.closeRecv]
    split <;> exact before
  | callRecv ref call =>
    simp only [Node.step, Node.callRecv]
    split <;> exact before
  | distribute arrival =>
    show (node.distributeRecvdLabel arrival).router.routes.send.Each _
    rw [distributeRecvdLabel_router]
    exact before
  | addSubscriber source label size => cases outside
  | removeSubscriber source label => cases outside
  | openSendShm id opened => exact before
  | upsertSocket id sock => exact before

/-- Calls of other threads subscribe no one. -/
private theorem listedIn_of_outside (node : Node) (action : Node.Action)
    (outside : action.outside = true) :
    (node.step book action).router.routes.send.Each (ListedIn node.router.routes.send) :=
  each_of_outside node action outside (listedIn_refl _) (listedIn_create _) (listedIn_setMembers _)

private theorem subscribed_of_outside {action : Node.Action} (outside : action.outside = true)
    {label : Label}
    {id : NodeId} (subscribed : (node.step book action).router.isSendSubscriber label id = true) :
    node.router.isSendSubscriber label id = true := by
  obtain ⟨route, found, member⟩ := Router.isSendSubscriber_iff.mp subscribed
  exact Router.isSendSubscriber_iff.mpr
    (listedIn_of_outside node action outside label route found id member)

end Node

namespace Listener

variable {book : AddressBook} {listener : Listener}

/-- The message that the buffer holds after a receive. -/
def message (listener : Listener) (result : BroadcastResult) : BroadcastMessage :=
  .ofBytes (recvInto listener.memory result)

/-- A complete message arrives, or the message in the buffer asks for nothing new. -/
def Safe (book : AddressBook) (listener : Listener) : Action → Prop
  | .receive result => (∃ bytes, result.Complete bytes) ∨
      listener.node.Settled book (listener.message result).id (listener.message result).recv
  | .call _ _ => True

theorem step_receive_node (listener : Listener) (result : BroadcastResult) :
    (listener.step book (.receive result)).node = listener.node.processBroadcast book
      (listener.message result).id (listener.message result).recv := by
  rw [step, recvBroadcast, message]

theorem step_receive_heard (listener : Listener) (result : BroadcastResult) :
    (listener.step book (.receive result)).heard = listener.heard ++ [result] := by
  rw [step, recvBroadcast]

theorem step_call_node (listener : Listener) (action : Node.Action)
    (outside : action.outside = true) :
    (listener.step book (.call action outside)).node = listener.node.step book action := by
  rw [step]

private theorem step_call_heard (listener : Listener) (action : Node.Action)
    (outside : action.outside = true) :
    (listener.step book (.call action outside)).heard = listener.heard := by
  rw [step]

/-- A complete message with this id that lists this label has been received. -/
def Announced (listener : Listener) (id : NodeId) (label : Label) : Prop :=
  ∃ result ∈ listener.heard, ∃ bytes,
    result.Complete bytes ∧ (BroadcastMessage.ofBytes bytes).id = id ∧
    ∃ info ∈ (BroadcastMessage.ofBytes bytes).recvLabels.labels.toList, info.label = label

/-- A complete message replaces the whole buffer as far as it is read. -/
theorem message_of_complete {result : BroadcastResult} {bytes : List UInt8}
    (complete : result.Complete bytes) : listener.message result = .ofBytes bytes := by
  obtain ⟨rfl, enough⟩ := complete
  have copied : (bytes.take BroadcastMessage.sizeofBroadcastMessage).length =
      BroadcastMessage.sizeofBroadcastMessage := by
    rw [List.length_take]
    omega
  have whole := BroadcastMessage.ofBytes_append (Nat.le_of_eq copied.symm)
    (bytes.drop BroadcastMessage.sizeofBroadcastMessage)
  rw [List.take_append_drop] at whole
  rw [message, recvInto, BroadcastMessage.ofBytes_append (Nat.le_of_eq copied.symm), whole]

private theorem message_recv_listed {msg : BroadcastMessage} {label : Label}
    (listed : label ∈ msg.recv) :
    ∃ info ∈ msg.recvLabels.labels.toList, info.label = label := by
  obtain ⟨size, found⟩ := Option.isSome_iff_exists.mp (AList.lookup_isSome.mpr listed)
  rw [BroadcastMessage.recv_eq_collect] at found
  rcases BroadcastMessage.collect_sound _ _ found with nothing | ⟨member, _⟩
  · simp at nothing
  · exact ⟨_, member, rfl⟩

/-- Every subscription was there at the start or was announced. -/
def Accounted (start listener : Listener) : Prop :=
  ∀ label id, listener.node.router.isSendSubscriber label id = true →
    start.node.router.isSendSubscriber label id = true ∨ listener.Announced id label

theorem Announced.mono {later : Listener} {id : NodeId} {label : Label}
    (announced : listener.Announced id label) (kept : listener.heard ⊆ later.heard) :
    later.Announced id label := by
  obtain ⟨result, member, rest⟩ := announced
  exact ⟨result, kept member, rest⟩

/-- A safe step keeps the account. -/
theorem Accounted.step {start : Listener} (accounted : Accounted start listener) (action : Action)
    (safe : Safe book listener action) : Accounted start (listener.step book action) := by
  cases action with
  | call action outside =>
    intro label id subscribed
    rw [step_call_node] at subscribed
    rcases accounted label id (Node.subscribed_of_outside outside subscribed) with earlier | announced
    · exact .inl earlier
    · exact .inr (announced.mono (by rw [step_call_heard]; exact List.Subset.refl _))
  | receive result =>
    intro label id subscribed
    rw [step_receive_node] at subscribed
    have carried : listener.node.router.isSendSubscriber label id = true →
        start.node.router.isSendSubscriber label id = true ∨
          (listener.step book (.receive result)).Announced id label := by
      intro earlier
      rcases accounted label id earlier with initially | announced
      · exact .inl initially
      · exact .inr (announced.mono (by rw [step_receive_heard]; exact List.subset_append_left _ _))
    rcases safe with ⟨bytes, complete⟩ | settled
    · rcases Node.subscribed_of_processBroadcast subscribed with earlier | ⟨rfl, listed⟩
      · exact carried earlier
      · right
        refine ⟨result, ?_, bytes, complete, ?_, ?_⟩
        · rw [step_receive_heard]
          exact List.mem_append_right _ List.mem_cons_self
        · rw [message_of_complete complete]
        · rw [message_of_complete complete] at listed
          exact message_recv_listed listed
    · apply carried
      obtain ⟨route, found, member⟩ := Router.isSendSubscriber_iff.mp subscribed
      exact Router.isSendSubscriber_iff.mpr
        ⟨route, (settled.unchanged label).symm.trans found, member⟩

/-- In a run of safe steps a node is subscribed to a label only after a complete message announced
it, and a receive that fails or is short changes no route. -/
theorem safe_run_announced (node : Node) (run : Reaches (Listener.step book) (Safe book) (.start node)
    listener) :
    (∀ label id, listener.node.router.isSendSubscriber label id = true →
        node.router.isSendSubscriber label id = true ∨ listener.Announced id label) ∧
      ∀ action, Safe book listener action →
        (∀ label id, listener.node.router.isSendSubscriber label id = false →
          (listener.step book action).node.router.isSendSubscriber label id = true →
          (listener.step book action).Announced id label) ∧
        ∀ result, action = .receive result → (¬∃ bytes, result.Complete bytes) →
          ∀ label, (listener.step book action).node.router.routes.send.table.lookup label =
            listener.node.router.routes.send.table.lookup label := by
  refine ⟨?_, fun action safe => ⟨fun label id absent subscribed => ?_, ?_⟩⟩
  · have accounted := run.invariant (Accounted (.start node)) (fun _ _ => .inl)
      fun _ action accounted safe => accounted.step action safe
    exact accounted
  · have accounted : Accounted listener (listener.step book action) :=
      Accounted.step (fun _ _ => .inl) action safe
    rcases accounted label id subscribed with present | announced
    · rw [absent] at present
      cases present
    · exact announced
  · rintro result rfl incomplete label
    rw [step_receive_node]
    exact (safe.resolve_left incomplete).unchanged label

section ShortDatagram

/-- Nodes 2 and 3 share the host. -/
def hostBook : AddressBook where
  kind id := if id = 2 ∨ id = 3 then .shm else .none
  valid id low := by
    rw [if_neg]
    rintro (rfl | rfl) <;> exact absurd low (by decide)

/-- A sender of label 5 with four bytes that can reach both nodes. -/
def hostSender : Node :=
  [Node.Action.openSend ⟨5, some 0, 4, false, none, none, 0, 0⟩, .openSendShm 2 (some 0),
    .openSendShm 3 (some 1)].foldl (Node.step hostBook)
    (.initial ⟨fun _ => 0, fun _ => default, fun _ => 0⟩)

/-- A node that receives label 5 says so. -/
def hostMessage (id : NodeId) : BroadcastMessage where
  id := id
  recvLabels := { labels := .ofFn fun index => if index.val = 199 then ⟨5, 4⟩ else {} }

private theorem hostMessage_recv (id : NodeId) : (hostMessage id).recv.lookup 5 = some 4 := by
  have labels : ∀ info : LabelInfo, info ∈ (hostMessage id).recvLabels.labels.toList ↔
      ∃ index : Fin maxLabels, (if index.val = 199 then (⟨5, 4⟩ : LabelInfo) else {}) = info := by
    intro info
    rw [hostMessage, Vector.toList_ofFn, List.mem_ofFn]
  have listed : (⟨5, 4⟩ : LabelInfo) ∈ (hostMessage id).recvLabels.labels.toList :=
    (labels _).mpr ⟨⟨199, by decide⟩, rfl⟩
  have present := BroadcastMessage.collect_complete (hostMessage id).recvLabels.labels.toList ∅
    (.inr ⟨by decide, _, listed, rfl⟩)
  obtain ⟨size, found⟩ := Option.isSome_iff_exists.mp (AList.lookup_isSome.mpr present)
  rw [BroadcastMessage.recv_eq_collect, found]
  rcases BroadcastMessage.collect_sound _ _ found with nothing | ⟨member, _⟩
  · simp at nothing
  · obtain ⟨index, same⟩ := (labels _).mp member
    split_ifs at same
    · cases same
      rfl
    · cases same

/-- The buffer after the message of node 2. -/
def heardTwo : Listener :=
  (Listener.start hostSender).step hostBook (.receive (.datagram (hostMessage 2).bytes))

/-- The buffer after four more bytes: the id of node 3. -/
def heardThree : Listener := heardTwo.step hostBook (.receive (.datagram [3, 0, 0, 0]))

theorem safe_run_announced_heardTwo :
    Reaches (Listener.step hostBook) (Safe hostBook) (.start hostSender) heardTwo ∧
      ∀ label id, heardTwo.node.router.isSendSubscriber label id = true →
        hostSender.router.isSendSubscriber label id = true ∨ heardTwo.Announced id label :=
  have run : Reaches (Listener.step hostBook) (Safe hostBook) (.start hostSender) heardTwo :=
    .single _ (.inl ⟨_, rfl, by rw [BroadcastMessage.length_bytes]⟩)
  ⟨run, (safe_run_announced hostSender run).1⟩

private theorem heardTwo_memory : heardTwo.memory = (hostMessage 2).bytes := by
  have whole : (hostMessage 2).bytes.take BroadcastMessage.sizeofBroadcastMessage =
      (hostMessage 2).bytes := List.take_of_length_le (by rw [BroadcastMessage.length_bytes])
  have nothing : (BroadcastMessage.bytes {}).drop (hostMessage 2).bytes.length = [] :=
    List.drop_eq_nil_of_le (by rw [BroadcastMessage.length_bytes, BroadcastMessage.length_bytes])
  rw [heardTwo, step, recvBroadcast, recvInto, start, whole, nothing, List.append_nil]

/-- The short datagram turns the message of node 2 into one of node 3. -/
private theorem heardTwo_message : heardTwo.message (.datagram [3, 0, 0, 0]) = hostMessage 3 := by
  have short :
      ([3, 0, 0, 0] : List UInt8).take BroadcastMessage.sizeofBroadcastMessage = [3, 0, 0, 0] :=
    List.take_of_length_le (by decide)
  have rest : ∀ id, (hostMessage id).bytes =
      ByteMemory.encode 4 id.toUInt32.toNat ++ (hostMessage 2).bytes.drop 4 := by
    intro id
    have skipped : (hostMessage 2).bytes.drop 4 = [0, 0, 0, 0] ++
        (BroadcastMessage.snapshotBytes {} ++
          BroadcastMessage.snapshotBytes (hostMessage 2).recvLabels) := by
      rw [BroadcastMessage.bytes, List.append_assoc, List.append_assoc]
      exact List.drop_left' (ByteMemory.length_encode 4 _)
    rw [skipped, BroadcastMessage.bytes, List.append_assoc, List.append_assoc]
    rfl
  have three : ByteMemory.encode 4 (3 : NodeId).toUInt32.toNat = [3, 0, 0, 0] := by decide
  have read := BroadcastMessage.ofBytes_bytes (hostMessage 3) []
  rw [List.append_nil, rest, three] at read
  rw [message, heardTwo_memory, recvInto, short]
  exact read

theorem hostSender_reachable : Node.Reachable hostBook hostSender :=
  ⟨_, Reaches.foldl _ (fun _ _ _ => trivial) _⟩

/-- Node 3 becomes a subscriber of label 5 although no message of it has arrived. -/
theorem heardThree_unannounced :
    Node.Reachable hostBook hostSender ∧
      Reaches (Listener.step hostBook) (fun _ _ => True) (.start hostSender) heardThree ∧
      hostSender.router.isSendSubscriber 5 3 = false ∧
      heardThree.node.router.isSendSubscriber 5 3 = true ∧ ¬heardThree.Announced 3 5 := by
  have room : hostSender.router.routes.send.table.entries.length ≤ maxLabels := by decide
  have found : hostSender.routeOf 5 = some ⟨5, 4, [1], [], []⟩ := by decide
  have reachable := hostSender_reachable.processBroadcast 2 (hostMessage 2).recv
  have room' := hostSender_reachable.processBroadcast_room room 2 (hostMessage 2).recv
  have route := hostSender_reachable.processBroadcast_route room 2 (hostMessage 2).recv 5
  rw [found, Option.map_some] at route
  have complete : (BroadcastResult.datagram (hostMessage 2).bytes).Complete (hostMessage 2).bytes :=
    ⟨rfl, by rw [BroadcastMessage.length_bytes]⟩
  have read := BroadcastMessage.ofBytes_bytes (hostMessage 2) []
  rw [List.append_nil] at read
  have first : heardTwo.node = hostSender.processBroadcast hostBook 2 (hostMessage 2).recv := by
    rw [heardTwo, step_receive_node, message_of_complete complete, read]
    rfl
  refine ⟨hostSender_reachable, ?_, by decide, ?_, ?_⟩
  · exact (Reaches.single _ trivial).trans (.single _ trivial)
  · have reached :
        Node.Reached hostBook (hostSender.processBroadcast hostBook 2 (hostMessage 2).recv) 3 := by
      refine .inl ⟨.inr (by decide), ?_⟩
      rw [Node.processBroadcast_transports]
      decide
    rw [heardThree, step_receive_node, heardTwo_message, first]
    apply (reachable.subscribed_after room' reached _ route).mpr
    refine ⟨4, hostMessage_recv 3, .inr ?_⟩
    rw [(SendRoute.SameHandles.settle _ _ _ _ _).labelSize]
    rfl
  · rintro ⟨result, member, bytes, ⟨rfl, enough⟩, named, _⟩
    rw [heardThree, step_receive_heard, heardTwo, step_receive_heard] at member
    simp only [start, List.nil_append, List.cons_append, List.mem_cons, List.not_mem_nil, or_false,
      BroadcastResult.datagram.injEq] at member
    rcases member with rfl | rfl
    · rw [read] at named
      exact absurd named (by decide)
    · exact absurd enough (by decide)

end ShortDatagram

end Listener

end Eroil
