import Eroil.Proofs.Router.Consistency
import Eroil.Proofs.Router.Subscribers

/-! # The sending side of a node

In every state that a node can reach, the send handles satisfy what `open_send` checked, agree with
the send routes, and each subscriber of a route is in the list of the one transport that the
address book assigns to it.
-/

namespace Eroil

open Lib

/-- The list that a node belongs to, if the address book knows it. -/
def AddressBook.transport (book : AddressBook) (id : NodeId) : Option Transport :=
  match book.kind id with
  | .none => none
  | .self => some .shm
  | .shm => some .shm
  | .socket => some .socket

namespace Node

variable {node : Node}

/-- One label of a broadcast adds nothing, or adds its source through the transport of the
source. -/
theorem addSubscriber_cases (book : AddressBook) (node : Node) (source : NodeId) (label : Label)
    (size : ℕ) :
    (node.addSubscriber book source label size = node ∧
      (label ≤ invalidLabel ∨ node.router.hasSendRoute label = false ∨
        node.router.isSendSubscriber label source = true ∨ book.transport source = none)) ∨
      ∃ kind, invalidLabel < label ∧ node.router.isSendSubscriber label source = false ∧
        book.transport source = some kind ∧ node.addSubscriber book source label size =
          { node with router := node.router.addSubscriber kind label size source } := by
  by_cases low : label ≤ invalidLabel
  · exact .inl ⟨by rw [addSubscriber, if_pos low], .inl low⟩
  cases routed : node.router.hasSendRoute label with
  | false => exact .inl ⟨by simp [addSubscriber, routed], .inr (.inl rfl)⟩
  | true =>
    cases subscribed : node.router.isSendSubscriber label source with
    | true => exact .inl ⟨by simp [addSubscriber, subscribed], .inr (.inr (.inl rfl))⟩
    | false =>
      have high : invalidLabel < label := Int32.not_le.mp low
      cases known : book.kind source with
      | none =>
        refine .inl ⟨?_, .inr (.inr (.inr (by simp [AddressBook.transport, known])))⟩
        simp [addSubscriber, low, routed, subscribed, known]
      | self =>
        refine .inr ⟨.shm, high, rfl, by simp [AddressBook.transport, known], ?_⟩
        simp [addSubscriber, low, routed, subscribed, known, Router.addLocalSendSubscriber]
      | shm =>
        refine .inr ⟨.shm, high, rfl, by simp [AddressBook.transport, known], ?_⟩
        simp [addSubscriber, low, routed, subscribed, known, Router.addLocalSendSubscriber]
      | socket =>
        refine .inr ⟨.socket, high, rfl, by simp [AddressBook.transport, known], ?_⟩
        simp [addSubscriber, low, routed, subscribed, known, Router.addRemoteSendSubscriber]

/-- One label of the send table removes nothing, or removes the source from its list. -/
theorem removeSubscriber_cases (book : AddressBook) (node : Node) (source : NodeId) (label : Label) :
    (node.removeSubscriber book source label = node ∧
      (label ≤ invalidLabel ∨ node.router.isSendSubscriber label source = false ∨
        book.transport source = none)) ∨
      ∃ kind, invalidLabel < label ∧ book.transport source = some kind ∧
        node.removeSubscriber book source label =
          { node with router := node.router.removeSubscriber kind label source } := by
  by_cases low : label ≤ invalidLabel
  · exact .inl ⟨by rw [removeSubscriber, if_pos low], .inl low⟩
  cases subscribed : node.router.isSendSubscriber label source with
  | false => exact .inl ⟨by simp [removeSubscriber, subscribed], .inr (.inl rfl)⟩
  | true =>
    have high : invalidLabel < label := Int32.not_le.mp low
    cases known : book.kind source with
    | none =>
      refine .inl ⟨?_, .inr (.inr (by simp [AddressBook.transport, known]))⟩
      simp [removeSubscriber, low, subscribed, known]
    | self =>
      refine .inr ⟨.shm, high, by simp [AddressBook.transport, known], ?_⟩
      simp [removeSubscriber, low, subscribed, known, Router.removeLocalSendSubscriber]
    | shm =>
      refine .inr ⟨.shm, high, by simp [AddressBook.transport, known], ?_⟩
      simp [removeSubscriber, low, subscribed, known, Router.removeLocalSendSubscriber]
    | socket =>
      refine .inr ⟨.socket, high, by simp [AddressBook.transport, known], ?_⟩
      simp [removeSubscriber, low, subscribed, known, Router.removeRemoteSendSubscriber]

/-- The fields of the send handle objects that registration reads. -/
def sendView (objects : List SendHandle) (ref : HandleRef) : Option HandleView :=
  objects[ref]?.map fun handle => ⟨handle.uid, handle.data.label, handle.data.bufSize⟩

theorem sendView_append (objects : List SendHandle) (handle : SendHandle) (ref : HandleRef)
    (object : HandleView) (seen : sendView objects ref = some object) :
    sendView (objects ++ [handle]) ref = some object := by
  obtain ⟨old, found, view⟩ := Option.map_eq_some_iff.mp seen
  have bound := (List.getElem?_eq_some_iff.mp found).1
  rw [sendView, List.getElem?_append_left bound, found, Option.map_some, view]

theorem sendView_concat (objects : List SendHandle) (handle : SendHandle) :
    sendView (objects ++ [handle]) objects.length =
      some ⟨handle.uid, handle.data.label, handle.data.bufSize⟩ := by
  rw [sendView, List.getElem?_concat_length, Option.map_some]

/-- Subscribers are in the list of their own transport. -/
def Homed (book : AddressBook) (route : SendRoute) : Prop :=
  ∀ kind, ∀ dst ∈ route.subscribers kind, book.transport dst = some kind

private theorem homed_create (book : AddressBook) (label : Label) (size : ℕ) :
    Homed book (HandleRoute.create label size) := by
  intro kind dst member
  cases kind <;> cases member

theorem homed_setMembers (book : AddressBook) (route : SendRoute) (uids : List HandleUid)
    (homed : Homed book route) : Homed book (HandleRoute.setMembers route uids) := by
  intro kind
  cases kind with
  | shm => exact homed .shm
  | socket => exact homed .socket

structure SendInv (book : AddressBook) (node : Node) : Prop where
  valid : ∀ handle ∈ node.sendObjects, handle.data.accepted = true
  consistent : Consistent node.router.routes.send node.router.sendHandles (sendView node.sendObjects)
  homed : node.router.routes.send.Each fun _ => Homed book

/-- What the invariant looks at: the send half of the router and the objects. -/
def sendPart (node : Node) :
    Routes SendRoute × AList (fun _ : HandleUid => HandleRef) × List SendHandle :=
  (node.router.routes.send, node.router.sendHandles, node.sendObjects)

variable {book : AddressBook}

theorem SendInv.of_sendPart {other : Node} (inv : SendInv book node)
    (same : sendPart other = sendPart node) : SendInv book other := by
  obtain ⟨routes, rest⟩ := Prod.mk.inj same
  obtain ⟨handles, objects⟩ := Prod.mk.inj rest
  exact ⟨objects ▸ inv.valid, routes ▸ handles ▸ objects ▸ inv.consistent, routes ▸ inv.homed⟩

theorem SendInv.initial (book : AddressBook) (world : RecvWorld) :
    SendInv book (Node.initial world) where
  valid _ member := by cases member
  consistent := .empty _
  homed := .empty

theorem SendInv.openSend (inv : SendInv book node) (data : OpenSendData) :
    SendInv book (node.openSend data).1 := by
  unfold Node.openSend
  split
  · next accepted =>
    have seen := sendView_concat node.sendObjects ⟨wrap32 node.nextId, data⟩
    have extended := inv.consistent.mono (sendView_append node.sendObjects ⟨wrap32 node.nextId, data⟩)
    refine ⟨?_, extended.storeHandle seen, ?_⟩
    · intro handle member
      rcases List.mem_append.mp member with old | new
      · exact inv.valid handle old
      · rw [List.mem_singleton.mp new]
        exact accepted
    · exact inv.homed.storeHandle _ _ _ _ (homed_create book _ _) fun _ => homed_setMembers book
  · exact inv

theorem SendInv.closeSend (inv : SendInv book node) (ref : HandleRef) :
    SendInv book (node.closeSend ref) := by
  unfold Node.closeSend
  split
  · exact inv
  · next handle found =>
    have seen : sendView node.sendObjects ref =
        some ⟨handle.uid, handle.data.label, handle.data.bufSize⟩ := by rw [sendView, found]; rfl
    exact ⟨inv.valid, inv.consistent.dropHandle seen,
      inv.homed.dropHandle _ _ _ fun _ => homed_setMembers book⟩

theorem SendInv.addSubscriber (inv : SendInv book node) (source : NodeId) (label : Label) (size : ℕ) :
    SendInv book (node.addSubscriber book source label size) := by
  rcases addSubscriber_cases book node source label size with
    ⟨same, _⟩ | ⟨kind, _, _, known, changed⟩
  · rw [same]
    exact inv
  · rw [changed]
    unfold Router.addSubscriber
    split
    · have after := node.router.routes.send.addSendSubscriber_lookup kind label size source
      refine ⟨inv.valid, inv.consistent.map_routes _ after fun query route => ?_,
        inv.homed.map_routes _ after fun query route homed => ?_⟩
      · split
        · exact .subscribe route kind size source
        · exact ⟨rfl, rfl, rfl⟩
      · split
        · intro other dst member
          rcases SendRoute.mem_subscribe.mp member with earlier | ⟨rfl, rfl, _⟩
          · exact homed other dst earlier
          · exact known
        · exact homed
    · exact inv

theorem SendInv.removeSubscriber (inv : SendInv book node) (source : NodeId) (label : Label) :
    SendInv book (node.removeSubscriber book source label) := by
  rcases removeSubscriber_cases book node source label with ⟨same, _⟩ | ⟨kind, _, _, changed⟩
  · rw [same]
    exact inv
  · rw [changed]
    have after := node.router.routes.send.removeSendSubscriber_lookup kind label source
    refine ⟨inv.valid, inv.consistent.map_routes _ after fun query route => ?_,
      inv.homed.map_routes _ after fun query route homed => ?_⟩
    · split
      · exact .unsubscribe route kind source
      · exact ⟨rfl, rfl, rfl⟩
    · split
      · intro other dst member
        exact homed other dst
          ((route.subscribers_unsubscribe_sublist kind other source).subset member)
      · exact homed

theorem deliverTo_sendObjects (arrival : Arrival) (node : Node) (ref : HandleRef) :
    (node.deliverTo arrival ref).sendObjects = node.sendObjects := by
  unfold Node.deliverTo
  split <;> rfl

theorem distributeRecvdLabel_sendPart (arrival : Arrival) (node : Node) :
    sendPart (node.distributeRecvdLabel arrival) = sendPart node := by
  have objects : ∀ (refs : List HandleRef) (node : Node),
      (refs.foldl (Node.deliverTo arrival) node).sendObjects = node.sendObjects := by
    intro refs
    induction refs with
    | nil => exact fun _ => rfl
    | cons ref rest ih =>
      intro node
      rw [List.foldl_cons, ih, deliverTo_sendObjects]
  unfold sendPart
  rw [distributeRecvdLabel_router]
  unfold Node.distributeRecvdLabel
  split
  · rfl
  · rw [objects]

theorem SendInv.step (node : Node) (action : Action) (inv : SendInv book node) :
    SendInv book (node.step book action) := by
  cases action with
  | openSend data => exact inv.openSend data
  | closeSend ref => exact inv.closeSend ref
  | openRecv request =>
    apply inv.of_sendPart
    simp only [Node.step, Node.openRecv]
    split <;> rfl
  | closeRecv ref =>
    apply inv.of_sendPart
    simp only [Node.step, Node.closeRecv]
    split <;> rfl
  | callRecv ref call =>
    apply inv.of_sendPart
    simp only [Node.step, Node.callRecv]
    split <;> rfl
  | distribute arrival => exact inv.of_sendPart (distributeRecvdLabel_sendPart arrival node)
  | addSubscriber source label size => exact inv.addSubscriber source label size.toNat
  | removeSubscriber source label => exact inv.removeSubscriber source label
  | openSendShm id opened => exact inv.of_sendPart rfl
  | upsertSocket id sock => exact inv.of_sendPart rfl

theorem Reachable.sendInv (reachable : Reachable book node) : SendInv book node := by
  obtain ⟨world, run⟩ := reachable
  exact run.invariant (SendInv book) (.initial book world) fun state action inv _ =>
    inv.step state action

/-- Labels of send routes are valid, because a route is created by a handle that was accepted. -/
theorem SendInv.label_valid (inv : SendInv book node) {label : Label} {route : SendRoute}
    (found : node.router.routes.send.table.lookup label = some route) : invalidLabel < label := by
  obtain ⟨uid, listed⟩ := List.exists_mem_of_ne_nil _ (inv.consistent.nonempty label route found)
  obtain ⟨ref, object, _, seen, _, rfl, _⟩ := inv.consistent.routed label route uid found listed
  obtain ⟨handle, there, rfl⟩ := Option.map_eq_some_iff.mp seen
  have accepted := inv.valid handle (List.mem_of_getElem? there)
  simp only [OpenSendData.accepted, Bool.and_eq_true, Bool.not_eq_true', decide_eq_false_iff_not]
    at accepted
  exact Int32.not_le.mp accepted.1.1.1

end Node

end Eroil
