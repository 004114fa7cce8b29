import Eroil.Proofs.Router.SendNode

/-! # A node drives its router by the router's own calls

Every action of a node changes its router by at most one call. Handle objects are only added and
keep the fields that the router reads, so one choice of objects explains a whole run, and what holds
of the router after any sequence of calls holds in every node.
-/

namespace Eroil.Node

open Lib

/-- The objects have the fields that the router reads in the handles of the node. -/
structure Describes (objects : Router.Objects) (node : Node) : Prop where
  send : ∀ ref object, sendView node.sendObjects ref = some object →
    objects.sendView ref = some object
  recv : ∀ ref object, recvView node.recvObjects ref = some object →
    objects.recvView ref = some object

variable {book : AddressBook} {node : Node} {objects : Router.Objects}

theorem Describes.of_grown {later : Node} (describes : Describes objects later)
    (send : ∀ ref object, sendView node.sendObjects ref = some object →
      sendView later.sendObjects ref = some object)
    (recv : ∀ ref object, recvView node.recvObjects ref = some object →
      recvView later.recvObjects ref = some object) : Describes objects node :=
  ⟨fun ref object seen => describes.send ref object (send ref object seen),
    fun ref object seen => describes.recv ref object (recv ref object seen)⟩

theorem Describes.of_same {later : Node} (describes : Describes objects later)
    (send : later.sendObjects = node.sendObjects) (recv : later.recvObjects = node.recvObjects) :
    Describes objects node :=
  describes.of_grown (fun _ _ seen => by rw [send]; exact seen)
    (fun _ _ seen => by rw [recv]; exact seen)

theorem Describes.registerSend (describes : Describes objects node) (router : Router)
    {ref : HandleRef}
    {handle : SendHandle} (found : node.sendObjects[ref]? = some handle) :
    router.registerSendPublisher ref handle = router.registerSendPublisher ref (objects.send ref) ∧
      router.unregisterSendPublisher ref handle =
        router.unregisterSendPublisher ref (objects.send ref) := by
  have same := describes.send ref _ (by rw [sendView, found]; rfl)
  simp only [Router.Objects.sendView, Option.some.injEq, HandleView.mk.injEq] at same
  simp [Router.registerSendPublisher, Router.unregisterSendPublisher, Routes.addSendPublisher, same]

theorem Describes.registerRecv (describes : Describes objects node) (router : Router)
    {ref : HandleRef}
    {handle : RecvHandle} (found : node.recvObjects[ref]? = some handle) :
    router.registerRecvSubscriber ref handle = router.registerRecvSubscriber ref (objects.recv ref) ∧
      router.unregisterRecvSubscriber ref handle =
        router.unregisterRecvSubscriber ref (objects.recv ref) := by
  have same := describes.recv ref _ (by rw [recvView, found]; rfl)
  simp only [Router.Objects.recvView, Option.some.injEq, HandleView.mk.injEq] at same
  simp [Router.registerRecvSubscriber, Router.unregisterRecvSubscriber,
    Routes.addRecvSubscriber, same]

/-- Delivery changes the counters of receive handles only. -/
private theorem deliverTo_recvView (arrival : Arrival) (node : Node) (ref : HandleRef) :
    recvView (node.deliverTo arrival ref).recvObjects = recvView node.recvObjects := by
  unfold Node.deliverTo
  split
  · rfl
  · next handle found =>
    exact recvView_set _ _ _ _ found
      (congrArg (fun other => (⟨other.uid, other.data.label, other.data.bufSize⟩ : HandleView))
        (handle.deliver_static arrival node.world))

private theorem distributeRecvdLabel_recvView (arrival : Arrival) (node : Node) :
    recvView (node.distributeRecvdLabel arrival).recvObjects = recvView node.recvObjects := by
  have each : ∀ (refs : List HandleRef) (node : Node),
      recvView (refs.foldl (Node.deliverTo arrival) node).recvObjects =
        recvView node.recvObjects := by
    intro refs
    induction refs with
    | nil => exact fun _ => rfl
    | cons ref rest ih =>
      intro node
      rw [List.foldl_cons, ih, deliverTo_recvView]
  unfold Node.distributeRecvdLabel
  split
  · rfl
  · exact each _ node

private theorem callRecv_recvView (node : Node) (ref : HandleRef) (call : RecvHandle.Call) :
    recvView (node.callRecv ref call).recvObjects = recvView node.recvObjects := by
  unfold Node.callRecv
  split
  · rfl
  · next handle found =>
    exact recvView_set _ _ _ _ found (call_view handle call)

/-- Objects that describe a node after an action describe it before. -/
theorem Describes.before (action : Action) (describes : Describes objects (node.step book action)) :
    Describes objects node := by
  cases action with
  | openSend data =>
    simp only [Node.step, Node.openSend] at describes
    split at describes
    · exact describes.of_grown (sendView_append _ _) fun _ _ => id
    · exact describes
  | closeSend ref =>
    refine describes.of_same ?_ ?_ <;> simp only [Node.step, Node.closeSend] <;> split <;> rfl
  | openRecv request =>
    simp only [Node.step, Node.openRecv] at describes
    split at describes
    · exact describes.of_grown (fun _ _ => id) (recvView_append _ _)
    · exact describes
  | closeRecv ref =>
    refine describes.of_same ?_ ?_ <;> simp only [Node.step, Node.closeRecv] <;> split <;> rfl
  | callRecv ref call =>
    refine describes.of_grown (fun _ _ seen => ?_) fun _ _ seen => ?_
    · simp only [Node.step, Node.callRecv]
      split <;> exact seen
    · rw [Node.step, callRecv_recvView]
      exact seen
  | distribute arrival =>
    refine describes.of_grown (fun _ _ seen => ?_) fun _ _ seen => ?_
    · have part := distributeRecvdLabel_sendPart arrival node
      simp only [sendPart, Prod.mk.injEq] at part
      rw [Node.step, part.2.2]
      exact seen
    · rw [Node.step, distributeRecvdLabel_recvView]
      exact seen
  | addSubscriber source label size =>
    rcases addSubscriber_cases book node source label size.toNat with
      ⟨same, _⟩ | ⟨_, _, _, _, changed⟩
    · rwa [Node.step, same] at describes
    · rw [Node.step, changed] at describes
      exact describes.of_same rfl rfl
  | removeSubscriber source label =>
    rcases removeSubscriber_cases book node source label with ⟨same, _⟩ | ⟨_, _, _, changed⟩
    · rwa [Node.step, same] at describes
    · rw [Node.step, changed] at describes
      exact describes.of_same rfl rfl
  | openSendShm id opened => exact describes.of_same rfl rfl
  | upsertSocket id sock => exact describes.of_same rfl rfl

/-- One action is at most one call of the router. -/
private theorem step_calls (book : AddressBook) (node : Node) (action : Action) :
    ∃ calls : List Router.Call, ∀ objects, Describes objects (node.step book action) →
      (node.step book action).router = calls.foldl (Router.call objects) node.router := by
  cases action with
  | openSend data =>
    simp only [Node.step, Node.openSend]
    split
    · refine ⟨[.registerSendPublisher (some node.sendObjects.length)], fun objects describes => ?_⟩
      exact (describes.registerSend node.router List.getElem?_concat_length).1
    · exact ⟨[], fun _ _ => rfl⟩
  | closeSend ref =>
    simp only [Node.step, Node.closeSend]
    split
    · exact ⟨[], fun _ _ => rfl⟩
    · next handle found =>
      refine ⟨[.unregisterSendPublisher (some ref)], fun objects describes => ?_⟩
      exact (describes.registerSend node.router found).2
  | openRecv request =>
    simp only [Node.step, Node.openRecv]
    split
    · refine ⟨[.registerRecvSubscriber (some node.recvObjects.length)], fun objects describes => ?_⟩
      exact (describes.registerRecv node.router List.getElem?_concat_length).1
    · exact ⟨[], fun _ _ => rfl⟩
  | closeRecv ref =>
    simp only [Node.step, Node.closeRecv]
    split
    · exact ⟨[], fun _ _ => rfl⟩
    · next handle found =>
      refine ⟨[.unregisterRecvSubscriber (some ref)], fun objects describes => ?_⟩
      exact (describes.registerRecv node.router found).2
  | callRecv ref call =>
    refine ⟨[], fun _ _ => ?_⟩
    simp only [Node.step, Node.callRecv]
    split <;> rfl
  | distribute arrival => exact ⟨[], fun _ _ => distributeRecvdLabel_router arrival node⟩
  | addSubscriber source label size =>
    rcases addSubscriber_cases book node source label size.toNat with
      ⟨same, _⟩ | ⟨kind, _, _, _, changed⟩
    · exact ⟨[], fun _ _ => by rw [Node.step, same]; rfl⟩
    · rw [Node.step, changed]
      cases kind with
      | shm => exact ⟨[.addLocalSendSubscriber label size.toNat source], fun _ _ => rfl⟩
      | socket => exact ⟨[.addRemoteSendSubscriber label size.toNat source], fun _ _ => rfl⟩
  | removeSubscriber source label =>
    rcases removeSubscriber_cases book node source label with ⟨same, _⟩ | ⟨kind, _, _, changed⟩
    · exact ⟨[], fun _ _ => by rw [Node.step, same]; rfl⟩
    · rw [Node.step, changed]
      cases kind with
      | shm => exact ⟨[.removeLocalSendSubscriber label source], fun _ _ => rfl⟩
      | socket => exact ⟨[.removeRemoteSendSubscriber label source], fun _ _ => rfl⟩
  | openSendShm id opened => exact ⟨[.openSendShm id opened], fun _ _ => rfl⟩
  | upsertSocket id sock => exact ⟨[.upsertSocket id sock], fun _ _ => rfl⟩

/-- The router of a reachable node is the result of a sequence of calls. -/
theorem Reachable.calls (reachable : Reachable book node) :
    ∃ calls : List Router.Call, ∀ objects, Describes objects node →
      node.router = calls.foldl (Router.call objects) .empty := by
  obtain ⟨world, run⟩ := reachable
  refine run.invariant (fun node => ∃ calls : List Router.Call, ∀ objects, Describes objects node →
    node.router = calls.foldl (Router.call objects) .empty) ⟨[], fun _ _ => rfl⟩ ?_
  rintro state action ⟨earlier, before⟩ -
  obtain ⟨calls, after⟩ := step_calls book state action
  refine ⟨earlier ++ calls, fun objects describes => ?_⟩
  rw [after objects describes, before objects (describes.before action), List.foldl_append]

/-- Objects with the handles of the node at their references. -/
def objectsOf (node : Node) : Router.Objects where
  send ref := node.sendObjects[ref]?.getD ⟨0, ⟨0, none, 0, false, none, none, 0, 0⟩⟩
  recv ref := node.recvObjects[ref]?.getD
    (.new 0 (openRecvLabel ⟨0, none, 0, 0, none, none, none, 0, .overwrite⟩))

private theorem describes_objectsOf (node : Node) : Describes node.objectsOf node where
  send ref object seen := by
    obtain ⟨handle, found, rfl⟩ := Option.map_eq_some_iff.mp seen
    simp [Router.Objects.sendView, objectsOf, found]
  recv ref object seen := by
    obtain ⟨handle, found, rfl⟩ := Option.map_eq_some_iff.mp seen
    simp [Router.Objects.recvView, objectsOf, found]

/-- What the router keeps true after any sequence of calls holds in every reachable node. -/
theorem Reachable.routerInv (reachable : Reachable book node) :
    Router.Inv node.objectsOf node.router := by
  obtain ⟨calls, run⟩ := reachable.calls
  rw [run _ node.describes_objectsOf]
  exact Router.Inv.calls _ calls

end Eroil.Node
