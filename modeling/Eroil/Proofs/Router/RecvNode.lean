import Eroil.Lib.Machine
import Eroil.Model.Node
import Eroil.Proofs.Router.Deliver
import Eroil.Proofs.Router.Registry

/-! # The receiving side of a node

In every state that a node can reach, each receive handle object satisfies what `open_recv` checked
and keeps its slot index in range, and the subscribers of a label are handles of that label with
the size of its route.
-/

namespace Eroil.Node

open Lib

/-- The fields of the receive handle objects that registration reads. -/
def recvView (objects : List RecvHandle) (ref : HandleRef) : Option HandleView :=
  objects[ref]?.map fun handle => ⟨handle.uid, handle.data.label, handle.data.bufSize⟩

structure RecvInv (node : Node) : Prop where
  valid : ∀ handle ∈ node.recvObjects, handle.Valid
  consistent : Consistent node.router.routes.recv node.router.recvHandles (recvView node.recvObjects)

variable {node : Node}

theorem recvView_append (objects : List RecvHandle) (handle : RecvHandle) (ref : HandleRef)
    (object : HandleView) (seen : recvView objects ref = some object) :
    recvView (objects ++ [handle]) ref = some object := by
  obtain ⟨old, found, view⟩ := Option.map_eq_some_iff.mp seen
  have bound := (List.getElem?_eq_some_iff.mp found).1
  rw [recvView, List.getElem?_append_left bound, found, Option.map_some, view]

theorem recvView_concat (objects : List RecvHandle) (handle : RecvHandle) :
    recvView (objects ++ [handle]) objects.length =
      some ⟨handle.uid, handle.data.label, handle.data.bufSize⟩ := by
  rw [recvView, List.getElem?_concat_length, Option.map_some]

/-- Replacing an object by one with the same static part does not show in the view. -/
theorem recvView_set (objects : List RecvHandle) (ref : HandleRef) (old new : RecvHandle)
    (found : objects[ref]? = some old)
    (same : (⟨new.uid, new.data.label, new.data.bufSize⟩ : HandleView) =
      ⟨old.uid, old.data.label, old.data.bufSize⟩) :
    recvView (objects.set ref new) = recvView objects := by
  funext query
  have bound := (List.getElem?_eq_some_iff.mp found).1
  by_cases here : ref = query
  · subst here
    rw [recvView, recvView, List.getElem?_set_self bound, found, Option.map_some, Option.map_some,
      same]
  · rw [recvView, recvView, List.getElem?_set_ne here]

theorem RecvInv.initial (world : RecvWorld) : RecvInv (Node.initial world) where
  valid _ member := by cases member
  consistent := .empty _

/-- What the invariant looks at: the receive half of the router and the objects. -/
def recvPart (node : Node) :
    Routes RecvRoute × AList (fun _ : HandleUid => HandleRef) × List RecvHandle :=
  (node.router.routes.recv, node.router.recvHandles, node.recvObjects)

theorem RecvInv.of_recvPart {other : Node} (inv : RecvInv node)
    (same : recvPart other = recvPart node) : RecvInv other := by
  obtain ⟨routes, rest⟩ := Prod.mk.inj same
  obtain ⟨handles, objects⟩ := Prod.mk.inj rest
  exact ⟨objects ▸ inv.valid, routes ▸ handles ▸ objects ▸ inv.consistent⟩

theorem RecvInv.openRecv (inv : RecvInv node) (request : RecvRequest) :
    RecvInv (node.openRecv (openRecvLabel request)).1 := by
  unfold Node.openRecv
  split
  · next accepted =>
    have seen := recvView_concat node.recvObjects (.new (wrap32 node.nextId) (openRecvLabel request))
    have extended := inv.consistent.mono
      (recvView_append node.recvObjects (.new (wrap32 node.nextId) (openRecvLabel request)))
    refine ⟨?_, extended.storeHandle seen⟩
    intro handle member
    rcases List.mem_append.mp member with old | new
    · exact inv.valid handle old
    · rw [List.mem_singleton.mp new]
      exact .new _ request accepted
  · exact inv

theorem RecvInv.closeRecv (inv : RecvInv node) (ref : HandleRef) : RecvInv (node.closeRecv ref) := by
  unfold Node.closeRecv
  split
  · exact inv
  · next handle found =>
    have seen : recvView node.recvObjects ref =
        some ⟨handle.uid, handle.data.label, handle.data.bufSize⟩ := by rw [recvView, found]; rfl
    exact ⟨inv.valid, inv.consistent.dropHandle seen⟩

/-- An object may change its counters, its idle flag and its buffers. -/
theorem RecvInv.set {other : Node} {ref : HandleRef} {old new : RecvHandle} (inv : RecvInv node)
    (found : node.recvObjects[ref]? = some old) (valid : new.Valid)
    (same : (⟨new.uid, new.data.label, new.data.bufSize⟩ : HandleView) =
      ⟨old.uid, old.data.label, old.data.bufSize⟩)
    (router : other.router = node.router)
    (objects : other.recvObjects = node.recvObjects.set ref new) : RecvInv other where
  valid := by
    intro handle member
    rw [objects] at member
    rcases List.mem_or_eq_of_mem_set member with earlier | rfl
    · exact inv.valid handle earlier
    · exact valid
  consistent := by
    rw [router, objects, recvView_set _ _ _ _ found same]
    exact inv.consistent

/-- Calls of the application leave the fields alone that registration reads. -/
theorem call_view (handle : RecvHandle) (call : RecvHandle.Call) :
    (⟨(handle.call call).uid, (handle.call call).data.label, (handle.call call).data.bufSize⟩ :
      HandleView) = ⟨handle.uid, handle.data.label, handle.data.bufSize⟩ := by
  cases call with
  | recvDismiss count =>
    simp only [RecvHandle.call, RecvHandle.recvDismiss]
    split <;> rfl
  | recvRedirect =>
    simp only [RecvHandle.call, RecvHandle.recvRedirect]
    split <;> rfl
  | recvReset => rfl
  | recvIdle => rfl
  | recvResume => rfl

theorem RecvInv.callRecv (inv : RecvInv node) (ref : HandleRef) (call : RecvHandle.Call) :
    RecvInv (node.callRecv ref call) := by
  unfold Node.callRecv
  split
  · exact inv
  · next handle found =>
    have valid := inv.valid handle (List.mem_of_getElem? found)
    exact inv.set found (valid.call call) (call_view handle call) rfl rfl

theorem RecvInv.deliverTo (inv : RecvInv node) (arrival : Arrival) (ref : HandleRef) :
    RecvInv (node.deliverTo arrival ref) := by
  unfold Node.deliverTo
  split
  · exact inv
  · next handle found =>
    have valid := inv.valid handle (List.mem_of_getElem? found)
    have static := handle.deliver_static arrival node.world
    refine inv.set found (valid.deliver arrival node.world) ?_ rfl rfl
    exact congrArg (fun other => (⟨other.uid, other.data.label, other.data.bufSize⟩ : HandleView))
      static

private theorem RecvInv.foldl_deliverTo (arrival : Arrival) (refs : List HandleRef)
    (inv : RecvInv node) :
    RecvInv (refs.foldl (Node.deliverTo arrival) node) := by
  induction refs generalizing node with
  | nil => exact inv
  | cons ref rest ih => exact ih (inv.deliverTo arrival ref)

theorem RecvInv.distributeRecvdLabel (inv : RecvInv node) (arrival : Arrival) :
    RecvInv (node.distributeRecvdLabel arrival) := by
  unfold Node.distributeRecvdLabel
  split
  · exact inv
  · exact inv.foldl_deliverTo arrival _

theorem recvPart_openSend (node : Node) (data : OpenSendData) :
    recvPart (node.openSend data).1 = recvPart node := by
  unfold Node.openSend
  split <;> rfl

theorem recvPart_closeSend (node : Node) (ref : HandleRef) :
    recvPart (node.closeSend ref) = recvPart node := by
  unfold Node.closeSend
  split <;> rfl

theorem recvPart_addSubscriber (book : AddressBook) (node : Node) (source : NodeId) (label : Label)
    (size : ℕ) : recvPart (node.addSubscriber book source label size) = recvPart node := by
  have router :
      ∀ kind, recvPart { node with router := node.router.addSubscriber kind label size source } =
      recvPart node := by
    intro kind
    unfold Router.addSubscriber
    split <;> rfl
  unfold Node.addSubscriber
  split_ifs
  any_goals rfl
  split
  · exact router .shm
  · exact router .shm
  · exact router .socket
  · rfl

theorem recvPart_removeSubscriber (book : AddressBook) (node : Node) (source : NodeId)
    (label : Label) : recvPart (node.removeSubscriber book source label) = recvPart node := by
  unfold Node.removeSubscriber
  split_ifs
  any_goals rfl
  split <;> rfl

theorem RecvInv.step (book : AddressBook) (node : Node) (action : Action) (inv : RecvInv node) :
    RecvInv (node.step book action) := by
  cases action with
  | openSend data => exact inv.of_recvPart (recvPart_openSend node data)
  | closeSend ref => exact inv.of_recvPart (recvPart_closeSend node ref)
  | openRecv request => exact inv.openRecv request
  | closeRecv ref => exact inv.closeRecv ref
  | callRecv ref call => exact inv.callRecv ref call
  | distribute arrival => exact inv.distributeRecvdLabel arrival
  | addSubscriber source label size =>
    exact inv.of_recvPart (recvPart_addSubscriber book node source label size.toNat)
  | removeSubscriber source label =>
    exact inv.of_recvPart (recvPart_removeSubscriber book node source label)
  | openSendShm id opened => exact inv.of_recvPart rfl
  | upsertSocket id sock => exact inv.of_recvPart rfl

/-- A state that a node can be in. -/
def Reachable (book : AddressBook) (node : Node) : Prop :=
  ∃ world, Reaches (Node.step book) (fun _ _ => True) (Node.initial world) node

theorem Reachable.recvInv {book : AddressBook} (reachable : Reachable book node) : RecvInv node := by
  obtain ⟨world, run⟩ := reachable
  exact run.invariant RecvInv (RecvInv.initial world) fun state action inv _ =>
    inv.step book state action

end Eroil.Node
