import Eroil.Proofs.Router.Isolation

/-! # A registered handle is served

As long as a handle is not closed it stays registered, whatever else is opened and closed beside it.
A message is written for it exactly if it has the label and the size that the handle was opened
with.
-/

namespace Eroil

open Lib

namespace Router

variable {ρ : Type} {routes : Routes ρ} {handles : AList (fun _ : HandleUid => HandleRef)}
  {uid key : HandleUid} {ref other : HandleRef}

/-- Registering a handle leaves the others registered. -/
private theorem lookup_storeHandle_of {added : Routes ρ × Bool}
    (found : handles.lookup key = some other) :
    (storeHandle routes handles uid ref added).2.lookup key = some other := by
  rw [storeHandle]
  split_ifs with taken
  · exact found
  all_goals
    have different : key ≠ uid := by
      rintro rfl
      exact taken (AList.lookup_isSome.mp (Option.isSome_iff_exists.mpr ⟨other, found⟩))
  · rwa [AList.lookup_insert_ne different]
  · rwa [AList.lookup_erase_ne different, AList.lookup_insert_ne different]

/-- Dropping a handle leaves the others registered. -/
private theorem lookup_dropHandle_of {removed : Routes ρ × Bool}
    (found : handles.lookup key = some other)
    (different : other ≠ ref) :
    (dropHandle routes handles uid ref removed).2.lookup key = some other := by
  rw [dropHandle]
  split_ifs with registered
  · have apart : key ≠ uid := by
      rintro rfl
      exact different (Option.some.inj (found.symm.trans registered))
    rwa [AList.lookup_erase_ne apart]
  · exact found

end Router

namespace Node

variable {node : Node} {ref : HandleRef} {uid : HandleUid}

theorem lookup_of_recvPart {other : Node} (same : recvPart other = recvPart node)
    (found : node.router.recvHandles.lookup uid = some ref) :
    other.router.recvHandles.lookup uid = some ref := by
  simp only [recvPart, Prod.mk.injEq] at same
  rwa [same.2.1]

/-- Only the call that closes a handle ends its registration. -/
private theorem lookup_step (book : AddressBook) {action : Action}
    (found : node.router.recvHandles.lookup uid = some ref) (open_ : action ≠ .closeRecv ref) :
    (node.step book action).router.recvHandles.lookup uid = some ref := by
  cases action with
  | openSend data => exact lookup_of_recvPart (recvPart_openSend node data) found
  | closeSend other => exact lookup_of_recvPart (recvPart_closeSend node other) found
  | openRecv request =>
    simp only [step, Node.openRecv]
    split
    · exact Router.lookup_storeHandle_of found
    · exact found
  | closeRecv other =>
    simp only [step, Node.closeRecv]
    split
    · exact found
    · refine Router.lookup_dropHandle_of found ?_
      rintro rfl
      exact open_ rfl
  | callRecv other call =>
    simp only [step, Node.callRecv]
    split <;> exact found
  | distribute arrival => rwa [step, distributeRecvdLabel_router]
  | addSubscriber source label size =>
    exact lookup_of_recvPart (recvPart_addSubscriber book node source label size.toNat) found
  | removeSubscriber source label =>
    exact lookup_of_recvPart (recvPart_removeSubscriber book node source label) found
  | openSendShm id opened => exact found
  | upsertSocket id sock => exact found

/-- The subscribers of a message are the registered handles that it fits. -/
theorem RecvInv.mem_subscribers {handle : RecvHandle} (inv : RecvInv node)
    (found : node.router.recvHandles.lookup uid = some ref)
    (object : node.recvObjects[ref]? = some handle) (label : Label) (size : ℕ) :
    (∃ refs, node.router.recvSubscribers label size = some refs ∧ ref ∈ refs) ↔
      handle.data.label = label ∧ handle.data.bufSize = size := by
  constructor
  · rintro ⟨refs, taken, member⟩
    obtain ⟨other, same, _, fits⟩ := inv.subscriber taken member
    cases object.symm.trans same
    exact fits
  · rintro ⟨rfl, rfl⟩
    obtain ⟨view, route, seen, named, present, listed⟩ := inv.consistent.stored uid ref found
    rw [recvView, object] at seen
    cases seen
    obtain ⟨_, other, again, view, _, _, size⟩ :=
      inv.consistent.routed _ route uid present listed
    cases found.symm.trans again
    rw [recvView, object] at view
    cases view
    have positive := (inv.valid handle (List.mem_of_getElem? object)).bufSize_ne_zero
    have some_listed : route.subscribers ≠ [] := List.ne_nil_of_mem listed
    refine ⟨route.subscribers.filterMap node.router.recvHandles.lookup, ?_,
      List.mem_filterMap.mpr ⟨uid, listed, found⟩⟩
    rw [Router.recvSubscribers, if_neg positive, present]
    have fits : route.labelSize = handle.data.bufSize := size.symm
    simp only [fits, ne_eq, not_true, if_false, some_listed]

end Node

namespace Traffic

variable {book : AddressBook} {traffic : Traffic} {ref : HandleRef}

/-- The handle is registered. -/
def Registered (traffic : Traffic) (ref : HandleRef) : Prop :=
  ∃ uid, traffic.node.router.recvHandles.lookup uid = some ref

/-- The step closes the handle. -/
def Closes (ref : HandleRef) : Action → Prop
  | .call (.closeRecv other) _ => other = ref
  | _ => False

private theorem step_router (book : AddressBook) (traffic : Traffic) {action : Action}
    (silent : ∀ call whole, action ≠ .call call whole) :
    (traffic.step book action).node.router = traffic.node.router := by
  cases action with
  | call call whole => exact absurd rfl (silent call whole)
  | snapshot arrival =>
    simp only [step, snapshot]
    split <;> rfl
  | writeNext index =>
    simp only [step, writeNext]
    split
    · exact Node.deliverTo_router _ _ _
    · rfl
  | build myId label uid sendBuf seq =>
    simp only [step, build]
    split <;> rfl
  | enqueue index now =>
    simp only [step, enqueue]
    split
    · split <;> rfl
    · rfl
  | work index action =>
    simp only [step, work]
    split
    · split <;> rfl
    · rfl

/-- A handle stays registered until it is closed. -/
theorem Registered.step (registered : traffic.Registered ref) {action : Action}
    (open_ : ¬ Closes ref action) : (traffic.step book action).Registered ref := by
  obtain ⟨uid, found⟩ := registered
  refine ⟨uid, ?_⟩
  cases action with
  | call call whole =>
    refine Node.lookup_step book found ?_
    rintro rfl
    exact open_ rfl
  | snapshot | writeNext | build | enqueue | work =>
    rwa [step_router book traffic (by rintro _ _ ⟨⟩)]

end Traffic

end Eroil
