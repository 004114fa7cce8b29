import Eroil.Proofs.Router.Consistency

/-! # Calls that the router rejects

Registration stores the handle and may create a route before it finds out that the handle cannot be
listed. Whatever the reason, a rejected call leaves the whole router as it was, generations
included. That unregistering cannot fail half way rests on the agreement of handles and routes.
-/

namespace Eroil

open Lib HandleRoute

section Halves

variable {ρ : Type} [HandleRoute ρ] {routes : Routes ρ}
  {handles : AList (fun _ : HandleUid => HandleRef)} {view : HandleRef → Option HandleView}
  {label : Label} {size : ℕ} {uid : HandleUid} {ref : HandleRef}

/-- The route table takes every handle of an unrouted label, and of a routed one those that fit. -/
private theorem Routes.addMember_accepted : (routes.addMember label size uid).2 = true ↔
    ∀ route, routes.table.lookup label = some route →
      labelSize route = size ∧ uid ∉ members route := by
  rcases routes.addMember_cases label size uid with
    ⟨route, found, wrong, refused⟩ | ⟨route, gen, before, fits, fresh, accepted⟩
  · rw [refused]
    refine ⟨fun absurd => (Bool.false_ne_true absurd).elim, fun good => ?_⟩
    obtain ⟨fits, fresh⟩ := good route found
    exact (wrong.elim (· fits) (fresh ·)).elim
  · rw [accepted]
    refine ⟨fun _ other found => ?_, fun _ => rfl⟩
    rcases before with there | ⟨missing, _⟩
    · cases there.symm.trans found
      exact ⟨fits, fresh⟩
    · cases missing.symm.trans found

private theorem Routes.addMember_rejected (rejected : (routes.addMember label size uid).2 = false) :
    routes.addMember label size uid = (routes, false) := by
  rcases routes.addMember_cases label size uid with ⟨_, _, _, refused⟩ | ⟨_, _, _, _, _, accepted⟩
  · exact refused
  · rw [accepted] at rejected
    cases rejected

theorem Routes.storeHandle_rejected
    (rejected : Router.stored handles uid (routes.addMember label size uid) = false) :
    Router.storeHandle routes handles uid ref (routes.addMember label size uid) =
      (routes, handles) := by
  by_cases taken : uid ∈ handles
  · rw [Router.storeHandle, if_pos taken]
  · have refused : (routes.addMember label size uid).2 = false := by
      simpa [Router.stored, taken] using rejected
    exact routes.storeHandle_rolledBack label size uid ref taken (addMember_rejected refused)

/-- The uid is taken, or the label has a route of another size. -/
def RegisterRefused (routes : Routes ρ) (handles : AList (fun _ : HandleUid => HandleRef))
    (object : HandleView) : Prop :=
  object.uid ∈ handles ∨
    ∃ route, routes.table.lookup object.label = some route ∧ labelSize route ≠ object.size

theorem Consistent.stored_iff (consistent : Consistent routes handles view) (object : HandleView) :
    Router.stored handles object.uid (routes.addMember object.label object.size object.uid) = false ↔
      RegisterRefused routes handles object := by
  rw [Router.stored, Bool.and_eq_false_iff, decide_eq_false_iff_not, not_not, RegisterRefused]
  by_cases taken : object.uid ∈ handles
  · simp only [taken, true_or]
  · -- A free uid is in no route, so only the size can be wrong.
    have fresh : ∀ route, routes.table.lookup object.label = some route →
        object.uid ∉ members route := fun _ found => consistent.unlisted taken found
    rw [← Bool.not_eq_true, Routes.addMember_accepted]
    constructor
    · rintro (known | wrong)
      · exact .inl known
      · push Not at wrong
        obtain ⟨route, found, wrong⟩ := wrong
        exact .inr ⟨route, found, fun fits => fresh route found (wrong fits)⟩
    · rintro (known | ⟨route, found, wrong⟩)
      · exact .inl known
      · exact .inr fun good => wrong (good route found).1

/-- A registered handle is always found in its route. -/
theorem Consistent.dropped_iff {object : HandleView} (consistent : Consistent routes handles view)
    (seen : view ref = some object) :
    Router.dropped handles object.uid ref (routes.removeMember object.label object.uid) = false ↔
      handles.lookup object.uid ≠ some ref := by
  by_cases registered : handles.lookup object.uid = some ref
  · obtain ⟨same, route, seen', _, found, listed⟩ := consistent.stored _ _ registered
    cases seen.symm.trans seen'
    have removed : (routes.removeMember object.label object.uid).2 = true := by
      simp only [Routes.removeMember, found, listed, not_true_eq_false, ↓reduceIte]
      split <;> rfl
    simp [Router.dropped, removed]
  · simp [Router.dropped, registered]

theorem Consistent.dropHandle_rejected {object : HandleView}
    (consistent : Consistent routes handles view) (seen : view ref = some object)
    (rejected : Router.dropped handles object.uid ref
      (routes.removeMember object.label object.uid) = false) :
    Router.dropHandle routes handles object.uid ref (routes.removeMember object.label object.uid) =
      (routes, handles) := by
  rw [Router.dropHandle, if_neg ((consistent.dropped_iff seen).mp rejected)]

end Halves

namespace Routes

variable {routes : Routes SendRoute} {kind : Transport} {label : Label} {size : ℕ} {dst : NodeId}

private theorem addSendSubscriber_accepted : (routes.addSendSubscriber kind label size dst).2 = true ↔
    ∃ route, routes.table.lookup label = some route ∧ route.labelSize = size ∧
      dst ∉ route.subscribers kind := by
  unfold addSendSubscriber
  split
  · next missing => simp [missing]
  · next route found => split_ifs <;> simp_all

private theorem addSendSubscriber_rejected
    (rejected : (routes.addSendSubscriber kind label size dst).2 = false) :
    (routes.addSendSubscriber kind label size dst).1 = routes := by
  unfold addSendSubscriber at rejected ⊢
  split
  · rfl
  · next route found =>
    simp only [found] at rejected
    split_ifs at rejected ⊢ <;> rfl

private theorem removeSendSubscriber_accepted :
    (routes.removeSendSubscriber kind label dst).2 = true ↔
    ∃ route, routes.table.lookup label = some route ∧ dst ∈ route.subscribers kind := by
  unfold removeSendSubscriber
  split
  · next missing => simp [missing]
  · next route found => split_ifs <;> simp_all

theorem removeSendSubscriber_rejected
    (rejected : (routes.removeSendSubscriber kind label dst).2 = false) :
    (routes.removeSendSubscriber kind label dst).1 = routes := by
  unfold removeSendSubscriber at rejected ⊢
  split
  · rfl
  · next route found =>
    simp only [found] at rejected
    split_ifs at rejected ⊢
    rfl

end Routes

namespace Router

variable {objects : Objects} {router : Router}

theorem addSubscriber_rejected {kind : Transport} {label : Label} {size : ℕ} {dst : NodeId}
    (rejected : (router.transports.has dst kind &&
      (router.routes.send.addSendSubscriber kind label size dst).2) = false) :
    router.addSubscriber kind label size dst = router := by
  unfold addSubscriber
  split
  · next present =>
    rw [present, Bool.true_and] at rejected
    rw [Routes.addSendSubscriber_rejected rejected]
  · rfl

private theorem openSendShm_rejected {registry : TransportRegistry} {id : NodeId}
    {opened : Option ShmRef}
    (rejected : (registry.openSendShm id opened).2 = false) :
    (registry.openSendShm id opened).1 = registry := by
  unfold TransportRegistry.openSendShm at rejected ⊢
  split_ifs at rejected ⊢
  cases opened with
  | none => rfl
  | some shm => cases rejected

theorem Inv.rejected (inv : Inv objects router) {call : Call}
    (rejected : router.accepts objects call = false) : router.call objects call = router := by
  cases call with
  | registerSendPublisher handle =>
    cases handle with
    | none => rfl
    | some ref =>
      simp only [Router.call, Router.registerSendPublisher, Routes.addSendPublisher]
      rw [Routes.storeHandle_rejected rejected]
  | unregisterSendPublisher handle =>
    cases handle with
    | none => rfl
    | some ref =>
      simp only [Router.call, Router.unregisterSendPublisher, Routes.removeSendPublisher]
      rw [inv.send.dropHandle_rejected (show objects.sendView ref = some _ from rfl) rejected]
  | registerRecvSubscriber handle =>
    cases handle with
    | none => rfl
    | some ref =>
      simp only [Router.call, Router.registerRecvSubscriber, Routes.addRecvSubscriber]
      rw [Routes.storeHandle_rejected rejected]
  | unregisterRecvSubscriber handle =>
    cases handle with
    | none => rfl
    | some ref =>
      simp only [Router.call, Router.unregisterRecvSubscriber, Routes.removeRecvSubscriber]
      rw [inv.recv.dropHandle_rejected (show objects.recvView ref = some _ from rfl) rejected]
  | addLocalSendSubscriber label size dst => exact addSubscriber_rejected rejected
  | addRemoteSendSubscriber label size dst => exact addSubscriber_rejected rejected
  | removeLocalSendSubscriber label dst =>
    simp only [Router.call, Router.removeLocalSendSubscriber, Router.removeSubscriber]
    rw [Routes.removeSendSubscriber_rejected rejected]
  | removeRemoteSendSubscriber label dst =>
    simp only [Router.call, Router.removeRemoteSendSubscriber, Router.removeSubscriber]
    rw [Routes.removeSendSubscriber_rejected rejected]
  | upsertSocket id sock =>
    cases sock with
    | none => rfl
    | some sock => cases rejected
  | openSendShm id opened =>
    simp only [Router.call]
    rw [openSendShm_rejected rejected]

/-- The transport is missing, or no route of this size waits for the node. -/
def SubscribeRefused (router : Router) (kind : Transport) (label : Label) (size : ℕ) (dst : NodeId) :
    Prop :=
  router.transports.has dst kind = false ∨ router.routes.send.table.lookup label = none ∨
    ∃ route, router.routes.send.table.lookup label = some route ∧
      (route.labelSize ≠ size ∨ dst ∈ route.subscribers kind)

def UnsubscribeRefused (router : Router) (kind : Transport) (label : Label) (dst : NodeId) : Prop :=
  router.routes.send.table.lookup label = none ∨
    ∃ route, router.routes.send.table.lookup label = some route ∧ dst ∉ route.subscribers kind

/-- Why a call is rejected, in terms of the state before it. -/
def Refused (objects : Objects) (router : Router) : Call → Prop
  | .registerSendPublisher none => True
  | .registerSendPublisher (some ref) =>
      RegisterRefused router.routes.send router.sendHandles
        ⟨(objects.send ref).uid, (objects.send ref).data.label, (objects.send ref).data.bufSize⟩
  | .unregisterSendPublisher none => True
  | .unregisterSendPublisher (some ref) =>
      router.sendHandles.lookup (objects.send ref).uid ≠ some ref
  | .registerRecvSubscriber none => True
  | .registerRecvSubscriber (some ref) =>
      RegisterRefused router.routes.recv router.recvHandles
        ⟨(objects.recv ref).uid, (objects.recv ref).data.label, (objects.recv ref).data.bufSize⟩
  | .unregisterRecvSubscriber none => True
  | .unregisterRecvSubscriber (some ref) =>
      router.recvHandles.lookup (objects.recv ref).uid ≠ some ref
  | .addLocalSendSubscriber label size dst => router.SubscribeRefused .shm label size dst
  | .addRemoteSendSubscriber label size dst => router.SubscribeRefused .socket label size dst
  | .removeLocalSendSubscriber label dst => router.UnsubscribeRefused .shm label dst
  | .removeRemoteSendSubscriber label dst => router.UnsubscribeRefused .socket label dst
  | .upsertSocket _ sock => sock = none
  | .openSendShm id opened => router.transports.hasSendShm id = false ∧ opened = none

theorem subscribe_refused (router : Router) (kind : Transport) (label : Label) (size : ℕ)
    (dst : NodeId) :
    (router.transports.has dst kind && (router.routes.send.addSendSubscriber kind label size dst).2) =
      false ↔ router.SubscribeRefused kind label size dst := by
  rw [Bool.and_eq_false_iff, SubscribeRefused, ← Bool.not_eq_true (Prod.snd _),
    Routes.addSendSubscriber_accepted]
  cases router.routes.send.table.lookup label with
  | none => simp
  | some route => simp [imp_iff_not_or]

theorem unsubscribe_refused (router : Router) (kind : Transport) (label : Label) (dst : NodeId) :
    (router.routes.send.removeSendSubscriber kind label dst).2 = false ↔
      router.UnsubscribeRefused kind label dst := by
  rw [← Bool.not_eq_true, Routes.removeSendSubscriber_accepted, UnsubscribeRefused]
  cases router.routes.send.table.lookup label with
  | none => simp
  | some route => simp

theorem Inv.refused (inv : Inv objects router) (call : Call) :
    router.accepts objects call = false ↔ router.Refused objects call := by
  cases call with
  | registerSendPublisher handle =>
    cases handle with
    | none => exact iff_of_true rfl trivial
    | some ref =>
      exact inv.send.stored_iff
        ⟨(objects.send ref).uid, (objects.send ref).data.label, (objects.send ref).data.bufSize⟩
  | unregisterSendPublisher handle =>
    cases handle with
    | none => exact iff_of_true rfl trivial
    | some ref => exact inv.send.dropped_iff (show objects.sendView ref = some _ from rfl)
  | registerRecvSubscriber handle =>
    cases handle with
    | none => exact iff_of_true rfl trivial
    | some ref =>
      exact inv.recv.stored_iff
        ⟨(objects.recv ref).uid, (objects.recv ref).data.label, (objects.recv ref).data.bufSize⟩
  | unregisterRecvSubscriber handle =>
    cases handle with
    | none => exact iff_of_true rfl trivial
    | some ref => exact inv.recv.dropped_iff (show objects.recvView ref = some _ from rfl)
  | addLocalSendSubscriber label size dst => exact subscribe_refused router .shm label size dst
  | addRemoteSendSubscriber label size dst => exact subscribe_refused router .socket label size dst
  | removeLocalSendSubscriber label dst => exact unsubscribe_refused router .shm label dst
  | removeRemoteSendSubscriber label dst => exact unsubscribe_refused router .socket label dst
  | upsertSocket id sock => cases sock <;> simp [accepts, Refused]
  | openSendShm id opened =>
    cases known : router.transports.hasSendShm id <;> cases opened <;>
      simp [accepts, Refused, TransportRegistry.openSendShm, known]

/-- After any sequence of calls: a call is rejected for the reasons above and for no other, and a
rejected call changes nothing. A free uid is always accepted for a label without a route. -/
theorem rejected_unchanged (objects : Objects) (calls : List Call) (call : Call) :
    let router := calls.foldl (Router.call objects) .empty
    (router.accepts objects call = false ↔ router.Refused objects call) ∧
      (router.accepts objects call = false → router.call objects call = router) ∧
      (∀ ref, (objects.send ref).uid ∉ router.sendHandles →
        router.routes.send.has (objects.send ref).data.label = false →
        router.accepts objects (.registerSendPublisher (some ref)) = true) ∧
      ∀ ref, (objects.recv ref).uid ∉ router.recvHandles →
        router.routes.recv.has (objects.recv ref).data.label = false →
        router.accepts objects (.registerRecvSubscriber (some ref)) = true := by
  intro router
  have inv : Inv objects router := Inv.calls objects calls
  refine ⟨inv.refused call, inv.rejected, ?_, ?_⟩
  · intro ref fresh unrouted
    rw [← Bool.not_eq_false, inv.refused]
    rintro (taken | ⟨route, found, _⟩)
    · exact fresh taken
    · simp [Routes.has, found] at unrouted
  · intro ref fresh unrouted
    rw [← Bool.not_eq_false, inv.refused]
    rintro (taken | ⟨route, found, _⟩)
    · exact fresh taken
    · simp [Routes.has, found] at unrouted

end Router

end Eroil
