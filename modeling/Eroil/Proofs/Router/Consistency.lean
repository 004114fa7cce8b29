import Eroil.Lib.Machine
import Eroil.Proofs.Router.Registry

/-! # The containers of the router agree

Handles, routes and transports after any sequence of calls. Adding or removing a subscriber
rewrites one send route and leaves its handles alone, so these calls are seen as a map over the
routes; the calls that store and drop handles do not look at subscribers.
-/

namespace Eroil

open Lib HandleRoute

namespace SendRoute

/-- The route after a node asked for the label with the given size. -/
def subscribe (route : SendRoute) (kind : Transport) (size : ℕ) (dst : NodeId) : SendRoute :=
  if route.labelSize = size ∧ dst ∉ route.subscribers kind then
    route.setSubscribers kind (route.subscribers kind ++ [dst])
  else route

/-- The route after a node was struck from one of its lists. -/
def unsubscribe (route : SendRoute) (kind : Transport) (dst : NodeId) : SendRoute :=
  route.setSubscribers kind ((route.subscribers kind).erase dst)

@[simp] theorem subscribers_setSubscribers (route : SendRoute) (kind : Transport)
    (nodes : List NodeId) : (route.setSubscribers kind nodes).subscribers kind = nodes := by
  cases kind <;> rfl

theorem subscribers_setSubscribers_ne (route : SendRoute) {kind other : Transport}
    (different : other ≠ kind) (nodes : List NodeId) :
    (route.setSubscribers kind nodes).subscribers other = route.subscribers other := by
  cases kind <;> cases other
  · exact absurd rfl different
  · rfl
  · rfl
  · exact absurd rfl different

@[simp] theorem setSubscribers_subscribers (route : SendRoute) (kind : Transport) :
    route.setSubscribers kind (route.subscribers kind) = route := by
  cases kind <;> rfl

/-- Subscriber lists are all that the second route may have of its own. -/
structure SameHandles (route other : SendRoute) : Prop where
  label : other.label = route.label
  labelSize : other.labelSize = route.labelSize
  publishers : other.publishers = route.publishers

theorem SameHandles.setSubscribers (route : SendRoute) (kind : Transport) (nodes : List NodeId) :
    SameHandles route (route.setSubscribers kind nodes) := by
  cases kind <;> exact ⟨rfl, rfl, rfl⟩

theorem SameHandles.subscribe (route : SendRoute) (kind : Transport) (size : ℕ) (dst : NodeId) :
    SameHandles route (route.subscribe kind size dst) := by
  unfold SendRoute.subscribe
  split
  · exact .setSubscribers route kind _
  · exact ⟨rfl, rfl, rfl⟩

theorem SameHandles.unsubscribe (route : SendRoute) (kind : Transport) (dst : NodeId) :
    SameHandles route (route.unsubscribe kind dst) := .setSubscribers route kind _

theorem mem_subscribe {route : SendRoute} {kind other : Transport} {size : ℕ} {dst node : NodeId} :
    node ∈ (route.subscribe kind size dst).subscribers other ↔ node ∈ route.subscribers other ∨
      other = kind ∧ node = dst ∧ route.labelSize = size := by
  unfold subscribe
  by_cases same : other = kind
  · subst same
    split_ifs with accepted
    · simp [accepted.1]
    · constructor
      · exact .inl
      · rintro (listed | ⟨_, rfl, sized⟩)
        · exact listed
        · by_contra missing
          exact accepted ⟨sized, missing⟩
  · split_ifs
    · rw [subscribers_setSubscribers_ne route same]
      simp [same]
    · simp [same]

theorem mem_unsubscribe {route : SendRoute} {kind other : Transport} {dst node : NodeId}
    (nodup : (route.subscribers kind).Nodup) :
    node ∈ (route.unsubscribe kind dst).subscribers other ↔ node ∈ route.subscribers other ∧
      ¬(other = kind ∧ node = dst) := by
  unfold unsubscribe
  by_cases same : other = kind
  · subst same
    rw [subscribers_setSubscribers, nodup.mem_erase_iff]
    simp [and_comm]
  · rw [subscribers_setSubscribers_ne route same]
    simp [same]

private theorem nodup_subscribe {route : SendRoute} {other : Transport} (kind : Transport) (size : ℕ)
    (dst : NodeId) (nodup : (route.subscribers other).Nodup) :
    ((route.subscribe kind size dst).subscribers other).Nodup := by
  unfold subscribe
  split_ifs with accepted
  · by_cases same : other = kind
    · subst same
      rw [subscribers_setSubscribers, ← List.concat_eq_append]
      exact nodup.concat accepted.2
    · rw [subscribers_setSubscribers_ne route same]
      exact nodup
  · exact nodup

theorem subscribers_unsubscribe_sublist (route : SendRoute) (kind other : Transport) (dst : NodeId) :
    ((route.unsubscribe kind dst).subscribers other).Sublist (route.subscribers other) := by
  unfold unsubscribe
  by_cases same : other = kind
  · subst same
    rw [subscribers_setSubscribers]
    exact List.erase_sublist
  · rw [subscribers_setSubscribers_ne route same]

end SendRoute

namespace Routes

variable (routes : Routes SendRoute) (kind : Transport) (label : Label) (size : ℕ) (dst : NodeId)

/-- Replacing a route by a function of it is a map over the lookups. -/
theorem lookup_insert_map {table : AList (fun _ : Label => SendRoute)} {label : Label}
    {route : SendRoute} (found : table.lookup label = some route) (update : SendRoute → SendRoute)
    (query : Label) : (table.insert label (update route)).lookup query =
      (table.lookup query).map fun other => if query = label then update other else other := by
  by_cases same : query = label
  · subst same
    rw [AList.lookup_insert, found, Option.map_some, if_pos rfl]
  · rw [AList.lookup_insert_ne same]
    simp [same]

theorem addSendSubscriber_lookup (query : Label) :
    (routes.addSendSubscriber kind label size dst).1.table.lookup query =
      (routes.table.lookup query).map fun route =>
        if query = label then route.subscribe kind size dst else route := by
  cases found : routes.table.lookup label with
  | none =>
    have unchanged : (routes.addSendSubscriber kind label size dst).1 = routes := by
      simp [addSendSubscriber, found]
    rw [unchanged]
    by_cases same : query = label
    · rw [same, found]
      rfl
    · simp [same]
  | some route =>
    by_cases accepted : route.labelSize = size ∧ dst ∉ route.subscribers kind
    · have inserted : (routes.addSendSubscriber kind label size dst).1.table =
          routes.table.insert label (route.subscribe kind size dst) := by
        simp [addSendSubscriber, found, SendRoute.subscribe, accepted]
      rw [inserted]
      exact lookup_insert_map found (fun other => other.subscribe kind size dst) query
    · have unchanged : (routes.addSendSubscriber kind label size dst).1 = routes := by
        simp only [addSendSubscriber, found]
        split_ifs with wrong listed
        · rfl
        · rfl
        · exact absurd ⟨not_not.mp wrong, listed⟩ accepted
      rw [unchanged]
      by_cases same : query = label
      · rw [same, found]
        simp [SendRoute.subscribe, accepted]
      · simp [same]

theorem addSendSubscriber_gen :
    (routes.addSendSubscriber kind label size dst).1.gen = routes.gen := by
  unfold addSendSubscriber
  split
  · rfl
  · split_ifs <;> rfl

theorem removeSendSubscriber_lookup (query : Label) :
    (routes.removeSendSubscriber kind label dst).1.table.lookup query =
      (routes.table.lookup query).map fun route =>
        if query = label then route.unsubscribe kind dst else route := by
  cases found : routes.table.lookup label with
  | none =>
    have unchanged : (routes.removeSendSubscriber kind label dst).1 = routes := by
      simp [removeSendSubscriber, found]
    rw [unchanged]
    by_cases same : query = label
    · rw [same, found]
      rfl
    · simp [same]
  | some route =>
    by_cases listed : dst ∈ route.subscribers kind
    · have inserted : (routes.removeSendSubscriber kind label dst).1.table =
          routes.table.insert label (route.unsubscribe kind dst) := by
        simp [removeSendSubscriber, found, SendRoute.unsubscribe, listed]
      rw [inserted]
      exact lookup_insert_map found (fun other => other.unsubscribe kind dst) query
    · have unchanged : (routes.removeSendSubscriber kind label dst).1 = routes := by
        simp [removeSendSubscriber, found, listed]
      have nothing : route.unsubscribe kind dst = route := by
        rw [SendRoute.unsubscribe, List.erase_of_not_mem listed, SendRoute.setSubscribers_subscribers]
      rw [unchanged]
      by_cases same : query = label
      · rw [same, found, Option.map_some, if_pos rfl, nothing]
      · simp [same]

theorem removeSendSubscriber_gen :
    (routes.removeSendSubscriber kind label dst).1.gen = routes.gen := by
  unfold removeSendSubscriber
  split
  · rfl
  · split_ifs <;> rfl

end Routes

/-- Rewriting subscriber lists does not disturb handles. -/
theorem Consistent.map_routes {routes routes' : Routes SendRoute}
    {handles : AList (fun _ : HandleUid => HandleRef)} {view : HandleRef → Option HandleView}
    (consistent : Consistent routes handles view) (update : Label → SendRoute → SendRoute)
    (after : ∀ label, routes'.table.lookup label = (routes.table.lookup label).map (update label))
    (kept : ∀ label (route : SendRoute), route.SameHandles (update label route)) :
    Consistent routes' handles view := by
  have before : ∀ {label route}, routes'.table.lookup label = some route →
      ∃ old, routes.table.lookup label = some old ∧ old.SameHandles route := by
    intro label route found
    rw [after] at found
    obtain ⟨old, there, rfl⟩ := Option.map_eq_some_iff.mp found
    exact ⟨old, there, kept label old⟩
  constructor
  · intro uid ref found
    obtain ⟨object, route, seen, named, there, listed⟩ := consistent.stored uid ref found
    refine ⟨object, update object.label route, seen, named, by rw [after, there]; rfl, ?_⟩
    show uid ∈ (update object.label route).publishers
    rw [(kept object.label route).publishers]
    exact listed
  · intro label route uid found listed
    obtain ⟨old, there, same⟩ := before found
    have earlier : uid ∈ old.publishers := same.publishers ▸ listed
    obtain ⟨ref, object, rest⟩ := consistent.routed label old uid there earlier
    refine ⟨ref, object, ?_⟩
    show _ ∧ _ ∧ _ ∧ _ ∧ object.size = route.labelSize
    rw [same.labelSize]
    exact rest
  · intro label route found
    obtain ⟨old, there, same⟩ := before found
    show route.label = label
    rw [same.label]
    exact consistent.labelled label old there
  · intro label route found
    obtain ⟨old, there, same⟩ := before found
    show route.publishers ≠ []
    rw [same.publishers]
    exact consistent.nonempty label old there
  · intro label route found
    obtain ⟨old, there, same⟩ := before found
    show route.publishers.Nodup
    rw [same.publishers]
    exact consistent.nodup label old there

/-- A property of routes survives a rewriting of the lists that keeps it. -/
theorem Routes.Each.map_routes {routes routes' : Routes SendRoute} {good : Label → SendRoute → Prop}
    (each : Routes.Each good routes) (update : Label → SendRoute → SendRoute)
    (after : ∀ label, routes'.table.lookup label = (routes.table.lookup label).map (update label))
    (kept : ∀ label route, good label route → good label (update label route)) :
    Routes.Each good routes' := by
  intro label route found
  rw [after] at found
  obtain ⟨old, there, rfl⟩ := Option.map_eq_some_iff.mp found
  exact kept label old (each label old there)

/-- Every subscriber of the route is listed once and can be reached. -/
def SendRoute.Served (transports : TransportRegistry) (route : SendRoute) : Prop :=
  ∀ kind, (route.subscribers kind).Nodup ∧
    ∀ dst ∈ route.subscribers kind, transports.has dst kind = true

namespace SendRoute.Served

variable {transports transports' : TransportRegistry} {route : SendRoute}

/-- Transports are only ever added. -/
theorem mono (served : Served transports route)
    (kept : ∀ dst kind, transports.has dst kind = true → transports'.has dst kind = true) :
    Served transports' route := by
  intro kind
  obtain ⟨nodup, reached⟩ := served kind
  exact ⟨nodup, fun dst member => kept dst kind (reached dst member)⟩

theorem create (label : Label) (size : ℕ) :
    Served transports (HandleRoute.create label size : SendRoute) := by
  intro kind
  cases kind <;> exact ⟨List.nodup_nil, fun _ member => by cases member⟩

theorem setMembers (route : SendRoute) (uids : List HandleUid) (served : Served transports route) :
    Served transports (HandleRoute.setMembers route uids) := by
  intro kind
  cases kind with
  | shm => exact served .shm
  | socket => exact served .socket

theorem subscribe (served : Served transports route) {kind : Transport} {dst : NodeId}
    (present : transports.has dst kind = true) (size : ℕ) :
    Served transports (route.subscribe kind size dst) := by
  intro other
  refine ⟨nodup_subscribe kind size dst (served other).1, fun node member => ?_⟩
  rcases mem_subscribe.mp member with earlier | ⟨rfl, rfl, _⟩
  · exact (served other).2 node earlier
  · exact present

theorem unsubscribe (served : Served transports route) (kind : Transport) (dst : NodeId) :
    Served transports (route.unsubscribe kind dst) := by
  intro other
  have smaller := route.subscribers_unsubscribe_sublist kind other dst
  exact ⟨(served other).1.sublist smaller, fun node member =>
    (served other).2 node (smaller.subset member)⟩

end SendRoute.Served

namespace TransportRegistry

variable (registry : TransportRegistry)

/-- A registered socket or sender stays registered when a socket is. -/
private theorem has_upsertSocket (id : NodeId) (sock : Option SockRef) {dst : NodeId}
    {kind : Transport}
    (present : registry.has dst kind = true) :
    (registry.upsertSocket id sock).1.has dst kind = true := by
  cases sock with
  | none => exact present
  | some sock =>
    cases kind with
    | shm => exact present
    | socket =>
      show ((registry.sockets.insert id sock).lookup dst).isSome = true
      by_cases same : dst = id
      · rw [same, AList.lookup_insert]
        rfl
      · rw [AList.lookup_insert_ne same]
        exact present

private theorem has_openSendShm (id : NodeId) (opened : Option ShmRef) {dst : NodeId}
    {kind : Transport}
    (present : registry.has dst kind = true) :
    (registry.openSendShm id opened).1.has dst kind = true := by
  unfold openSendShm
  split
  · exact present
  · cases opened with
    | none => exact present
    | some shm =>
      cases kind with
      | socket => exact present
      | shm =>
        show ((registry.sendShm.insert id shm).lookup dst).isSome = true
        by_cases same : dst = id
        · rw [same, AList.lookup_insert]
          rfl
        · rw [AList.lookup_insert_ne same]
          exact present

end TransportRegistry

namespace Router

/-- The fields of the callers' objects that registration reads. -/
def Objects.sendView (objects : Objects) (ref : HandleRef) : Option HandleView :=
  some ⟨(objects.send ref).uid, (objects.send ref).data.label, (objects.send ref).data.bufSize⟩

def Objects.recvView (objects : Objects) (ref : HandleRef) : Option HandleView :=
  some ⟨(objects.recv ref).uid, (objects.recv ref).data.label, (objects.recv ref).data.bufSize⟩

structure Inv (objects : Objects) (router : Router) : Prop where
  send : Consistent router.routes.send router.sendHandles objects.sendView
  recv : Consistent router.routes.recv router.recvHandles objects.recvView
  served : router.routes.send.Each fun _ => SendRoute.Served router.transports

variable {objects : Objects} {router : Router}

theorem Inv.empty (objects : Objects) : Inv objects Router.empty where
  send := .empty _
  recv := .empty _
  served := .empty

theorem Inv.addSubscriber (inv : Inv objects router) (kind : Transport) (label : Label) (size : ℕ)
    (dst : NodeId) : Inv objects (router.addSubscriber kind label size dst) := by
  unfold Router.addSubscriber
  split
  · next present =>
    have after := router.routes.send.addSendSubscriber_lookup kind label size dst
    refine ⟨inv.send.map_routes _ after fun query route => ?_, inv.recv,
      inv.served.map_routes _ after fun query route served => ?_⟩
    · split
      · exact .subscribe route kind size dst
      · exact ⟨rfl, rfl, rfl⟩
    · split
      · exact served.subscribe present size
      · exact served
  · exact inv

theorem Inv.removeSubscriber (inv : Inv objects router) (kind : Transport) (label : Label)
    (dst : NodeId) : Inv objects (router.removeSubscriber kind label dst) := by
  have after := router.routes.send.removeSendSubscriber_lookup kind label dst
  refine ⟨inv.send.map_routes _ after fun query route => ?_, inv.recv,
    inv.served.map_routes _ after fun query route served => ?_⟩
  · split
    · exact .unsubscribe route kind dst
    · exact ⟨rfl, rfl, rfl⟩
  · split
    · exact served.unsubscribe kind dst
    · exact served

theorem Inv.registerSendPublisher (inv : Inv objects router) (ref : HandleRef) :
    Inv objects (router.registerSendPublisher ref (objects.send ref)) :=
  ⟨inv.send.storeHandle rfl, inv.recv,
    inv.served.storeHandle _ _ _ _ (.create _ _) fun _ => SendRoute.Served.setMembers⟩

theorem Inv.unregisterSendPublisher (inv : Inv objects router) (ref : HandleRef) :
    Inv objects (router.unregisterSendPublisher ref (objects.send ref)) :=
  ⟨inv.send.dropHandle rfl, inv.recv, inv.served.dropHandle _ _ _ fun _ =>
    SendRoute.Served.setMembers⟩

/-- More transports serve the same routes. -/
theorem Inv.transports (inv : Inv objects router) {transports : TransportRegistry}
    (kept : ∀ dst kind, router.transports.has dst kind = true → transports.has dst kind = true) :
    Inv objects { router with transports := transports } :=
  ⟨inv.send, inv.recv, fun label route found => (inv.served label route found).mono kept⟩

theorem Inv.call (inv : Inv objects router) (call : Call) :
    Inv objects (router.call objects call) := by
  cases call with
  | registerSendPublisher handle =>
    cases handle with
    | none => exact inv
    | some ref => exact inv.registerSendPublisher ref
  | unregisterSendPublisher handle =>
    cases handle with
    | none => exact inv
    | some ref => exact inv.unregisterSendPublisher ref
  | registerRecvSubscriber handle =>
    cases handle with
    | none => exact inv
    | some ref => exact ⟨inv.send, inv.recv.storeHandle rfl, inv.served⟩
  | unregisterRecvSubscriber handle =>
    cases handle with
    | none => exact inv
    | some ref => exact ⟨inv.send, inv.recv.dropHandle rfl, inv.served⟩
  | addLocalSendSubscriber label size dst => exact inv.addSubscriber .shm label size dst
  | addRemoteSendSubscriber label size dst => exact inv.addSubscriber .socket label size dst
  | removeLocalSendSubscriber label dst => exact inv.removeSubscriber .shm label dst
  | removeRemoteSendSubscriber label dst => exact inv.removeSubscriber .socket label dst
  | upsertSocket id sock =>
    exact inv.transports fun _ _ => router.transports.has_upsertSocket id sock
  | openSendShm id opened =>
    exact inv.transports fun _ _ => router.transports.has_openSendShm id opened

/-- The invariant after any sequence of calls. -/
theorem Inv.calls (objects : Objects) (calls : List Call) :
    Inv objects (calls.foldl (Router.call objects) .empty) :=
  (Reaches.foldl calls (fun _ _ _ => trivial) _ :
    Reaches (Router.call objects) (fun _ _ => True) .empty _).invariant (Inv objects) (.empty objects)
    fun _ call inv _ => inv.call call

/-- One half of the router: its handles, and the uids that its routes list, are the same. -/
structure HalfAgrees {ρ : Type} [HandleRoute ρ] (routes : Routes ρ)
    (handles : AList (fun _ : HandleUid => HandleRef)) (view : HandleRef → Option HandleView) :
    Prop where
  listed : ∀ uid, uid ∈ handles ↔
    ∃! label, ∃ route, routes.table.lookup label = some route ∧ uid ∈ members route
  fits : ∀ uid ref label route, handles.lookup uid = some ref →
    routes.table.lookup label = some route → uid ∈ members route →
    ∃ object, view ref = some object ∧ object.uid = uid ∧ labelOf route = object.label ∧
      labelSize route = object.size
  nonempty : ∀ label route, routes.table.lookup label = some route → members route ≠ []
  nodup : ∀ label route, routes.table.lookup label = some route → (members route).Nodup

/-- Agreement of all containers of the router. -/
structure Agrees (objects : Objects) (router : Router) : Prop where
  send : HalfAgrees router.routes.send router.sendHandles objects.sendView
  recv : HalfAgrees router.routes.recv router.recvHandles objects.recvView
  nodup : ∀ label route, router.routes.send.table.lookup label = some route →
    route.localSubscribers.Nodup ∧ route.remoteSubscribers.Nodup
  localReached : ∀ label route dst, router.routes.send.table.lookup label = some route →
    dst ∈ route.localSubscribers → (router.transports.getSendShm dst).isSome = true
  remoteReached : ∀ label route dst, router.routes.send.table.lookup label = some route →
    dst ∈ route.remoteSubscribers → (router.transports.getSocket dst).isSome = true

end Router

theorem Consistent.halfAgrees {ρ : Type} [HandleRoute ρ] {routes : Routes ρ}
    {handles : AList (fun _ : HandleUid => HandleRef)} {view : HandleRef → Option HandleView}
    (consistent : Consistent routes handles view) : Router.HalfAgrees routes handles view where
  listed uid := by
    constructor
    · intro member
      obtain ⟨ref, found⟩ := Option.isSome_iff_exists.mp (AList.lookup_isSome.mpr member)
      obtain ⟨object, route, seen, _, there, listed⟩ := consistent.stored uid ref found
      refine ⟨object.label, ⟨route, there, listed⟩, ?_⟩
      rintro label ⟨other, there', listed'⟩
      -- A second route that lists the uid stands for the same object, so for the same label.
      obtain ⟨ref', object', found', seen', _, labelled, _⟩ :=
        consistent.routed label other uid there' listed'
      cases found.symm.trans found'
      cases seen.symm.trans seen'
      exact labelled.symm
    · rintro ⟨label, ⟨route, there, listed⟩, _⟩
      obtain ⟨ref, _, found, _⟩ := consistent.routed label route uid there listed
      exact AList.lookup_isSome.mp (by rw [found]; rfl)
  fits uid ref label route found there listed := by
    obtain ⟨ref', object, found', seen, named, labelled, sized⟩ :=
      consistent.routed label route uid there listed
    cases found.symm.trans found'
    exact ⟨object, seen, named, (consistent.labelled label route there).trans labelled.symm,
      sized.symm⟩
  nonempty := consistent.nonempty
  nodup := consistent.nodup

/-- After any sequence of calls, with any handle objects, the containers of the router agree. -/
theorem Router.calls_agree (objects : Router.Objects) (calls : List Router.Call) :
    Router.Agrees objects (calls.foldl (Router.call objects) .empty) := by
  have inv := Router.Inv.calls objects calls
  refine ⟨inv.send.halfAgrees, inv.recv.halfAgrees, ?_, ?_, ?_⟩
  · intro label route found
    exact ⟨(inv.served label route found .shm).1, (inv.served label route found .socket).1⟩
  · intro label route dst found member
    exact (inv.served label route found .shm).2 dst member
  · intro label route dst found member
    exact (inv.served label route found .socket).2 dst member

end Eroil
