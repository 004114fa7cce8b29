import Eroil.Proofs.Discovery.Update

/-! # Broadcasts and the subscriptions they leave

After a broadcast the subscriptions of its source follow from its receive list, except that a source
which is already subscribed stays subscribed when it lists the label with another size. A broadcast
can be repeated, visits labels in any order, leaves other nodes alone and commutes with broadcasts
of other nodes.
-/

namespace Eroil

open Lib

namespace SendRoute

variable {book : AddressBook} {transports : TransportRegistry} {source : NodeId} {route : SendRoute}

theorem Distinct.nodup_subscribers (distinct : route.Distinct) (kind : Transport) :
    (route.subscribers kind).Nodup := by
  have both := List.nodup_append.mp distinct.nodup
  cases kind with
  | shm => exact both.1
  | socket => exact both.2.1

/-- A subscriber of known transport is in the list of that transport. -/
theorem mem_allSubscribers_of_homed (homed : Node.Homed book route) {kind : Transport}
    (known : book.transport source = some kind) :
    source ∈ route.allSubscribers ↔ source ∈ route.subscribers kind := by
  rw [mem_allSubscribers]
  constructor
  · rintro (member | member)
    · cases known.symm.trans (homed .shm source member)
      exact member
    · cases known.symm.trans (homed .socket source member)
      exact member
  · intro member
    cases kind with
    | shm => exact .inl member
    | socket => exact .inr member

/-- Nodes other than the source, and lists of other transports, are not touched. -/
theorem subscribers_settle_filter (book : AddressBook) (transports : TransportRegistry)
    (source : NodeId) (wanted : Option UInt32) (route : SendRoute) (kind : Transport) :
    ((route.settle book transports source wanted).subscribers kind).filter (· ≠ source) =
      (route.subscribers kind).filter (· ≠ source) := by
  unfold settle welcome dismiss
  cases wanted with
  | some size =>
    cases book.transport source with
    | none => rfl
    | some own =>
      dsimp only
      split
      · unfold subscribe
        split
        · by_cases same : kind = own
          · subst same
            simp [List.filter_append]
          · rw [subscribers_setSubscribers_ne route same]
        · rfl
      · rfl
  | none =>
    cases book.transport source with
    | none => rfl
    | some own =>
      dsimp only [unsubscribe]
      by_cases same : kind = own
      · subst same
        rw [subscribers_setSubscribers, ← List.erase_filter, List.erase_of_not_mem (by simp)]
      · rw [subscribers_setSubscribers_ne route same]

/-- Who is in a list after a broadcast. -/
theorem mem_settle (homed : Node.Homed book route) (distinct : route.Distinct)
    {wanted : Option UInt32} {kind : Transport} {node : NodeId} :
    node ∈ (route.settle book transports source wanted).subscribers kind ↔
      if node = source ∧ book.transport source = some kind then
        ∃ size, wanted = some size ∧ (node ∈ route.subscribers kind ∨
          transports.has source kind = true ∧ route.labelSize = size.toNat)
      else node ∈ route.subscribers kind := by
  cases known : book.transport source with
  | none =>
    have unchanged : route.settle book transports source wanted = route := by
      cases wanted <;> simp [settle, welcome, dismiss, known]
    rw [unchanged]
    simp
  | some own =>
    cases wanted with
    | none =>
      simp only [settle, dismiss, known, mem_unsubscribe (distinct.nodup_subscribers own)]
      split_ifs with here
      · obtain ⟨rfl, same⟩ := here
        cases same
        simp
      · refine and_iff_left fun there => here ⟨there.2, by rw [there.1]⟩
    | some size =>
      have listed := mem_allSubscribers_of_homed homed known
      simp only [settle, welcome, known, listed]
      split_ifs with ready here here
      · obtain ⟨rfl, same⟩ := here
        cases same
        rw [mem_subscribe]
        simp [ready]
      · rw [mem_subscribe]
        refine or_iff_left fun there => here ⟨there.2.1, by rw [there.1]⟩
      · obtain ⟨rfl, same⟩ := here
        cases same
        simp only [Option.some.injEq, exists_eq_left']
        rw [not_and_or, not_not] at ready
        constructor
        · exact .inl
        · rintro (member | ⟨present, _⟩)
          · exact member
          · exact ready.resolve_right (not_not.mpr present)
      · exact Iff.rfl

end SendRoute

namespace Node

variable {book : AddressBook} {node : Node} {source : NodeId}

theorem Reachable.step (reachable : Reachable book node) (action : Action) :
    Reachable book (node.step book action) := by
  obtain ⟨world, run⟩ := reachable
  exact ⟨world, run.tail trivial⟩

theorem Reachable.addSubscribers (reachable : Reachable book node) (source : NodeId)
    (recv : AList (fun _ : Label => UInt32)) :
    Reachable book (node.addSubscribers book source recv) := by
  unfold Node.addSubscribers
  generalize recv.entries = entries
  induction entries generalizing node with
  | nil => exact reachable
  | cons entry rest ih => exact ih (reachable.step (.addSubscriber source entry.1 entry.2))

theorem Reachable.removeSubscribers (reachable : Reachable book node) (source : NodeId)
    (recv : AList (fun _ : Label => UInt32)) :
    Reachable book (node.removeSubscribers book source recv) := by
  unfold Node.removeSubscribers
  generalize node.router.routes.send.getLabels.toList = infos
  induction infos generalizing node with
  | nil => exact reachable
  | cons info rest ih =>
    apply ih
    unfold removeUnlisted
    split
    · exact reachable
    · exact reachable.step (.removeSubscriber source info.label)

theorem Reachable.processBroadcast (reachable : Reachable book node) (source : NodeId)
    (recv : AList (fun _ : Label => UInt32)) :
    Reachable book (node.processBroadcast book source recv) :=
  (reachable.addSubscribers source recv).removeSubscribers source recv

/-- What a broadcast does to a route, in a state that a node can be in. -/
theorem Reachable.processBroadcast_route (reachable : Reachable book node)
    (room : node.router.routes.send.table.entries.length ≤ maxLabels) (source : NodeId)
    (recv : AList (fun _ : Label => UInt32)) (label : Label) :
    (node.processBroadcast book source recv).routeOf label = (node.routeOf label).map fun route =>
      route.settle book node.router.transports source (recv.lookup label) :=
  processBroadcast_routeOf book node source recv
    (fun _ found => reachable.sendInv.label_valid found) room

/-- The node can send to the source of a broadcast: its block is open or its socket registered. -/
def Reached (book : AddressBook) (node : Node) (source : NodeId) : Prop :=
  (book.kind source = .self ∨ book.kind source = .shm) ∧
      node.router.transports.hasSendShm source = true ∨
    book.kind source = .socket ∧ node.router.transports.hasSocket source = true

theorem Reached.transport (reached : Reached book node source) :
    ∃ kind, book.transport source = some kind ∧ node.router.transports.has source kind = true := by
  rcases reached with ⟨known | known, open_⟩ | ⟨known, registered⟩
  · exact ⟨.shm, by simp [AddressBook.transport, known], open_⟩
  · exact ⟨.shm, by simp [AddressBook.transport, known], open_⟩
  · exact ⟨.socket, by simp [AddressBook.transport, known], registered⟩

/-- Whether the source of a broadcast is subscribed to a route afterwards. -/
theorem Reachable.subscribed_after (reachable : Reachable book node)
    (room : node.router.routes.send.table.entries.length ≤ maxLabels)
    (reached : Reached book node source) (recv : AList (fun _ : Label => UInt32)) {label : Label}
    {route : SendRoute} (found : node.routeOf label = some route) :
    (node.processBroadcast book source recv).router.isSendSubscriber label source = true ↔
      ∃ size, recv.lookup label = some size ∧
        (node.router.isSendSubscriber label source = true ∨ size.toNat = route.labelSize) := by
  obtain ⟨kind, known, ready⟩ := reached.transport
  have after := reachable.processBroadcast_route room source recv label
  rw [found, Option.map_some] at after
  have homed := reachable.sendInv.homed label route found
  have homed' := (reachable.processBroadcast source recv).sendInv.homed label _ after
  have distinct := reachable.sendersDistinct label route found
  have before : node.router.isSendSubscriber label source = true ↔
      source ∈ route.subscribers kind := by
    rw [Router.isSendSubscriber_iff, ← SendRoute.mem_allSubscribers_of_homed homed known]
    constructor
    · rintro ⟨other, there, member⟩
      cases found.symm.trans there
      exact member
    · exact fun member => ⟨route, found, member⟩
  have members :
      (node.processBroadcast book source recv).router.isSendSubscriber label source = true ↔
      source ∈
        (route.settle book node.router.transports source (recv.lookup label)).subscribers kind := by
    rw [Router.isSendSubscriber_iff, ← SendRoute.mem_allSubscribers_of_homed homed' known]
    constructor
    · rintro ⟨other, there, member⟩
      cases after.symm.trans there
      exact member
    · exact fun member => ⟨_, after, member⟩
  rw [members, SendRoute.mem_settle homed distinct, if_pos ⟨rfl, known⟩, before]
  simp [ready, eq_comm]

/-- After a broadcast its source is subscribed to exactly the routes whose label it lists with
their size, if and only if it was not subscribed before to a route whose label it lists with
another size. -/
theorem converges_iff (reachable : Reachable book node)
    (room : node.router.routes.send.table.entries.length ≤ maxLabels)
    (reached : Reached book node source) (recv : AList (fun _ : Label => UInt32)) :
    (∀ label route, (node.processBroadcast book source recv).router.routes.send.table.lookup label =
          some route →
        ((node.processBroadcast book source recv).router.isSendSubscriber label source = true ↔
          ∃ size, recv.lookup label = some size ∧ size.toNat = route.labelSize)) ↔
      ¬∃ label route size, node.router.routes.send.table.lookup label = some route ∧
        node.router.isSendSubscriber label source = true ∧ recv.lookup label = some size ∧
        size.toNat ≠ route.labelSize := by
  have after := reachable.processBroadcast_route room source recv
  constructor
  · rintro converged ⟨label, route, size, found, subscribed, listed, differs⟩
    have there := after label
    rw [show node.routeOf label = some route from found, Option.map_some] at there
    have stays :=
      (reachable.subscribed_after room reached recv found).mpr ⟨size, listed, .inl subscribed⟩
    obtain ⟨size', listed', same⟩ := (converged label _ there).mp stays
    rw [(SendRoute.SameHandles.settle book node.router.transports source _ route).labelSize] at same
    cases listed.symm.trans listed'
    exact differs same
  · intro agrees label route there
    have there' : (node.processBroadcast book source recv).routeOf label = some route := there
    rw [after] at there'
    obtain ⟨old, found, rfl⟩ := Option.map_eq_some_iff.mp there'
    rw [reachable.subscribed_after room reached recv found,
      (SendRoute.SameHandles.settle book node.router.transports source _ old).labelSize]
    constructor
    · rintro ⟨size, listed, subscribed | same⟩
      · refine ⟨size, listed, ?_⟩
        by_contra differs
        exact agrees ⟨label, old, size, found, subscribed, listed, differs⟩
      · exact ⟨size, listed, same⟩
    · rintro ⟨size, listed, same⟩
      exact ⟨size, listed, .inr same⟩

section Resized

/-- Node 2 shares the host. -/
def neighbourBook : AddressBook where
  kind id := if id = 2 then .shm else .none
  valid id low := by
    rw [if_neg]
    rintro rfl
    exact absurd low (by decide)

/-- A sender of label 5 with four bytes, to which node 2 has subscribed. -/
def resizedSender : Node :=
  [Action.openSend ⟨5, some 0, 4, false, none, none, 0, 0⟩, .openSendShm 2 (some 0),
    .addSubscriber 2 5 4].foldl (Node.step neighbourBook)
    (.initial ⟨fun _ => 0, fun _ => default, fun _ => 0⟩)

/-- Node 2 has opened label 5 again with eight bytes. -/
def resizedRecv : AList (fun _ : Label => UInt32) := AList.singleton 5 8

theorem resizedSender_reachable : Reachable neighbourBook resizedSender :=
  ⟨_, Reaches.foldl _ (fun _ _ _ => trivial) _⟩

theorem resizedSender_reached : Reached neighbourBook resizedSender 2 :=
  .inl ⟨.inr rfl, by decide⟩

theorem resizedSender_room : resizedSender.router.routes.send.table.entries.length ≤ maxLabels := by
  decide

theorem converges_iff_resized :
    (∀ label route,
        (resizedSender.processBroadcast neighbourBook 2 resizedRecv).router.routes.send.table.lookup
          label = some route →
        ((resizedSender.processBroadcast neighbourBook 2
          resizedRecv).router.isSendSubscriber label 2 =
            true ↔
          ∃ size, resizedRecv.lookup label = some size ∧ size.toNat = route.labelSize)) ↔
      ¬∃ label route size, resizedSender.router.routes.send.table.lookup label = some route ∧
        resizedSender.router.isSendSubscriber label 2 = true ∧ resizedRecv.lookup label = some size ∧
        size.toNat ≠ route.labelSize :=
  converges_iff resizedSender_reachable resizedSender_room resizedSender_reached resizedRecv

/-- Node 2 stays subscribed to a label whose size it no longer accepts. -/
theorem resized_stays_subscribed :
    Reachable neighbourBook resizedSender ∧
      resizedSender.router.routes.send.table.entries.length ≤ maxLabels ∧
      Reached neighbourBook resizedSender 2 ∧
      ¬∀ label route, (resizedSender.processBroadcast neighbourBook 2
            resizedRecv).router.routes.send.table.lookup label = some route →
          ((resizedSender.processBroadcast neighbourBook 2
            resizedRecv).router.isSendSubscriber label 2 =
              true ↔
            ∃ size, resizedRecv.lookup label = some size ∧ size.toNat = route.labelSize) := by
  refine ⟨resizedSender_reachable, resizedSender_room, resizedSender_reached, fun converged => ?_⟩
  have found : resizedSender.routeOf 5 = some ⟨5, 4, [1], [], [2]⟩ := by decide
  have listed : resizedRecv.lookup 5 = some 8 := by decide
  have subscribed : resizedSender.router.isSendSubscriber 5 2 = true := by decide
  have there := resizedSender_reachable.processBroadcast_route resizedSender_room 2 resizedRecv 5
  rw [found, Option.map_some] at there
  have stays := (resizedSender_reachable.subscribed_after resizedSender_room resizedSender_reached
    resizedRecv found).mpr ⟨8, listed, .inl subscribed⟩
  obtain ⟨size, listed', same⟩ := (converged 5 _ there).mp stays
  rw [(SendRoute.SameHandles.settle _ _ _ _ _).labelSize] at same
  cases listed.symm.trans listed'
  exact absurd same (by decide)

end Resized

end Node

/-- Two routers whose maps hold the same, with send routes compared by the given relation. The order
in which a map is iterated is no part of it. -/
structure Router.Related (related : SendRoute → SendRoute → Prop) (left right : Router) : Prop where
  send : ∀ label, Option.Rel related (left.routes.send.table.lookup label)
    (right.routes.send.table.lookup label)
  recv : ∀ label, left.routes.recv.table.lookup label = right.routes.recv.table.lookup label
  gens : left.routes.send.gen = right.routes.send.gen ∧ left.routes.recv.gen = right.routes.recv.gen
  sendHandles : ∀ uid, left.sendHandles.lookup uid = right.sendHandles.lookup uid
  recvHandles : ∀ uid, left.recvHandles.lookup uid = right.recvHandles.lookup uid
  sendShm : ∀ id, left.transports.getSendShm id = right.transports.getSendShm id
  sockets : ∀ id, left.transports.getSocket id = right.transports.getSocket id

/-- The same router state. -/
def Router.Same : Router → Router → Prop := Router.Related Eq

/-- The same subscribers in every list, in any order. -/
structure SendRoute.SameUpToOrder (left right : SendRoute) : Prop where
  handles : left.SameHandles right
  lists : ∀ kind, (left.subscribers kind).Perm (right.subscribers kind)

/-- The same subscribers in every list apart from one node. -/
structure SendRoute.SameApartFrom (source : NodeId) (left right : SendRoute) : Prop where
  handles : left.SameHandles right
  lists : ∀ kind, (right.subscribers kind).filter (· ≠ source) =
    (left.subscribers kind).filter (· ≠ source)

namespace Node

variable {book : AddressBook} {node : Node} {source : NodeId}

/-- The parts of the router that nodes with the same surroundings share. -/
theorem parts_of_surroundings {left right : Node} (same : left.surroundings = right.surroundings) :
    left.router.routes.recv = right.router.routes.recv ∧
      left.router.routes.send.gen = right.router.routes.send.gen ∧
      left.router.transports = right.router.transports ∧
      left.router.sendHandles = right.router.sendHandles ∧
      left.router.recvHandles = right.router.recvHandles := by
  have recv := congrArg (fun node : Node => node.router.routes.recv) same
  have gen := congrArg (fun node : Node => node.router.routes.send.gen) same
  have transports := congrArg (fun node : Node => node.router.transports) same
  have sendHandles := congrArg (fun node : Node => node.router.sendHandles) same
  have recvHandles := congrArg (fun node : Node => node.router.recvHandles) same
  exact ⟨recv, gen, transports, sendHandles, recvHandles⟩

/-- Nodes that differ in their send routes only. -/
theorem related_of_surroundings {related : SendRoute → SendRoute → Prop} {left right : Node}
    (same : left.surroundings = right.surroundings)
    (send : ∀ label, Option.Rel related (left.routeOf label) (right.routeOf label)) :
    Router.Related related left.router right.router := by
  obtain ⟨recv, gen, transports, sendHandles, recvHandles⟩ := parts_of_surroundings same
  exact ⟨send, fun _ => by rw [recv], ⟨gen, by rw [recv]⟩, fun _ => by rw [sendHandles],
    fun _ => by rw [recvHandles], fun _ => by rw [transports], fun _ => by rw [transports]⟩

theorem processBroadcast_transports (book : AddressBook) (node : Node) (source : NodeId)
    (recv : AList (fun _ : Label => UInt32)) :
    (node.processBroadcast book source recv).router.transports = node.router.transports :=
  (parts_of_surroundings (processBroadcast_surroundings book node source recv)).2.2.1

theorem Reachable.processBroadcast_room (reachable : Reachable book node)
    (room : node.router.routes.send.table.entries.length ≤ maxLabels) (source : NodeId)
    (recv : AList (fun _ : Label => UInt32)) :
    (node.processBroadcast book source recv).router.routes.send.table.entries.length ≤ maxLabels := by
  have same : (node.processBroadcast book source recv).router.routes.send.table.entries.length =
      node.router.routes.send.table.entries.length := by
    apply length_entries_of_routeOf
    intro label
    rw [reachable.processBroadcast_route room, Option.isSome_map]
  omega

end Node

namespace SendRoute

variable {book : AddressBook} {transports : TransportRegistry} {source : NodeId} {route : SendRoute}

/-- A route that has settled a broadcast does not change when it comes again. -/
private theorem settle_settle (distinct : route.Distinct) (wanted : Option UInt32) :
    (route.settle book transports source wanted).settle book transports source wanted =
      route.settle book transports source wanted := by
  cases known : book.transport source with
  | none => cases wanted <;> simp [settle, welcome, dismiss, known]
  | some kind =>
    cases wanted with
    | some size =>
      simp only [settle, welcome, known]
      split_ifs with ready again
      · -- The first time did not add the source, so its size does not fit, now as before.
        have missing : source ∉ (route.subscribe kind size.toNat source).subscribers kind := by
          have both := again.1
          rw [mem_allSubscribers, not_or] at both
          cases kind with
          | shm => exact both.1
          | socket => exact both.2
        rw [mem_subscribe, not_or] at missing
        have refused : route.subscribe kind size.toNat source = route := by
          rw [subscribe, if_neg]
          exact fun accepted => missing.2 ⟨rfl, rfl, accepted.1⟩
        rw [refused, refused]
      · rfl
      · rfl
    | none =>
      simp only [settle, dismiss, known]
      have missing : source ∉ (route.unsubscribe kind source).subscribers kind := by
        rw [mem_unsubscribe (distinct.nodup_subscribers kind)]
        exact fun member => member.2 ⟨rfl, rfl⟩
      rw [unsubscribe.eq_def (route.unsubscribe kind source), List.erase_of_not_mem missing,
        setSubscribers_subscribers]

/-- A node that another one's broadcast does not concern is in the same lists after it. -/
theorem mem_settle_other (homed : Node.Homed book route) (distinct : route.Distinct)
    {wanted : Option UInt32} {kind : Transport} {node : NodeId} (different : node ≠ source) :
    node ∈ (route.settle book transports source wanted).subscribers kind ↔
      node ∈ route.subscribers kind := by
  rw [mem_settle homed distinct, if_neg (fun same => different same.1)]

theorem SameHandles.trans {first second third : SendRoute} (left : first.SameHandles second)
    (right : second.SameHandles third) : first.SameHandles third :=
  ⟨right.label.trans left.label, right.labelSize.trans left.labelSize,
    right.publishers.trans left.publishers⟩

theorem SameHandles.symm {first second : SendRoute} (same : first.SameHandles second) :
    second.SameHandles first := ⟨same.label.symm, same.labelSize.symm, same.publishers.symm⟩

end SendRoute

namespace Node

variable {book : AddressBook} {node : Node} {source : NodeId}

/-- Who is in the lists of a route after two broadcasts of different nodes. -/
theorem Reachable.mem_after_both (reachable : Reachable book node)
    (room : node.router.routes.send.table.entries.length ≤ maxLabels) {first second : NodeId}
    (different : first ≠ second) (recv recv' : AList (fun _ : Label => UInt32)) {label : Label}
    {route : SendRoute} (found : node.routeOf label = some route) (kind : Transport)
    (member : NodeId) :
    member ∈ ((route.settle book node.router.transports first (recv.lookup label)).settle book
        node.router.transports second (recv'.lookup label)).subscribers kind ↔
      if member = second then
        member ∈
          (route.settle book node.router.transports second (recv'.lookup label)).subscribers kind
      else member ∈
        (route.settle book node.router.transports first (recv.lookup label)).subscribers kind := by
  have homed := reachable.sendInv.homed label route found
  have distinct := reachable.sendersDistinct label route found
  have after := reachable.processBroadcast_route room first recv label
  rw [found, Option.map_some] at after
  have next := reachable.processBroadcast first recv
  have homed' := next.sendInv.homed label _ after
  have distinct' := next.sendersDistinct label _ after
  split_ifs with own
  · subst own
    rw [SendRoute.mem_settle homed' distinct',
      SendRoute.mem_settle_other homed distinct (Ne.symm different),
      (SendRoute.SameHandles.settle book node.router.transports first _ route).labelSize,
      SendRoute.mem_settle homed distinct]
  · exact SendRoute.mem_settle_other homed' distinct' own

/-- The lists of a route after two broadcasts have no duplicates. -/
theorem Reachable.nodup_after_both (reachable : Reachable book node)
    (room : node.router.routes.send.table.entries.length ≤ maxLabels) (first second : NodeId)
    (recv recv' : AList (fun _ : Label => UInt32)) {label : Label} {route : SendRoute}
    (found : node.routeOf label = some route) (kind : Transport) :
    (((route.settle book node.router.transports first (recv.lookup label)).settle book
      node.router.transports second (recv'.lookup label)).subscribers kind).Nodup := by
  have next := reachable.processBroadcast first recv
  have after := next.processBroadcast_route (reachable.processBroadcast_room room first recv) second
    recv' label
  rw [reachable.processBroadcast_route room, found, Option.map_some, Option.map_some,
    processBroadcast_transports] at after
  exact ((next.processBroadcast second recv').sendersDistinct label _ after).nodup_subscribers kind

theorem rel_of_map {related : SendRoute → SendRoute → Prop} {left right : SendRoute → SendRoute}
    {found : Option SendRoute}
    (pairs : ∀ route, found = some route → related (left route) (right route)) :
    Option.Rel related (found.map left) (found.map right) := by
  cases found with
  | none => exact .none
  | some route => exact .some (pairs route rfl)

private theorem rel_map_right {related : SendRoute → SendRoute → Prop}
    {update : SendRoute → SendRoute}
    (pairs : ∀ route, related route (update route)) (found : Option SendRoute) :
    Option.Rel related found (found.map update) := by
  cases found with
  | none => exact .none
  | some route => exact .some (pairs route)

private theorem eq_of_rel {left right : Option SendRoute} (pair : Option.Rel Eq left right) :
    left = right := by
  cases pair with
  | none => rfl
  | some same => rw [same]

theorem Reachable.broadcast_again (reachable : Reachable book node)
    (room : node.router.routes.send.table.entries.length ≤ maxLabels) (source : NodeId)
    (recv : AList (fun _ : Label => UInt32)) :
    Router.Same ((node.processBroadcast book source recv).processBroadcast book source recv).router
      (node.processBroadcast book source recv).router := by
  have next := reachable.processBroadcast source recv
  refine related_of_surroundings (processBroadcast_surroundings _ _ _ _) fun label => ?_
  rw [next.processBroadcast_route (reachable.processBroadcast_room room source recv),
    reachable.processBroadcast_route room, Option.map_map, processBroadcast_transports]
  apply rel_of_map
  intro route found
  exact SendRoute.settle_settle (reachable.sendersDistinct label route found) _

theorem Reachable.broadcast_concerns_source (reachable : Reachable book node)
    (room : node.router.routes.send.table.entries.length ≤ maxLabels) (source : NodeId)
    (recv : AList (fun _ : Label => UInt32)) :
    Router.Related (SendRoute.SameApartFrom source) node.router
      (node.processBroadcast book source recv).router := by
  refine related_of_surroundings (processBroadcast_surroundings _ _ _ _).symm fun label => ?_
  rw [reachable.processBroadcast_route room]
  apply rel_map_right
  intro route
  exact ⟨.settle book node.router.transports source _ route, fun kind =>
    SendRoute.subscribers_settle_filter book node.router.transports source _ route kind⟩

/-- Maps that are iterated in another order give the same result. -/
theorem Reachable.broadcast_any_order (reachable : Reachable book node)
    (room : node.router.routes.send.table.entries.length ≤ maxLabels) (source : NodeId)
    (recv : AList (fun _ : Label => UInt32)) {other : Node} {recv' : AList (fun _ : Label => UInt32)}
    (same : Router.Same other.router node.router)
    (sameRecv : ∀ label, recv'.lookup label = recv.lookup label) :
    Router.Same (other.processBroadcast book source recv').router
      (node.processBroadcast book source recv).router := by
  have routes : ∀ label, other.routeOf label = node.routeOf label := fun label =>
    eq_of_rel (same.send label)
  have room' : other.router.routes.send.table.entries.length ≤ maxLabels := by
    have lengths : other.router.routes.send.table.entries.length =
        node.router.routes.send.table.entries.length :=
      length_entries_of_routeOf fun label => by rw [routes]
    omega
  have ready :
      ∀ kind, other.router.transports.has source kind = node.router.transports.has source kind := by
    intro kind
    cases kind with
    | shm => exact congrArg Option.isSome (same.sendShm source)
    | socket => exact congrArg Option.isSome (same.sockets source)
  have settled : ∀ wanted route,
      SendRoute.settle book other.router.transports source wanted route =
        SendRoute.settle book node.router.transports source wanted route := by
    intro wanted route
    simp only [SendRoute.settle, SendRoute.welcome, ready]
  obtain ⟨recvPart, gen, transports, sendHandles, recvHandles⟩ :=
    parts_of_surroundings (processBroadcast_surroundings book other source recv')
  obtain ⟨recvPart', gen', transports', sendHandles', recvHandles'⟩ :=
    parts_of_surroundings (processBroadcast_surroundings book node source recv)
  refine ⟨fun label => ?_, ?_, ?_, ?_, ?_, ?_, ?_⟩
  · have after := processBroadcast_routeOf book other source recv'
      (fun route found => reachable.sendInv.label_valid ((routes label).symm.trans found)) room'
    have after' := reachable.processBroadcast_route room source recv label
    show Option.Rel Eq (Node.routeOf _ label) (Node.routeOf _ label)
    rw [after, after', routes, sameRecv]
    apply rel_of_map
    intro route _
    exact settled _ route
  · rw [recvPart, recvPart']
    exact same.recv
  · rw [gen, gen', recvPart, recvPart']
    exact same.gens
  · rw [sendHandles, sendHandles']
    exact same.sendHandles
  · rw [recvHandles, recvHandles']
    exact same.recvHandles
  · rw [transports, transports']
    exact same.sendShm
  · rw [transports, transports']
    exact same.sockets

theorem Reachable.broadcasts_commute (reachable : Reachable book node)
    (room : node.router.routes.send.table.entries.length ≤ maxLabels) {source source' : NodeId}
    (different : source' ≠ source) (recv recv' : AList (fun _ : Label => UInt32)) :
    Router.Related SendRoute.SameUpToOrder
      ((node.processBroadcast book source recv).processBroadcast book source' recv').router
      ((node.processBroadcast book source' recv').processBroadcast book source recv).router := by
  refine related_of_surroundings ?_ fun label => ?_
  · simp only [processBroadcast_surroundings]
  · rw [(reachable.processBroadcast source recv).processBroadcast_route
        (reachable.processBroadcast_room room source recv),
      (reachable.processBroadcast source' recv').processBroadcast_route
        (reachable.processBroadcast_room room source' recv'),
      reachable.processBroadcast_route room, reachable.processBroadcast_route room,
      Option.map_map, Option.map_map, processBroadcast_transports, processBroadcast_transports]
    apply rel_of_map
    intro route found
    have kept := fun source wanted =>
      SendRoute.SameHandles.settle book node.router.transports source wanted
    constructor
    · exact (((kept _ _ _).trans (kept _ _ _)).symm).trans ((kept _ _ route).trans (kept _ _ _))
    · intro kind
      apply (List.perm_ext_iff_of_nodup (reachable.nodup_after_both room _ _ recv recv' found kind)
        (reachable.nodup_after_both room _ _ recv' recv found kind)).mpr
      intro member
      rw [reachable.mem_after_both room (Ne.symm different) recv recv' found,
        reachable.mem_after_both room different recv' recv found]
      have homed := reachable.sendInv.homed label route found
      have distinct := reachable.sendersDistinct label route found
      split_ifs with first second second
      · exact absurd (first.symm.trans second) different
      · exact Iff.rfl
      · exact Iff.rfl
      · rw [SendRoute.mem_settle_other homed distinct first,
          SendRoute.mem_settle_other homed distinct second]

/-- Processing a broadcast is idempotent, concerns its source alone, does not depend on the order in
which maps are iterated and commutes with the broadcasts of other nodes. -/
theorem broadcast_laws (reachable : Reachable book node)
    (room : node.router.routes.send.table.entries.length ≤ maxLabels) (source : NodeId)
    (recv : AList (fun _ : Label => UInt32)) :
    Router.Same ((node.processBroadcast book source recv).processBroadcast book source recv).router
        (node.processBroadcast book source recv).router ∧
      Router.Related (SendRoute.SameApartFrom source) node.router
        (node.processBroadcast book source recv).router ∧
      (∀ (other : Node) (recv' : AList (fun _ : Label => UInt32)),
        Router.Same other.router node.router →
        (∀ label, recv'.lookup label = recv.lookup label) →
        Router.Same (other.processBroadcast book source recv').router
          (node.processBroadcast book source recv).router) ∧
      ∀ (source' : NodeId) (recv' : AList (fun _ : Label => UInt32)), source' ≠ source →
        Router.Related SendRoute.SameUpToOrder
          ((node.processBroadcast book source recv).processBroadcast book source' recv').router
          ((node.processBroadcast book source' recv').processBroadcast book source recv).router := by
  refine ⟨reachable.broadcast_again room source recv,
    reachable.broadcast_concerns_source room source recv, ?_, ?_⟩
  · intro other recv' same sameRecv
    exact reachable.broadcast_any_order room source recv same sameRecv
  · intro source' recv' different
    exact reachable.broadcasts_commute room different recv recv'

theorem broadcast_laws_resized :
    Reachable neighbourBook resizedSender ∧
      resizedSender.router.routes.send.table.entries.length ≤ maxLabels ∧
      Router.Same ((resizedSender.processBroadcast neighbourBook 2 resizedRecv).processBroadcast
          neighbourBook 2 resizedRecv).router
        (resizedSender.processBroadcast neighbourBook 2 resizedRecv).router ∧
      Router.Related (SendRoute.SameApartFrom 2) resizedSender.router
        (resizedSender.processBroadcast neighbourBook 2 resizedRecv).router :=
  have laws := broadcast_laws resizedSender_reachable resizedSender_room 2 resizedRecv
  ⟨resizedSender_reachable, resizedSender_room, laws.1, laws.2.1⟩

end Node

end Eroil
