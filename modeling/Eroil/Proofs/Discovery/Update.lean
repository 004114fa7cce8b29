import Eroil.Lib.KeyedFold
import Eroil.Model.Discovery.Broadcast
import Eroil.Proofs.Router.SendNode

/-! # What one broadcast does to the routes

The two loops of a broadcast are a map over the send routes: each route is rewritten by itself, from
what the broadcast says about its label, and nothing else of the node changes. This holds for any
order in which the loops visit the labels.
-/

namespace Eroil

open Lib

namespace SendRoute

variable (book : AddressBook) (transports : TransportRegistry) (source : NodeId)

/-- The route after its label was found in the receive list, with the given size. -/
def welcome (size : ℕ) (route : SendRoute) : SendRoute :=
  match book.transport source with
  | none => route
  | some kind =>
      if source ∉ route.allSubscribers ∧ transports.has source kind = true then
        route.subscribe kind size source
      else route

/-- The route after its label was missed in the receive list. -/
def dismiss (route : SendRoute) : SendRoute :=
  match book.transport source with
  | none => route
  | some kind => route.unsubscribe kind source

/-- The route after a broadcast that lists its label or not. -/
def settle (wanted : Option UInt32) (route : SendRoute) : SendRoute :=
  match wanted with
  | some size => route.welcome book transports source size.toNat
  | none => route.dismiss book source

theorem SameHandles.refl (route : SendRoute) : SameHandles route route := ⟨rfl, rfl, rfl⟩

theorem SameHandles.settle (wanted : Option UInt32) (route : SendRoute) :
    SameHandles route (route.settle book transports source wanted) := by
  unfold SendRoute.settle welcome dismiss
  cases wanted with
  | some size =>
    cases book.transport source with
    | none => exact .refl route
    | some kind =>
      dsimp only
      split
      · exact .subscribe route kind _ source
      · exact .refl route
  | none =>
    cases book.transport source with
    | none => exact .refl route
    | some kind => exact .unsubscribe route kind source

end SendRoute

theorem Router.isSendSubscriber_iff {router : Router} {label : Label} {dst : NodeId} :
    router.isSendSubscriber label dst = true ↔
      ∃ route, router.routes.send.table.lookup label = some route ∧ dst ∈ route.allSubscribers := by
  cases found : router.routes.send.table.lookup label with
  | none =>
    simp [Router.isSendSubscriber, Routes.isRemoteSendSubscriber, Routes.isLocalSendSubscriber,
      Routes.isSendSubscriber, found]
  | some route =>
    simp [Router.isSendSubscriber, Routes.isRemoteSendSubscriber, Routes.isLocalSendSubscriber,
      Routes.isSendSubscriber, found, SendRoute.mem_allSubscribers, or_comm]

namespace Node

variable {book : AddressBook} {node : Node} {source : NodeId}

/-- The send routes of a node, seen by label. -/
def routeOf (node : Node) (label : Label) : Option SendRoute :=
  node.router.routes.send.table.lookup label

/-- Everything but the send routes. -/
def surroundings (node : Node) : Node := { node with router.routes.send.table := ∅ }

theorem addSubscriber_routeOf (book : AddressBook) (node : Node) (source : NodeId) (label : Label)
    (size : ℕ) (query : Label) :
    (node.addSubscriber book source label size).routeOf query = (node.routeOf query).map fun route =>
      if query = label ∧ invalidLabel < label then
        route.welcome book node.router.transports source size
      else route := by
  rcases addSubscriber_cases book node source label size with
    ⟨same, reason⟩ | ⟨kind, valid, absent, known, changed⟩
  · rw [same]
    cases found : node.routeOf query with
    | none => rfl
    | some route =>
      rw [Option.map_some]
      congr 1
      split_ifs with here
      · obtain ⟨rfl, valid⟩ := here
        rcases reason with low | missing | listed | unknown
        · exact absurd valid (Int32.not_lt.mpr low)
        · rw [routeOf] at found
          simp [Router.hasSendRoute, Routes.has, found] at missing
        · obtain ⟨other, there, member⟩ := Router.isSendSubscriber_iff.mp listed
          cases found.symm.trans there
          unfold SendRoute.welcome
          split
          · rfl
          · rw [if_neg (fun wanted => wanted.1 member)]
        · simp [SendRoute.welcome, unknown]
      · rfl
  · have notListed : ∀ route, node.routeOf label = some route → source ∉ route.allSubscribers := by
      intro route found member
      rw [Router.isSendSubscriber_iff.mpr ⟨route, found, member⟩] at absent
      cases absent
    rw [changed]
    unfold Router.addSubscriber
    cases present : node.router.transports.has source kind with
    | false =>
      simp [SendRoute.welcome, known, present]
    | true =>
      simp only [if_true]
      show (node.router.routes.send.addSendSubscriber kind label size source).1.table.lookup query = _
      rw [Routes.addSendSubscriber_lookup]
      cases found : node.router.routes.send.table.lookup query with
      | none => simp [routeOf, found]
      | some route =>
        simp only [routeOf, found, Option.map_some]
        congr 1
        by_cases here : query = label
        · subst here
          simp [valid, SendRoute.welcome, known, present, notListed route found]
        · simp [here]

private theorem addSubscriber_surroundings (book : AddressBook) (node : Node) (source : NodeId)
    (label : Label) (size : ℕ) :
    (node.addSubscriber book source label size).surroundings = node.surroundings := by
  rcases addSubscriber_cases book node source label size with ⟨same, _⟩ | ⟨kind, _, _, _, changed⟩
  · rw [same]
  · rw [changed]
    unfold Router.addSubscriber
    split
    · simp [surroundings, Routes.addSendSubscriber_gen]
    · rfl

theorem removeSubscriber_routeOf (book : AddressBook) (node : Node) (source : NodeId) (label : Label)
    (query : Label) :
    (node.removeSubscriber book source label).routeOf query = (node.routeOf query).map fun route =>
      if query = label ∧ invalidLabel < label then route.dismiss book source else route := by
  rcases removeSubscriber_cases book node source label with
    ⟨same, reason⟩ | ⟨kind, valid, known, changed⟩
  · rw [same]
    cases found : node.routeOf query with
    | none => rfl
    | some route =>
      rw [Option.map_some]
      congr 1
      split_ifs with here
      · obtain ⟨rfl, valid⟩ := here
        unfold SendRoute.dismiss
        rcases reason with low | absent | unknown
        · exact absurd valid (Int32.not_lt.mpr low)
        · have missing : source ∉ route.allSubscribers := by
            intro member
            rw [Router.isSendSubscriber_iff.mpr ⟨route, found, member⟩] at absent
            cases absent
          cases book.transport source with
          | none => rfl
          | some kind =>
            have unlisted : source ∉ route.subscribers kind := by
              rw [SendRoute.mem_allSubscribers, not_or] at missing
              cases kind with
              | shm => exact missing.1
              | socket => exact missing.2
            simp [SendRoute.unsubscribe, List.erase_of_not_mem unlisted]
        · simp [unknown]
      · rfl
  · rw [changed]
    show (node.router.routes.send.removeSendSubscriber kind label source).1.table.lookup query = _
    rw [Routes.removeSendSubscriber_lookup]
    cases found : node.router.routes.send.table.lookup query with
    | none => simp [routeOf, found]
    | some route => simp [routeOf, found, valid, SendRoute.dismiss, known]

private theorem removeSubscriber_surroundings (book : AddressBook) (node : Node) (source : NodeId)
    (label : Label) :
    (node.removeSubscriber book source label).surroundings = node.surroundings := by
  rcases removeSubscriber_cases book node source label with ⟨same, _⟩ | ⟨kind, _, _, changed⟩
  · rw [same]
  · rw [changed]
    simp [surroundings, Router.removeSubscriber, Routes.removeSendSubscriber_gen]

/-- The loop of `add_subscriber` as a map over the routes. -/
theorem addSubscribers_keyed (book : AddressBook) (source : NodeId) :
    Keyed (fun node (entry : Sigma fun _ : Label => UInt32) =>
        node.addSubscriber book source entry.1 entry.2.toNat)
      routeOf surroundings Sigma.fst (fun frame entry value => value.map fun route =>
        if invalidLabel < entry.1 then
          route.welcome book frame.router.transports source entry.2.toNat
        else route) where
  own node entry := by
    rw [addSubscriber_routeOf]
    simp [surroundings]
  other node entry query different := by
    rw [addSubscriber_routeOf]
    simp [different]
  kept node entry := addSubscriber_surroundings book node source entry.1 entry.2.toNat

/-- The loop of `remove_subscriber` as a map over the routes. -/
theorem removeUnlisted_keyed (book : AddressBook) (source : NodeId)
    (recv : AList (fun _ : Label => UInt32)) :
    Keyed (removeUnlisted book source recv) routeOf surroundings LabelInfo.label
      (fun _ info value => value.map fun route =>
        if info.label ∉ recv ∧ invalidLabel < info.label then route.dismiss book source
        else route) where
  own node info := by
    unfold removeUnlisted
    split
    · next listed => simp [listed]
    · next unlisted =>
      rw [removeSubscriber_routeOf]
      simp [unlisted]
  other node info query different := by
    unfold removeUnlisted
    split
    · rfl
    · rw [removeSubscriber_routeOf]
      simp [different]
  kept node info := by
    unfold removeUnlisted
    split
    · rfl
    · exact removeSubscriber_surroundings book node source info.label

private theorem addSubscribers_surroundings (book : AddressBook) (node : Node) (source : NodeId)
    (recv : AList (fun _ : Label => UInt32)) :
    (node.addSubscribers book source recv).surroundings = node.surroundings :=
  (addSubscribers_keyed book source).frame_foldl recv.entries node

theorem addSubscribers_routeOf (book : AddressBook) (node : Node) (source : NodeId)
    (recv : AList (fun _ : Label => UInt32)) (label : Label) :
    (node.addSubscribers book source recv).routeOf label = (node.routeOf label).map fun route =>
      match recv.lookup label with
      | some size =>
          if invalidLabel < label then
            route.welcome book node.router.transports source size.toNat
          else route
      | none => route := by
  have nodup : (recv.entries.map Sigma.fst).Nodup := recv.nodupKeys
  cases found : recv.lookup label with
  | none =>
    have absent : label ∉ recv.entries.map Sigma.fst := AList.lookup_eq_none.mp found
    rw [addSubscribers, (addSubscribers_keyed book source).get_foldl_of_not_mem absent]
    simp
  | some size =>
    have member : (⟨label, size⟩ : Sigma fun _ : Label => UInt32) ∈ recv.entries :=
      AList.mem_lookup_iff.mp found
    have own := (addSubscribers_keyed book source).get_foldl_of_mem nodup member node
    rw [addSubscribers, own]
    rfl

/-- The number of send routes depends on the labels that have one. -/
theorem length_entries_of_routeOf {other : Node}
    (same : ∀ label, (other.routeOf label).isSome = (node.routeOf label).isSome) :
    other.router.routes.send.table.entries.length = node.router.routes.send.table.entries.length := by
  have keys : ∀ label, label ∈ other.router.routes.send.table.keys ↔
      label ∈ node.router.routes.send.table.keys := by
    intro label
    have iff := same label
    rw [Bool.eq_iff_iff, routeOf, routeOf, AList.lookup_isSome, AList.lookup_isSome] at iff
    exact iff
  have perm := (List.perm_ext_iff_of_nodup other.router.routes.send.table.keys_nodup
    node.router.routes.send.table.keys_nodup).mpr keys
  simpa [AList.keys, List.keys] using perm.length_eq

private theorem addSubscribers_length (book : AddressBook) (node : Node) (source : NodeId)
    (recv : AList (fun _ : Label => UInt32)) :
    (node.addSubscribers book source recv).router.routes.send.table.entries.length =
      node.router.routes.send.table.entries.length := by
  apply length_entries_of_routeOf
  intro label
  rw [addSubscribers_routeOf, Option.isSome_map]

end Node

namespace Routes

variable {ρ : Type} [HandleRoute ρ] (routes : Routes ρ)

/-- The entry of one route in the label array. -/
def labelInfo (entry : Sigma fun _ : Label => ρ) : LabelInfo :=
  ⟨entry.1, UInt32.ofNat (HandleRoute.labelSize entry.2)⟩

/-- The label array is the first routes followed by empty entries. -/
theorem getLabels_toList : routes.getLabels.toList =
    (routes.table.entries.take maxLabels).map labelInfo ++
      List.replicate (maxLabels - routes.table.entries.length) ({} : LabelInfo) := by
  have lengths :
      (routes.table.entries.take maxLabels).length = min maxLabels routes.table.entries.length :=
    List.length_take
  apply List.ext_getElem
  · simp
    omega
  · intro index bound bound'
    have small : index < maxLabels := by simpa using bound
    simp only [getLabels, Vector.getElem_toList, Vector.getElem_ofFn]
    by_cases here : index < routes.table.entries.length
    · have inside : index < (routes.table.entries.take maxLabels).length := by omega
      rw [List.getElem_append_left (by simpa using inside)]
      simp [List.getElem?_eq_getElem here, labelInfo]
    · rw [List.getElem_append_right (by simp; omega)]
      simp [List.getElem?_eq_none (Nat.not_lt.mp here)]

/-- The entries with a valid label are those of the first routes with a valid label. -/
theorem getLabels_valid :
    routes.getLabels.toList.filter (fun info => decide (invalidLabel < info.label)) =
      ((routes.table.entries.take maxLabels).filter fun entry =>
        invalidLabel < entry.1).map labelInfo := by
  rw [getLabels_toList, List.filter_append, List.filter_map]
  have empty : (List.replicate (maxLabels - routes.table.entries.length) ({} : LabelInfo)).filter
      (fun info => decide (invalidLabel < info.label)) = [] := by
    rw [List.filter_eq_nil_iff]
    intro info member
    rw [List.eq_of_mem_replicate member]
    decide
  rw [empty, List.append_nil]
  rfl

end Routes

namespace Node

variable {book : AddressBook} {node : Node} {source : NodeId}

/-- Rounds of `remove_subscriber` for empty entries do nothing. -/
private theorem removeSubscribers_eq (book : AddressBook) (node : Node) (source : NodeId)
    (recv : AList (fun _ : Label => UInt32)) :
    node.removeSubscribers book source recv =
      (node.router.routes.send.getLabels.toList.filter fun info => invalidLabel < info.label).foldl
        (removeUnlisted book source recv) node := by
  rw [removeSubscribers, List.foldl_filter]
  congr 1
  funext node info
  split
  · rfl
  · next low =>
    have low : info.label ≤ invalidLabel := by simpa using low
    rw [removeUnlisted, removeSubscriber, if_pos low, ite_self]

private theorem removeSubscribers_surroundings (book : AddressBook) (node : Node) (source : NodeId)
    (recv : AList (fun _ : Label => UInt32)) :
    (node.removeSubscribers book source recv).surroundings = node.surroundings :=
  (removeUnlisted_keyed book source recv).frame_foldl _ node

/-- The labels that the loop of `remove_subscriber` looks at. -/
def visited (node : Node) : List Label :=
  ((node.router.routes.send.table.entries.take maxLabels).filter fun entry =>
    invalidLabel < entry.1).map
    Sigma.fst

private theorem removeSubscribers_visited (book : AddressBook) (node : Node) (source : NodeId)
    (recv : AList (fun _ : Label => UInt32)) (label : Label) :
    (node.removeSubscribers book source recv).routeOf label = (node.routeOf label).map fun route =>
      if label ∈ node.visited ∧ label ∉ recv then route.dismiss book source else route := by
  have keys : ((((node.router.routes.send.table.entries.take maxLabels).filter fun entry =>
      invalidLabel < entry.1).map Routes.labelInfo).map LabelInfo.label) =
        node.visited := List.map_map
  have nodup : node.visited.Nodup := List.NodupKeys.sublist
    (List.filter_sublist.trans (List.take_sublist _ _)) node.router.routes.send.table.nodupKeys
  rw [removeSubscribers_eq, Routes.getLabels_valid]
  by_cases reached : label ∈ node.visited
  · have member := reached
    rw [visited, List.mem_map] at member
    obtain ⟨entry, kept, rfl⟩ := member
    have own := (removeUnlisted_keyed book source recv).get_foldl_of_mem (keys ▸ nodup)
      (List.mem_map_of_mem kept) node
    have valid : invalidLabel < entry.1 := by simpa using (List.mem_filter.mp kept).2
    refine own.trans ?_
    simp [Routes.labelInfo, valid, reached]
  · rw [(removeUnlisted_keyed book source recv).get_foldl_of_not_mem (by rw [keys]; exact reached)]
    simp [reached]

/-- If the label array holds all routes, the loop reaches every one of them. -/
private theorem mem_visited (room : node.router.routes.send.table.entries.length ≤ maxLabels)
    {label : Label}
    {route : SendRoute} (found : node.routeOf label = some route) (valid : invalidLabel < label) :
    label ∈ node.visited := by
  have member : (⟨label, route⟩ : Sigma fun _ : Label => SendRoute) ∈
      node.router.routes.send.table.entries := AList.mem_lookup_iff.mp found
  rw [visited, List.take_of_length_le room]
  exact List.mem_map.mpr ⟨_, List.mem_filter.mpr ⟨member, by simpa using valid⟩, rfl⟩

theorem processBroadcast_surroundings (book : AddressBook) (node : Node) (source : NodeId)
    (recv : AList (fun _ : Label => UInt32)) :
    (node.processBroadcast book source recv).surroundings = node.surroundings := by
  rw [processBroadcast, removeSubscribers_surroundings, addSubscribers_surroundings]

/-- A broadcast rewrites each route by itself. -/
theorem processBroadcast_visited (book : AddressBook) (node : Node) (source : NodeId)
    (recv : AList (fun _ : Label => UInt32)) (label : Label) :
    (node.processBroadcast book source recv).routeOf label = (node.routeOf label).map fun route =>
      match recv.lookup label with
      | some size =>
          if invalidLabel < label then
            route.welcome book node.router.transports source size.toNat
          else route
      | none =>
          if label ∈ (node.addSubscribers book source recv).visited then route.dismiss book source
          else route := by
  rw [processBroadcast, removeSubscribers_visited, addSubscribers_routeOf, Option.map_map]
  congr 1
  funext route
  cases wanted : recv.lookup label with
  | none =>
    have unlisted : label ∉ recv := AList.lookup_eq_none.mp wanted
    simp [unlisted]
  | some size =>
    have listed : label ∈ recv := AList.lookup_isSome.mp (by rw [wanted]; rfl)
    simp [listed]

/-- A route is rewritten from what the broadcast says about its label, if its label is looked at. -/
theorem processBroadcast_routeOf (book : AddressBook) (node : Node) (source : NodeId)
    (recv : AList (fun _ : Label => UInt32)) {label : Label}
    (valid : ∀ route, node.routeOf label = some route → invalidLabel < label)
    (room : node.router.routes.send.table.entries.length ≤ maxLabels) :
    (node.processBroadcast book source recv).routeOf label = (node.routeOf label).map fun route =>
      route.settle book node.router.transports source (recv.lookup label) := by
  rw [processBroadcast_visited]
  cases found : node.routeOf label with
  | none => rfl
  | some route =>
    have high := valid route found
    rw [Option.map_some, Option.map_some]
    congr 1
    cases wanted : recv.lookup label with
    | some size => simp [SendRoute.settle, high]
    | none =>
      have found' : (node.addSubscribers book source recv).routeOf label = some route := by
        rw [addSubscribers_routeOf, found, wanted]
        rfl
      have reached : label ∈ (node.addSubscribers book source recv).visited :=
        mem_visited (by rw [addSubscribers_length]; exact room) found' high
      simp [SendRoute.settle, reached]

end Node

end Eroil
