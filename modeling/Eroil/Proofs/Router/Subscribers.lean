import Mathlib.Data.List.Perm.Subperm
import Eroil.Proofs.Router.RecvNode

/-! # How many nodes a label can have

A node is added to a label at most once, as a local or as a remote subscriber, and only if the
address book knows it. Known ids are not negative, so a label never has more than `2^31`
subscribers and the 32-bit count of a send job holds their number.
-/

namespace Eroil

open Lib

namespace SendRoute

/-- All nodes that receive the label. -/
def allSubscribers (route : SendRoute) : List NodeId :=
  route.localSubscribers ++ route.remoteSubscribers

/-- No node twice, and only valid ids. -/
structure Distinct (route : SendRoute) : Prop where
  nodup : route.allSubscribers.Nodup
  valid : ∀ id ∈ route.allSubscribers, invalidNode < id

private theorem nodeId_toNat_lt (id : NodeId) : id.toInt.toNat < 2 ^ 31 := by
  have upper := id.toInt_lt
  omega

theorem nodeId_nonneg {id : NodeId} (valid : invalidNode < id) : 0 ≤ id.toInt := by
  have below := Int32.lt_iff_toInt_lt.mp valid
  have minus : invalidNode.toInt = -1 := by decide
  omega

theorem Distinct.length_le {route : SendRoute} (distinct : Distinct route) :
    route.localSubscribers.length + route.remoteSubscribers.length ≤ 2 ^ 31 := by
  have injective : ∀ first ∈ route.allSubscribers, ∀ second ∈ route.allSubscribers,
      first.toInt.toNat = second.toInt.toNat → first = second := by
    intro first member second member' same
    have lower := nodeId_nonneg (distinct.valid first member)
    have lower' := nodeId_nonneg (distinct.valid second member')
    exact Int32.toInt_inj.mp (by omega)
  have nodup : (route.allSubscribers.map fun id => id.toInt.toNat).Nodup :=
    distinct.nodup.map_on injective
  have within : (route.allSubscribers.map fun id => id.toInt.toNat) ⊆ List.range (2 ^ 31) := by
    intro value member
    obtain ⟨id, _, rfl⟩ := List.mem_map.mp member
    exact List.mem_range.mpr (nodeId_toNat_lt id)
  have bound := (List.subperm_of_subset nodup within).length_le
  rwa [List.length_map, List.length_range, allSubscribers, List.length_append] at bound

/-- A node that is in neither list can be appended to either. -/
theorem Distinct.add {route : SendRoute} (distinct : Distinct route) (kind : Transport) {dst : NodeId}
    (valid : invalidNode < dst) (fresh : dst ∉ route.allSubscribers) :
    Distinct (route.setSubscribers kind (route.subscribers kind ++ [dst])) := by
  have permuted : (route.setSubscribers kind (route.subscribers kind ++ [dst])).allSubscribers.Perm
      (dst :: route.allSubscribers) := by
    cases kind with
    | shm =>
      show (route.localSubscribers ++ [dst] ++ route.remoteSubscribers).Perm _
      rw [List.append_assoc]
      exact List.perm_middle
    | socket =>
      show (route.localSubscribers ++ (route.remoteSubscribers ++ [dst])).Perm _
      rw [← List.append_assoc]
      exact List.perm_append_singleton _ _
  refine ⟨permuted.nodup_iff.mpr (List.nodup_cons.mpr ⟨fresh, distinct.nodup⟩), ?_⟩
  intro id member
  rcases List.mem_cons.mp (permuted.mem_iff.mp member) with rfl | old
  · exact valid
  · exact distinct.valid id old

theorem Distinct.remove {route : SendRoute} (distinct : Distinct route) (kind : Transport)
    (dst : NodeId) : Distinct (route.setSubscribers kind ((route.subscribers kind).erase dst)) := by
  have smaller :
      (route.setSubscribers kind ((route.subscribers kind).erase dst)).allSubscribers.Sublist
      route.allSubscribers := by
    cases kind with
    | shm => exact List.erase_sublist.append_right _
    | socket => exact List.erase_sublist.append_left _
  exact ⟨distinct.nodup.sublist smaller, fun id member => distinct.valid id (smaller.subset member)⟩

theorem mem_allSubscribers {route : SendRoute} {id : NodeId} :
    id ∈ route.allSubscribers ↔ id ∈ route.subscribers .shm ∨ id ∈ route.subscribers .socket :=
  List.mem_append

end SendRoute

namespace Routes

variable {routes : Routes SendRoute} {label : Label}

/-- Every route of the table has distinct subscribers. -/
def AllDistinct (routes : Routes SendRoute) : Prop :=
  ∀ label route, routes.table.lookup label = some route → route.Distinct

theorem AllDistinct.empty : AllDistinct Routes.empty := Each.empty

private theorem distinct_create (label : Label) (size : ℕ) :
    SendRoute.Distinct (HandleRoute.create label size) :=
  ⟨List.nodup_nil, fun _ member => by cases member⟩

theorem distinct_setMembers (route : SendRoute) (uids : List HandleUid) (distinct : route.Distinct) :
    SendRoute.Distinct (HandleRoute.setMembers route uids) := ⟨distinct.nodup, distinct.valid⟩

theorem AllDistinct.addSendSubscriber (distinct : AllDistinct routes) (kind : Transport)
    (label : Label) (size : ℕ) {dst : NodeId} (valid : invalidNode < dst)
    (noLocal : routes.isLocalSendSubscriber label dst = false)
    (noRemote : routes.isRemoteSendSubscriber label dst = false) :
    AllDistinct (routes.addSendSubscriber kind label size dst).1 := by
  unfold Routes.addSendSubscriber
  split
  · exact distinct
  · next route found =>
    split_ifs
    · exact distinct
    · exact distinct
    · apply Each.insert distinct
      apply (distinct label route found).add kind valid
      rw [SendRoute.mem_allSubscribers, not_or]
      constructor
      · simpa [isLocalSendSubscriber, isSendSubscriber, found] using noLocal
      · simpa [isRemoteSendSubscriber, isSendSubscriber, found] using noRemote

theorem AllDistinct.removeSendSubscriber (distinct : AllDistinct routes) (kind : Transport)
    (label : Label) (dst : NodeId) : AllDistinct (routes.removeSendSubscriber kind label dst).1 := by
  unfold Routes.removeSendSubscriber
  split
  · exact distinct
  · next route found =>
    split_ifs
    · exact Each.insert distinct _ ((distinct label route found).remove kind dst)
    · exact distinct

end Routes

namespace Node

variable {node : Node}

/-- The invariant of the send routes. -/
def SendersDistinct (node : Node) : Prop := node.router.routes.send.AllDistinct

theorem SendersDistinct.addSubscriber (book : AddressBook) (distinct : SendersDistinct node)
    (source : NodeId) (label : Label) (size : ℕ) :
    SendersDistinct (node.addSubscriber book source label size) := by
  unfold Node.addSubscriber
  split_ifs with _ _ subscribed
  any_goals exact distinct
  -- A node of known kind has a valid id, and the check above covers both lists.
  have valid : book.kind source ≠ .none → invalidNode < source := by
    intro known
    by_contra low
    exact known (book.valid source (Int32.not_lt.mp low))
  have absent : node.router.routes.send.isRemoteSendSubscriber label source = false ∧
      node.router.routes.send.isLocalSendSubscriber label source = false := by
    simpa [Router.isSendSubscriber] using subscribed
  have added : ∀ kind, book.kind source ≠ .none →
      SendersDistinct { node with router := node.router.addSubscriber kind label size source } := by
    intro kind known
    unfold Router.addSubscriber
    split
    · exact Routes.AllDistinct.addSendSubscriber distinct kind label size (valid known) absent.2
        absent.1
    · exact distinct
  split
  · next known => exact added .shm (by simp [known])
  · next known => exact added .shm (by simp [known])
  · next known => exact added .socket (by simp [known])
  · exact distinct

theorem SendersDistinct.removeSubscriber (book : AddressBook) (distinct : SendersDistinct node)
    (source : NodeId) (label : Label) :
    SendersDistinct (node.removeSubscriber book source label) := by
  unfold Node.removeSubscriber
  split_ifs
  any_goals exact distinct
  split
  · exact Routes.AllDistinct.removeSendSubscriber distinct .shm label source
  · exact Routes.AllDistinct.removeSendSubscriber distinct .shm label source
  · exact Routes.AllDistinct.removeSendSubscriber distinct .socket label source
  · exact distinct

theorem deliverTo_router (arrival : Arrival) (node : Node) (ref : HandleRef) :
    (node.deliverTo arrival ref).router = node.router := by
  unfold Node.deliverTo
  split <;> rfl

private theorem foldl_deliverTo_router (arrival : Arrival) (refs : List HandleRef) (node : Node) :
    (refs.foldl (Node.deliverTo arrival) node).router = node.router := by
  induction refs generalizing node with
  | nil => rfl
  | cons ref rest ih => rw [List.foldl_cons, ih, deliverTo_router]

theorem distributeRecvdLabel_router (arrival : Arrival) (node : Node) :
    (node.distributeRecvdLabel arrival).router = node.router := by
  unfold Node.distributeRecvdLabel
  split
  · rfl
  · exact foldl_deliverTo_router arrival _ node

theorem SendersDistinct.step (book : AddressBook) (node : Node) (action : Action)
    (distinct : SendersDistinct node) : SendersDistinct (node.step book action) := by
  cases action with
  | openSend data =>
    simp only [Node.step, Node.openSend]
    split
    · exact Routes.Each.storeHandle distinct _ _ _ _ (Routes.distinct_create _ _) fun _ =>
        Routes.distinct_setMembers
    · exact distinct
  | closeSend ref =>
    simp only [Node.step, Node.closeSend]
    split
    · exact distinct
    · exact Routes.Each.dropHandle distinct _ _ _ fun _ => Routes.distinct_setMembers
  | openRecv request =>
    simp only [Node.step, Node.openRecv]
    split <;> exact distinct
  | closeRecv ref =>
    simp only [Node.step, Node.closeRecv]
    split <;> exact distinct
  | callRecv ref call =>
    simp only [Node.step, Node.callRecv]
    split <;> exact distinct
  | distribute arrival =>
    show (node.distributeRecvdLabel arrival).router.routes.send.AllDistinct
    rw [distributeRecvdLabel_router]
    exact distinct
  | addSubscriber source label size => exact distinct.addSubscriber book source label size.toNat
  | removeSubscriber source label => exact distinct.removeSubscriber book source label
  | openSendShm id opened => exact distinct
  | upsertSocket id sock => exact distinct

theorem Reachable.sendersDistinct {book : AddressBook} (reachable : Reachable book node) :
    SendersDistinct node := by
  obtain ⟨world, run⟩ := reachable
  exact run.invariant SendersDistinct (show SendersDistinct (.initial world) from
    Routes.AllDistinct.empty)
    fun state action distinct _ => distinct.step book state action

/-- In every reachable state the subscribers of a label fit in a 32-bit count. -/
theorem Reachable.subscribers_lt {book : AddressBook} (reachable : Reachable book node)
    {label : Label}
    {route : SendRoute} (found : node.router.routes.send.table.lookup label = some route) :
    route.localSubscribers.length + route.remoteSubscribers.length < 2 ^ 32 := by
  have bound := (reachable.sendersDistinct label route found).length_le
  omega

end Node

end Eroil
