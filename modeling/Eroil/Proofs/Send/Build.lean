import Eroil.Proofs.Router.NodeCalls
import Eroil.Proofs.Send.Completion

/-! # Which sends become a job

A job is built exactly for a registered handle that sends its own label with the size of its route,
and it reaches every subscriber of the route through a transport that exists. Each clause rests on
the agreement of handles, routes and transports.
-/

namespace Eroil

open Lib

section Router

variable {router : Router} {view : HandleRef → Option HandleView} {myId : NodeId} {label : Label}
  {uid : HandleUid} {sendBuf : SendBuf} {seq : ℕ}

/-- A job is built for a registered handle of the label and a payload of the size of its route. -/
private theorem Consistent.buildSendJob_iff
    (consistent : Consistent router.routes.send router.sendHandles view) :
    (∃ job, router.buildSendJob myId label uid sendBuf seq = .ok job) ↔
      ∃ ref object route, router.getSendHandle uid = some ref ∧ view ref = some object ∧
        object.label = label ∧ router.routes.send.table.lookup label = some route ∧
        sendBuf.totalSize = route.labelSize + sizeofLabelHeader := by
  constructor
  · rintro ⟨job, built⟩
    obtain ⟨route, publisher, found, size, registered, listed, -⟩ := JobRun.buildSendJob_ok.mp built
    obtain ⟨ref, object, known, seen, -, labelled, -⟩ :=
      consistent.routed label route uid found listed
    exact ⟨ref, object, route, known, seen, labelled, found, size.symm⟩
  · rintro ⟨ref, object, route, registered, seen, rfl, found, size⟩
    -- The route of the object's own label lists its uid.
    obtain ⟨same, own, seen', -, there, listed⟩ := consistent.stored uid ref registered
    cases seen.symm.trans seen'
    cases found.symm.trans there
    exact ⟨_, JobRun.buildSendJob_ok.mpr ⟨route, ref, found, size.symm, registered, listed, rfl⟩⟩

private theorem Consistent.buildSendJob_noPublishers
    (consistent : Consistent router.routes.send router.sendHandles view) :
    router.buildSendJob myId label uid sendBuf seq ≠ .error .noPublishers := by
  unfold Router.buildSendJob
  split
  · simp
  · next route found =>
    have nonempty : route.publishers ≠ [] := consistent.nonempty label route found
    simp only [nonempty, ↓reduceIte]
    repeat' split
    all_goals simp

/-- No receiver of a route is missing. -/
theorem SendRoute.Served.receivers {transports : TransportRegistry} {route : SendRoute}
    (served : Served transports route) :
    none ∉ route.localSubscribers.map transports.getSendShm ∧
      none ∉ route.remoteSubscribers.map transports.getSocket := by
  constructor
  · intro missing
    obtain ⟨dst, listed, unknown⟩ := List.mem_map.mp missing
    have present : (transports.getSendShm dst).isSome = true := (served .shm).2 dst listed
    rw [unknown] at present
    cases present
  · intro missing
    obtain ⟨dst, listed, unknown⟩ := List.mem_map.mp missing
    have present : (transports.getSocket dst).isSome = true := (served .socket).2 dst listed
    rw [unknown] at present
    cases present

end Router

namespace Node

variable {book : AddressBook} {node : Node}

/-- In every reachable state: when a job is built, that a route never lacks publishers, and whom the
job is for. -/
theorem job_for_subscribers (reachable : Reachable book node) (myId : NodeId) (label : Label)
    (uid : HandleUid) (sendBuf : SendBuf) (seq : ℕ) :
    ((∃ job, node.router.buildSendJob myId label uid sendBuf seq = .ok job) ↔
      ∃ ref handle route, node.router.getSendHandle uid = some ref ∧
        node.sendObjects[ref]? = some handle ∧ handle.data.label = label ∧
        node.router.routes.send.table.lookup label = some route ∧
        sendBuf.totalSize = route.labelSize + sizeofLabelHeader) ∧
      node.router.buildSendJob myId label uid sendBuf seq ≠ .error .noPublishers ∧
      ∀ job, node.router.buildSendJob myId label uid sendBuf seq = .ok job →
        ∃ route, node.router.routes.send.table.lookup label = some route ∧
          node.router.getSendHandle uid = some job.publisher ∧
          job.localRecvrs = route.localSubscribers.map node.router.transports.getSendShm ∧
          job.remoteRecvrs = route.remoteSubscribers.map node.router.transports.getSocket ∧
          none ∉ job.localRecvrs ∧ none ∉ job.remoteRecvrs ∧
          job.pendingSends = route.localSubscribers.length + route.remoteSubscribers.length := by
  have consistent := reachable.sendInv.consistent
  refine ⟨consistent.buildSendJob_iff.trans ?_, consistent.buildSendJob_noPublishers, ?_⟩
  · constructor
    · rintro ⟨ref, object, route, registered, seen, labelled, rest⟩
      obtain ⟨handle, there, rfl⟩ := Option.map_eq_some_iff.mp seen
      exact ⟨ref, handle, route, registered, there, labelled, rest⟩
    · rintro ⟨ref, handle, route, registered, there, labelled, rest⟩
      exact ⟨ref, _, route, registered, by rw [sendView, there]; rfl, labelled, rest⟩
  · intro job built
    obtain ⟨route, publisher, found, -, registered, -, rfl⟩ := JobRun.buildSendJob_ok.mp built
    obtain ⟨noLocal, noRemote⟩ := (reachable.routerInv.served label route found).receivers
    exact ⟨route, found, registered, rfl, rfl, noLocal, noRemote,
      wrap32_of_lt (reachable.subscribers_lt found)⟩

open JobRun in
/-- Two receivers for one label: a job for the handle that opened it. -/
theorem job_for_subscribers_pair :
    (∃ job, pairNode.router.buildSendJob 1 5 1 pairBuf 0 = .ok job) ∧
      pairNode.router.buildSendJob 1 5 2 pairBuf 0 ≠ .error .noPublishers := by
  have reachable : Reachable pairBook pairNode :=
    ⟨_, Reaches.foldl _ (fun _ _ _ => trivial) _⟩
  exact ⟨(job_for_subscribers reachable 1 5 1 pairBuf 0).1.mpr
    ⟨0, pairPublisher, ⟨5, 4, [1], [2], [1]⟩, rfl, rfl, rfl, rfl, rfl⟩,
    (job_for_subscribers reachable 1 5 2 pairBuf 0).2.1⟩

end Node

end Eroil
