import Eroil.Model.Shm.Receiver
import Eroil.Proofs.Router.Subscribed
import Eroil.Proofs.Shm.Forward

/-! # From the senders to a subscriber's buffer

The worker of a block serves one message at a time, so what it hands to a subscriber comes in the
order of the ring. With what is known of the ring and of a handle among the others, a subscriber is
a mailbox of the labels that were sent to it.
-/

namespace Eroil.Shm

open Lib

namespace ShmRecvWorker

variable {ι : Type*}

/-- One call of `recv` dispatches at most one label, and the drain goes on after it. -/
theorem poll_cases (worker : ShmRecvWorker ι) (expired : Bool) :
    (worker.poll expired).dispatched = worker.dispatched ∨
      ∃ dispatch, (worker.poll expired).dispatched = worker.dispatched ++ [dispatch] ∧
        (worker.poll expired).pc = .draining := by
  unfold poll
  split
  · exact .inl rfl
  · next draining =>
    split
    · next run returned =>
      unfold getNextRecord
      split
      · unfold take
        split
        · exact .inl rfl
        · exact .inl rfl
        · exact .inr ⟨_, rfl, not_not.mp draining⟩
      · exact .inl rfl
      · split <;> exact .inl rfl
      all_goals exact .inl rfl
    · exact .inl rfl
    · exact .inl rfl

/-- Outside of `recv` nothing is dispatched, and a drain goes on. -/
theorem step_dispatched [DecidableEq ι] (worker : ShmRecvWorker ι) {action : ShmRecvWorker.Action ι}
    (silent : ∀ expired, action ≠ .poll expired) :
    (worker.step action).dispatched = worker.dispatched ∧
      (worker.pc = .draining → (worker.step action).pc = .draining) := by
  cases action with
  | poll expired => exact absurd rfl (silent expired)
  | wake =>
    simp only [step, wake]
    split
    · exact ⟨rfl, fun draining => draining⟩
    · next ready =>
      refine ⟨rfl, fun draining => ?_⟩
      simp [draining] at ready
  | waitError =>
    simp only [step, waitError]
    split
    · exact ⟨rfl, fun draining => draining⟩
    · next waiting =>
      refine ⟨?_, fun draining => absurd draining ?_⟩
      · split <;> rfl
      · rw [not_not.mp waiting]
        rintro ⟨⟩
  | begin | advanceMarked | requestStop => exact ⟨rfl, fun draining => draining⟩

end ShmRecvWorker

namespace Receiver

variable {ι : Type*} [DecidableEq ι] {book : AddressBook} {receiver : Receiver ι} {ref : HandleRef}
  {request : RecvRequest}

/-- What a step does to the node. -/
def acts (receiver : Receiver ι) : Action ι → Option Traffic.Action
  | .worker _ => none
  | .snapshot now =>
      match receiver.call with
      | .entered dispatch => some (.snapshot (dispatch.arrival now))
      | _ => none
  | .write =>
      match receiver.call with
      | .writing index => some (.writeNext index)
      | _ => none
  | .other (.writeNext index) =>
      if receiver.call = .writing index then none else some (.writeNext index)
  | .other action => some action

theorem step_traffic (book : AddressBook) (receiver : Receiver ι) (action : Action ι) :
    (receiver.step book action).traffic =
      match receiver.acts action with
      | some action => receiver.traffic.step book action
      | none => receiver.traffic := by
  cases action with
  | worker action =>
    cases action with
    | poll expired =>
      simp only [step, acts]
      split <;> rfl
    | begin | advanceMarked | wake | waitError | requestStop => rfl
  | snapshot now =>
    simp only [step, snapshot, acts]
    cases receiver.call <;> rfl
  | write =>
    simp only [step, write, acts]
    cases receiver.call with
    | none | entered => rfl
    | writing index =>
      dsimp only
      split
      · rfl
      · simp only [Traffic.step, Traffic.writeNext]
  | other action =>
    cases action with
    | writeNext index =>
      simp only [step, acts]
      split <;> rfl
    | call | snapshot | build | enqueue | work => rfl

/-- The node is in a state that it can reach, and the worker is where its call says. -/
structure Sound (book : AddressBook) (receiver : Receiver ι) : Prop where
  reachable : Traffic.Reachable book receiver.traffic
  nodup : ∀ call ∈ receiver.traffic.distributions, call.left.Nodup
  draining : receiver.call ≠ .none → receiver.worker.pc = .draining
  last : ∀ dispatch, receiver.call = .entered dispatch →
    ∃ earlier, receiver.worker.dispatched = earlier ++ [dispatch]
  placed : ∀ index, receiver.call = .writing index → index < receiver.traffic.distributions.length

omit [DecidableEq ι] in
theorem Sound.start (book : AddressBook) (worker : ShmRecvWorker ι) (world : RecvWorld)
    (sendWorld : SendWorld) : Sound book ⟨worker, .none, .initial world sendWorld⟩ where
  reachable := ⟨world, sendWorld, .refl⟩
  nodup _ member := by cases member
  draining busy := absurd rfl busy
  last _ entered := by cases entered
  placed _ writing := by cases writing

/-- What is left of a distribution is left of one that there was, or it is a new snapshot. -/
private theorem nodup_step {traffic : Traffic} (reachable : Traffic.Reachable book traffic)
    (nodup : ∀ call ∈ traffic.distributions, call.left.Nodup) (action : Traffic.Action) :
    ∀ call ∈ (traffic.step book action).distributions, call.left.Nodup := by
  intro call member
  cases action with
  | snapshot arrival =>
    simp only [Traffic.step, Traffic.snapshot] at member
    split at member
    · exact nodup call member
    · next subscribers taken =>
      rcases List.mem_append.mp member with old | new
      · exact nodup call old
      · obtain rfl := List.mem_singleton.mp new
        exact reachable.inv.recv.subscribers_nodup taken
  | writeNext index =>
    simp only [Traffic.step, Traffic.writeNext] at member
    split at member
    · next arrival next left current =>
      rcases List.mem_or_eq_of_mem_set member with old | rfl
      · exact nodup call old
      · exact (List.nodup_cons.mp (nodup _ (List.mem_of_getElem? current))).2
    · exact nodup call member
  | call | build | enqueue | work => exact nodup call (by simpa [Traffic.step] using member)

/-- A step of another thread, seen from the worker's distribution. -/
private theorem distribution_kept (book : AddressBook) {traffic : Traffic}
    {action : Traffic.Action} {index : ℕ}
    (other : action ≠ .writeNext index) (inside : index < traffic.distributions.length) :
    (traffic.step book action).distributions[index]? = traffic.distributions[index]? := by
  cases action with
  | snapshot arrival =>
    simp only [Traffic.step, Traffic.snapshot]
    split
    · rfl
    · exact List.getElem?_append_left inside
  | writeNext place =>
    simp only [Traffic.step, Traffic.writeNext]
    split
    · refine List.getElem?_set_ne ?_
      rintro rfl
      exact other rfl
    · rfl
  | call | build | enqueue | work => simp [Traffic.step]

private theorem length_distributions (book : AddressBook) (traffic : Traffic)
    (action : Traffic.Action) :
    traffic.distributions.length ≤ (traffic.step book action).distributions.length := by
  cases action with
  | snapshot arrival =>
    simp only [Traffic.step, Traffic.snapshot]
    split
    · exact le_rfl
    · exact (List.length_append ▸ Nat.le_add_right _ _)
  | writeNext place =>
    simp only [Traffic.step, Traffic.writeNext]
    split
    · exact (List.length_set ..).ge
    · exact le_rfl
  | call | build | enqueue | work => simp [Traffic.step]

theorem Sound.step (sound : Sound book receiver) (action : Action ι) :
    Sound book (receiver.step book action) := by
  have node : Traffic.Reachable book (receiver.step book action).traffic ∧
      (∀ call ∈ (receiver.step book action).traffic.distributions, call.left.Nodup) ∧
      receiver.traffic.distributions.length ≤
        (receiver.step book action).traffic.distributions.length := by
    rw [step_traffic]
    split
    · next done _ =>
      exact ⟨sound.reachable.step done, nodup_step sound.reachable sound.nodup done,
        length_distributions book _ done⟩
    · exact ⟨sound.reachable, sound.nodup, le_rfl⟩
  obtain ⟨reachable, nodup, longer⟩ := node
  have same {after : Receiver ι} (unchanged : after.call = receiver.call)
      (kept : after.worker.dispatched = receiver.worker.dispatched)
      (drains : receiver.worker.pc = .draining → after.worker.pc = .draining)
      (grown : receiver.traffic.distributions.length ≤ after.traffic.distributions.length)
      (reachable : Traffic.Reachable book after.traffic)
      (nodup : ∀ call ∈ after.traffic.distributions, call.left.Nodup) : Sound book after :=
    ⟨reachable, nodup, fun busy => drains (sound.draining (unchanged ▸ busy)),
      fun dispatch entered => kept ▸ sound.last dispatch (unchanged ▸ entered),
      fun index writing => (sound.placed index (unchanged ▸ writing)).trans_le grown⟩
  cases action with
  | worker action =>
    cases action with
    | poll expired =>
      simp only [Receiver.step] at reachable nodup longer ⊢
      split at reachable
      · next ready =>
        rw [if_pos ready] at nodup longer ⊢
        refine ⟨reachable, nodup, ?_, ?_, ?_⟩ <;> simp only [poll]
        all_goals rcases receiver.worker.poll_cases expired with same | ⟨dispatch, grown, drains⟩
        · simp [same]
        · exact fun _ => drains
        · simp [same]
        · rw [grown, List.getElem?_concat_length]
          rintro other ⟨⟩
          exact ⟨_, rfl⟩
        · simp [same]
        · rw [grown, List.getElem?_concat_length]
          rintro _ ⟨⟩
      · next busy =>
        rw [if_neg busy]
        exact sound
    | begin | advanceMarked | wake | waitError | requestStop =>
      refine same rfl ?_ ?_ longer reachable nodup
      · exact (receiver.worker.step_dispatched (by rintro _ ⟨⟩)).1
      · exact (receiver.worker.step_dispatched (by rintro _ ⟨⟩)).2
  | snapshot now =>
    simp only [Receiver.step, snapshot] at reachable nodup longer ⊢
    split
    · next dispatch entered =>
      rw [entered] at reachable nodup longer
      refine ⟨reachable, nodup, fun _ => sound.draining (by rw [entered]; rintro ⟨⟩), ?_, ?_⟩
      · intro other entered
        dsimp only at entered
        split at entered <;> cases entered
      · intro index writing
        dsimp only at writing
        split at writing
        · next taken =>
          cases writing
          exact taken
        · cases writing
    · exact sound
  | write =>
    simp only [Receiver.step, write] at reachable nodup longer ⊢
    split
    · next index writing =>
      rw [writing] at reachable nodup longer
      dsimp only at reachable nodup longer
      split
      · next arrival next left current =>
        rw [current] at reachable nodup longer
        exact same rfl rfl (fun drains => drains) longer reachable nodup
      · exact ⟨sound.reachable, sound.nodup, fun busy => absurd rfl busy, by rintro _ ⟨⟩,
          by rintro _ ⟨⟩⟩
    · exact sound
  | other action =>
    cases action with
    | writeNext index =>
      simp only [Receiver.step] at reachable nodup longer ⊢
      split
      · exact sound
      · next free =>
        rw [if_neg free] at reachable nodup longer
        exact same rfl rfl (fun drains => drains) longer reachable nodup
    | call | snapshot | build | enqueue | work =>
      exact same rfl rfl (fun drains => drains) longer reachable nodup

/-- The worker's calls of `distribute_recvd_label` that have taken their snapshot. -/
def begun (receiver : Receiver ι) : ℕ :=
  match receiver.call with
  | .entered _ => receiver.worker.dispatched.length - 1
  | _ => receiver.worker.dispatched.length

/-- The message fits a handle that was opened with the request. -/
def fits (request : RecvRequest) (dispatch : Dispatch) : Bool :=
  dispatch.label = request.label && dispatch.buf.length = request.size

/-- The message that the worker is about to write for the handle. -/
def pending (receiver : Receiver ι) (ref : HandleRef) (request : RecvRequest) : List Dispatch :=
  match receiver.call with
  | .none => []
  | .entered dispatch => [dispatch].filter (fits request)
  | .writing index =>
      match receiver.traffic.distributions[index]? with
      | some ⟨arrival, left⟩ =>
          if ref ∈ left then [arrival.dispatch] else []
      | none => []

/-- What a step does to one handle. -/
def opsOn (receiver : Receiver ι) (ref : HandleRef) (action : Action ι) : List RecvHandle.Op :=
  match receiver.acts action with
  | some action => receiver.traffic.opsOn ref action
  | none => []

/-- The messages among the operations on a handle. -/
def deliveries (ops : List RecvHandle.Op) : List Dispatch :=
  ops.filterMap fun op =>
    match op with
    | .deliver arrival => some arrival.dispatch
    | .call _ => none

/-- A node, its block and the record of what happened to one of its handles. -/
structure Watched (ι : Type*) where
  receiver : Receiver ι
  ops : List RecvHandle.Op

def Watched.step (book : AddressBook) (ref : HandleRef) (watched : Watched ι) (action : Action ι) :
    Watched ι :=
  ⟨watched.receiver.step book action, watched.ops ++ watched.receiver.opsOn ref action⟩

/-- The senders send labels and the worker does not lose patience with them; the handle stays open,
its places are its own, and no other thread brings messages of its label. -/
structure Allowed (request : RecvRequest) (ref : HandleRef) (watched : Watched ι)
    (action : Action ι) :
    Prop where
  carries : ∀ done, action = .worker done → watched.receiver.worker.Carries done
  apart : ∀ done, watched.receiver.acts action = some done →
    Traffic.Separate ref watched.receiver.traffic done
  stays : ∀ done, watched.receiver.acts action = some done → ¬ Traffic.Closes ref done
  only : ∀ arrival, action = .other (.snapshot arrival) → arrival.label ≠ request.label

/-- The handle has been handed the messages that fit it, in the order in which they were dispatched
since the first `start` of them; at most the last one is still to be written. -/
structure Serves (book : AddressBook) (request : RecvRequest) (ref : HandleRef) (start : ℕ)
    (watched : Watched ι) : Prop where
  sound : Sound book watched.receiver
  registered : watched.receiver.traffic.Registered ref
  object : ∃ handle, watched.receiver.traffic.node.recvObjects[ref]? = some handle ∧
    handle.data.label = request.label ∧ handle.data.bufSize = request.size
  foreign : ∀ (index : ℕ) call, watched.receiver.traffic.distributions[index]? = some call →
    ref ∈ call.left → watched.receiver.call = .writing index
  within : start ≤ watched.receiver.worker.dispatched.length
  account : deliveries watched.ops ++ watched.receiver.pending ref request =
    (watched.receiver.worker.dispatched.drop start).filter (fits request)

/-- The label of a handle never changes. -/
private theorem run_label (ops : List RecvHandle.Op) (state : RecvWorld × RecvHandle) :
    (ops.foldl RecvHandle.step state).2.data.label = state.2.data.label := by
  induction ops generalizing state with
  | nil => rfl
  | cons op rest ih =>
    refine (ih (RecvHandle.step state op)).trans ?_
    cases op with
    | deliver arrival => exact congrArg (·.data.label) (state.2.deliver_static arrival state.1)
    | call call => exact congrArg (·.label) (Node.call_view state.2 call)

namespace Serves

variable {start : ℕ} {watched : Watched ι}

omit [DecidableEq ι] in
/-- The handle is a subscriber of the messages that fit it. -/
theorem subscribes (serves : Serves book request ref start watched) (dispatch : Dispatch) :
    (∃ refs, watched.receiver.traffic.node.router.recvSubscribers dispatch.label
      dispatch.buf.length = some refs ∧ ref ∈ refs) ↔ fits request dispatch = true := by
  obtain ⟨uid, found⟩ := serves.registered
  obtain ⟨handle, object, label, size⟩ := serves.object
  rw [serves.sound.reachable.inv.recv.mem_subscribers found object, label, size, fits,
    Bool.and_eq_true, decide_eq_true_eq, decide_eq_true_eq]
  exact ⟨fun same => ⟨same.1.symm, same.2.symm⟩, fun same => ⟨same.1.symm, same.2.symm⟩⟩

/-- The handle stays a subscriber. -/
theorem node_step (serves : Serves book request ref start watched) {action : Action ι}
    (allowed : Allowed request ref watched action) :
    (watched.receiver.step book action).traffic.Registered ref ∧
      ∃ handle, (watched.receiver.step book action).traffic.node.recvObjects[ref]? = some handle ∧
        handle.data.label = request.label ∧ handle.data.bufSize = request.size := by
  rw [step_traffic]
  split
  · next done acts =>
    obtain ⟨handle, object, label, size⟩ := serves.object
    exact ⟨serves.registered.step (allowed.stays done acts), _,
      Traffic.step_object book done object, (run_label _ _).trans label,
      (RecvHandle.run_bufSize _ _).trans size⟩
  · exact ⟨serves.registered, serves.object⟩

omit [DecidableEq ι] in
/-- Without a step of the node and of the worker's call, only the record of dispatched messages
counts. -/
theorem of_same {after : Watched ι} (serves : Serves book request ref start watched)
    (sound : Sound book after.receiver) (traffic : after.receiver.traffic = watched.receiver.traffic)
    (call : after.receiver.call = watched.receiver.call)
    (dispatched : after.receiver.worker.dispatched = watched.receiver.worker.dispatched)
    (ops : after.ops = watched.ops) : Serves book request ref start after where
  sound := sound
  registered := traffic ▸ serves.registered
  object := traffic ▸ serves.object
  foreign := by
    rw [traffic, call]
    exact serves.foreign
  within := dispatched ▸ serves.within
  account := by
    rw [ops, dispatched, pending, call, traffic]
    exact serves.account

/-- The worker reads a record, or it does something else outside of `distribute_recvd_label`. -/
theorem worker (serves : Serves book request ref start watched) (action : ShmRecvWorker.Action ι) :
    Serves book request ref start (watched.step book ref (.worker action)) := by
  have sound := serves.sound.step (.worker action)
  have ops : (watched.step book ref (.worker action)).ops = watched.ops := List.append_nil _
  cases action with
  | poll expired =>
    by_cases ready : watched.receiver.call = .none
    · have stepped : (watched.step book ref (.worker (.poll expired))).receiver =
          watched.receiver.poll expired := by
        simp only [Watched.step, Receiver.step, if_pos ready]
      have idle : watched.receiver.pending ref request = [] := by rw [pending, ready]
      have account := serves.account
      rw [idle, List.append_nil] at account
      refine ⟨sound, ?_, ?_, ?_, ?_, ?_⟩ <;> rw [stepped]
      · exact serves.registered
      · exact serves.object
      · intro index call found member
        have writing := serves.foreign index call found member
        rw [ready] at writing
        cases writing
      · rcases watched.receiver.worker.poll_cases expired with same | ⟨dispatch, grown, _⟩
        · exact same ▸ serves.within
        · simp only [poll, grown, List.length_append]
          exact serves.within.trans (Nat.le_add_right _ _)
      · rw [ops, account]
        rcases watched.receiver.worker.poll_cases expired with same | ⟨dispatch, grown, _⟩
        · simp [pending, poll, same]
        · simp only [pending, poll, grown, List.getElem?_concat_length,
            List.drop_append_of_le_length serves.within, List.filter_append]
    · refine serves.of_same sound ?_ ?_ ?_ ops <;>
        simp only [Watched.step, Receiver.step, if_neg ready]
  | begin | advanceMarked | wake | waitError | requestStop =>
    refine serves.of_same sound rfl rfl ?_ ops
    exact (watched.receiver.worker.step_dispatched (by rintro _ ⟨⟩)).1

/-- The worker's call takes its snapshot, with the handle in it exactly if the message fits. -/
theorem snapshot (serves : Serves book request ref start watched) {now : RTOSTime}
    (allowed : Allowed request ref watched (.snapshot now)) :
    Serves book request ref start (watched.step book ref (.snapshot now)) := by
  have sound := serves.sound.step (.snapshot now)
  cases entered : watched.receiver.call with
  | none | writing =>
    have idle : watched.receiver.acts (.snapshot now) = none := by simp only [acts, entered]
    have same : watched.receiver.step book (.snapshot now) = watched.receiver := by
      simp only [Receiver.step, Receiver.snapshot, entered]
    refine serves.of_same sound ?_ ?_ ?_ ?_ <;> simp only [Watched.step, same, opsOn, idle]
    exact List.append_nil _
  | entered dispatch =>
    obtain ⟨registered, object⟩ := serves.node_step allowed
    have subscribes := serves.subscribes dispatch
    have ops : (watched.step book ref (.snapshot now)).ops = watched.ops := by
      simp only [Watched.step, opsOn, acts, entered]
      exact List.append_nil _
    have account : deliveries watched.ops ++ [dispatch].filter (fits request) =
        (watched.receiver.worker.dispatched.drop start).filter (fits request) := by
      have account := serves.account
      rwa [pending, entered] at account
    have free : ∀ (index : ℕ) call, watched.receiver.traffic.distributions[index]? = some call →
        ref ∉ call.left := by
      intro index call found member
      have writing := serves.foreign index call found member
      rw [entered] at writing
      cases writing
    cases taken : watched.receiver.traffic.node.router.recvSubscribers dispatch.label
        dispatch.buf.length with
    | none =>
      have unfit : fits request dispatch = false := by
        rw [← Bool.not_eq_true, ← subscribes, taken]
        rintro ⟨_, ⟨⟩, _⟩
      have stepped : watched.receiver.step book (.snapshot now) =
          { watched.receiver with call := .none } := by
        simp [Receiver.step, Receiver.snapshot, entered, Traffic.snapshot, Dispatch.arrival, taken]
      refine ⟨sound, registered, object, ?_, ?_, ?_⟩
      · simp only [Watched.step, stepped]
        exact fun index call found member => absurd member (free index call found)
      · simp only [Watched.step, stepped]
        exact serves.within
      · rw [ops]
        simp only [Watched.step, stepped, pending]
        rw [← account, List.filter_singleton, unfit]
        rfl
    | some refs =>
      have fit : ref ∈ refs ↔ fits request dispatch = true := by
        rw [← subscribes, taken]
        simp
      have stepped : watched.receiver.step book (.snapshot now) =
          { watched.receiver with
            call := .writing watched.receiver.traffic.distributions.length
            traffic.distributions := watched.receiver.traffic.distributions ++
              [⟨dispatch.arrival now, refs⟩] } := by
        simp [Receiver.step, Receiver.snapshot, entered, Traffic.snapshot, Dispatch.arrival, taken]
      refine ⟨sound, registered, object, ?_, ?_, ?_⟩
      · simp only [Watched.step, stepped]
        intro index call found member
        rw [List.getElem?_append] at found
        split_ifs at found with old
        · exact absurd member (free index call found)
        · have last := (List.getElem?_eq_some_iff.mp found).1
          rw [List.length_singleton] at last
          exact congrArg RouterCall.writing (by omega)
      · simp only [Watched.step, stepped]
        exact serves.within
      · rw [ops]
        simp only [Watched.step, stepped, pending, List.getElem?_concat_length]
        rw [← account, List.filter_singleton]
        by_cases member : ref ∈ refs
        · rw [if_pos member, fit.mp member]
          rfl
        · rw [if_neg member, Bool.eq_false_iff.mpr (mt fit.mpr member)]
          rfl

theorem deliveries_append (first second : List RecvHandle.Op) :
    deliveries (first ++ second) = deliveries first ++ deliveries second := List.filterMap_append

/-- The worker's call writes for the next subscriber, which may be the handle, or returns. -/
theorem write (serves : Serves book request ref start watched)
    (allowed : Allowed request ref watched .write) :
    Serves book request ref start (watched.step book ref .write) := by
  have sound : Sound book (watched.receiver.step book .write) := serves.sound.step .write
  cases writing : watched.receiver.call with
  | none | entered =>
    have idle : watched.receiver.acts .write = none := by simp only [acts, writing]
    have same : watched.receiver.step book .write = watched.receiver := by
      simp only [Receiver.step, Receiver.write, writing]
    refine serves.of_same sound ?_ ?_ ?_ ?_ <;> simp only [Watched.step, same, opsOn, idle]
    exact List.append_nil _
  | writing place =>
    obtain ⟨registered, object⟩ := serves.node_step allowed
    have ops : (watched.step book ref .write).ops =
        watched.ops ++ watched.receiver.traffic.opsOn ref (.writeNext place) := by
      simp only [Watched.step, opsOn, acts, writing]
    have inside := serves.sound.placed place writing
    obtain ⟨⟨arrival, left⟩, current⟩ :
        ∃ call, watched.receiver.traffic.distributions[place]? = some call :=
      ⟨_, List.getElem?_eq_getElem inside⟩
    have account : deliveries watched.ops ++ (if ref ∈ left then [arrival.dispatch] else []) =
        (watched.receiver.worker.dispatched.drop start).filter (fits request) := by
      have account := serves.account
      rw [pending, writing] at account
      simpa only [current] using account
    cases left with
    | nil =>
      have stepped : watched.receiver.step book .write = { watched.receiver with call := .none } := by
        simp only [Receiver.step, Receiver.write, writing, current]
      have silent : watched.receiver.traffic.opsOn ref (.writeNext place) = [] := by
        simp only [Traffic.opsOn, Traffic.serves, current]
      refine ⟨sound, registered, object, ?_, ?_, ?_⟩
      · simp only [Watched.step, stepped]
        intro index call found member
        have here := (serves.foreign index call found member).symm.trans writing
        cases here
        cases current.symm.trans found
        cases member
      · simp only [Watched.step, stepped]
        exact serves.within
      · rw [ops, silent]
        simp only [Watched.step, stepped, pending]
        rw [← account]
        simp
    | cons next left =>
      have stepped : watched.receiver.step book .write =
          { watched.receiver with traffic := watched.receiver.traffic.writeNext place } := by
        simp only [Receiver.step, Receiver.write, writing, current]
      have distributions : (watched.receiver.traffic.writeNext place).distributions =
          watched.receiver.traffic.distributions.set place ⟨arrival, left⟩ := by
        simp only [Traffic.writeNext, current]
      have done : watched.receiver.traffic.opsOn ref (.writeNext place) =
          if next = ref then [.deliver arrival] else [] :=
        Traffic.opsOn_of_serves (by simp only [Traffic.serves, current])
      have nodup := serves.sound.nodup _ (List.mem_of_getElem? current)
      refine ⟨sound, registered, object, ?_, ?_, ?_⟩
      · simp only [Watched.step, stepped, distributions]
        intro index call found member
        by_cases here : place = index
        · exact here ▸ writing
        · rw [List.getElem?_set_ne here] at found
          exact serves.foreign index call found member
      · simp only [Watched.step, stepped]
        exact serves.within
      · rw [ops, done]
        simp only [Watched.step, stepped, pending, writing, distributions,
          List.getElem?_set_self inside]
        rw [← account, deliveries_append, List.append_assoc]
        congr 1
        by_cases mine : next = ref
        · subst mine
          have last : next ∉ left := (List.nodup_cons.mp nodup).1
          simp [last, deliveries]
        · simp [mine, Ne.symm mine, deliveries]

omit [DecidableEq ι] in
/-- No other thread takes the handle into a distribution. -/
private theorem foreign_step (serves : Serves book request ref start watched)
    {action : Traffic.Action}
    (only : ∀ arrival, action = .snapshot arrival → arrival.label ≠ request.label) {index : ℕ}
    {call : Distribution}
    (found : (watched.receiver.traffic.step book action).distributions[index]? = some call)
    (member : ref ∈ call.left) : watched.receiver.call = .writing index := by
  cases action with
  | snapshot arrival =>
    simp only [Traffic.step, Traffic.snapshot] at found
    split at found
    · exact serves.foreign index call found member
    · next refs taken =>
      rw [List.getElem?_append] at found
      split_ifs at found
      · exact serves.foreign index call found member
      · obtain rfl := List.mem_singleton.mp (List.mem_of_getElem? found)
        have fit := (serves.subscribes arrival.dispatch).mp ⟨refs, taken, member⟩
        rw [fits, Bool.and_eq_true, decide_eq_true_eq] at fit
        exact absurd fit.1 (only arrival rfl)
  | writeNext place =>
    simp only [Traffic.step, Traffic.writeNext] at found
    split at found
    · next arrival next left current =>
      by_cases here : place = index
      · subst here
        rw [List.getElem?_set_self (List.getElem?_eq_some_iff.mp current).1] at found
        cases found
        exact serves.foreign place _ current (List.mem_cons_of_mem _ member)
      · rw [List.getElem?_set_ne here] at found
        exact serves.foreign index call found member
    · exact serves.foreign index call found member
  | call | build | enqueue | work =>
    exact serves.foreign index call (by simpa [Traffic.step] using found) member

omit [DecidableEq ι] in
/-- No other thread writes for the handle. -/
private theorem deliveries_other (serves : Serves book request ref start watched)
    {action : Traffic.Action}
    (free : ∀ index, watched.receiver.call = .writing index → action ≠ .writeNext index) :
    deliveries (watched.receiver.traffic.opsOn ref action) = [] := by
  rcases served : watched.receiver.traffic.serves action with _ | ⟨arrival, next⟩
  · rcases Traffic.opsOn_of_silent served with none | ⟨call, one⟩
    · rw [none]
      rfl
    · rw [one]
      rfl
  · rw [Traffic.opsOn_of_serves served]
    split
    · next here =>
      subst here
      cases action with
      | writeNext index =>
        simp only [Traffic.serves] at served
        split at served
        · next other left current =>
          cases served
          exact absurd rfl (free index (serves.foreign index _ current List.mem_cons_self))
        · cases served
      | call | snapshot | build | enqueue | work => cases served
    · rfl

/-- Another thread goes on. -/
theorem other (serves : Serves book request ref start watched) {action : Traffic.Action}
    (allowed : Allowed request ref watched (.other action)) :
    Serves book request ref start (watched.step book ref (.other action)) := by
  have sound : Sound book (watched.receiver.step book (.other action)) :=
    serves.sound.step (.other action)
  by_cases mine : ∃ index, watched.receiver.call = .writing index ∧ action = .writeNext index
  · obtain ⟨index, writing, rfl⟩ := mine
    have same : watched.receiver.step book (.other (.writeNext index)) = watched.receiver := by
      simp only [Receiver.step, if_pos writing]
    refine serves.of_same sound ?_ ?_ ?_ ?_ <;>
      simp only [Watched.step, same, opsOn, acts, if_pos writing]
    exact List.append_nil _
  · have free : ∀ index, watched.receiver.call = .writing index → action ≠ .writeNext index :=
      fun index writing same => mine ⟨index, writing, same⟩
    have acts : watched.receiver.acts (.other action) = some action := by
      cases action with
      | writeNext index =>
        simp only [Receiver.acts]
        exact if_neg fun writing => free index writing rfl
      | call | snapshot | build | enqueue | work => rfl
    have stepped : watched.receiver.step book (.other action) =
        { watched.receiver with traffic := watched.receiver.traffic.step book action } := by
      cases action with
      | writeNext index =>
        simp only [Receiver.step]
        exact if_neg fun writing => free index writing rfl
      | call | snapshot | build | enqueue | work => rfl
    obtain ⟨registered, object⟩ := serves.node_step allowed
    refine ⟨sound, registered, object, ?_, ?_, ?_⟩
    · simp only [Watched.step, stepped]
      intro index call found member
      exact serves.foreign_step (fun arrival same => allowed.only arrival (same ▸ rfl)) found member
    · simp only [Watched.step, stepped]
      exact serves.within
    · have ops : deliveries (watched.step book ref (.other action)).ops = deliveries watched.ops := by
        simp only [Watched.step, opsOn, acts, deliveries_append, serves.deliveries_other free,
          List.append_nil]
      have waits : (watched.step book ref (.other action)).receiver.pending ref request =
          watched.receiver.pending ref request := by
        simp only [Watched.step, stepped, pending]
        cases writing : watched.receiver.call with
        | none | entered => rfl
        | writing index =>
          have kept := distribution_kept book (free index writing)
            (serves.sound.placed index writing)
          simp only [kept]
      rw [ops, waits]
      simp only [Watched.step, stepped]
      exact serves.account

/-- What is handed to a handle, step after step. -/
theorem step (serves : Serves book request ref start watched) {action : Action ι}
    (allowed : Allowed request ref watched action) :
    Serves book request ref start (watched.step book ref action) := by
  cases action with
  | worker action => exact serves.worker action
  | snapshot now => exact serves.snapshot allowed
  | write => exact serves.write allowed
  | other action => exact serves.other allowed

/-- A handle that was just opened has been handed nothing, and the worker's call does not hold
it. -/
theorem opened (sound : Sound book receiver) (accepted : (openRecvLabel request).accepted = true)
    (returned : (receiver.traffic.node.openRecv (openRecvLabel request)).2 =
      some receiver.traffic.node.recvObjects.length) :
    Serves book request receiver.traffic.node.recvObjects.length receiver.begun
      ⟨receiver.step book (.other (.call (.openRecv request) rfl)), []⟩ := by
  have absent : ∀ call ∈ receiver.traffic.distributions,
      receiver.traffic.node.recvObjects.length ∉ call.left := by
    intro call member waiting
    obtain ⟨handle, found, _⟩ := sound.reachable.serving.sized call member _ waiting
    exact absurd (List.getElem?_eq_some_iff.mp found).1 (Nat.lt_irrefl _)
  have after : Sound book (receiver.step book (.other (.call (.openRecv request) rfl))) :=
    sound.step _
  refine ⟨after, ?_, ⟨_, Traffic.open_found accepted, rfl, rfl⟩, ?_, ?_, ?_⟩
  · have registered :
        (receiver.traffic.node.openRecv (openRecvLabel request)).1.router.recvHandles.lookup
        receiver.traffic.node.uniqueId.1 = some receiver.traffic.node.recvObjects.length := by
      simpa only [Node.openRecv, accepted, if_true, Router.getRecvHandle] using returned
    exact ⟨_, registered⟩
  · intro index call found member
    exact absurd member (absent call (List.mem_of_getElem? found))
  · simp only [Receiver.step, begun]
    split
    · exact Nat.sub_le _ _
    · exact le_rfl
  · simp only [Receiver.step, begun, pending, deliveries, List.filterMap_nil, List.nil_append]
    cases call : receiver.call with
    | none => simp
    | entered dispatch =>
      obtain ⟨front, dispatched⟩ := sound.last dispatch call
      simp [dispatched]
    | writing index =>
      have inside := sound.placed index call
      have free := absent _ (List.getElem_mem inside)
      have current :
          (receiver.traffic.step book (.call (.openRecv request) rfl)).distributions[index]? =
          some receiver.traffic.distributions[index] := List.getElem?_eq_getElem inside
      simp only [current, if_neg free, List.drop_length, List.filter_nil]

end Serves

section Allowed

omit [DecidableEq ι]

end Allowed

end Receiver

end Eroil.Shm
