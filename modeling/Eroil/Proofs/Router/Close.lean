import Eroil.Model.Traffic
import Eroil.Proofs.Router.Footprint
import Eroil.Proofs.Router.SendNode

/-! # Closing a handle while work is in flight

Closing a handle takes it out of the router, so no snapshot and no job that comes later holds it. It
does not wait for those that were taken before: these still write to the memory of the handle and
post its semaphore. Every write is attributed to the handle it is made for, and for a closed handle
to the call that held it at the close.
-/

namespace Eroil

open Lib

/-! ## Handles that are closed stay closed -/

inductive HandleKind where
  | recv
  | send
deriving DecidableEq

/-- A handle object of a node. -/
structure HandleId where
  kind : HandleKind
  ref : HandleRef
deriving DecidableEq

namespace Router

variable {ρ : Type} {routes : Routes ρ} {handles : AList (fun _ : HandleUid => HandleRef)}
  {uid key : HandleUid} {ref other : HandleRef}

/-- Registering a handle registers no other one. -/
theorem lookup_storeHandle {added : Routes ρ × Bool}
    (found : (storeHandle routes handles uid ref added).2.lookup key = some other) :
    handles.lookup key = some other ∨ other = ref := by
  rw [storeHandle] at found
  by_cases same : key = uid
  · subst same
    split_ifs at found
    · exact .inl found
    · rw [AList.lookup_insert] at found
      exact .inr (Option.some.inj found).symm
    · rw [AList.lookup_erase] at found
      cases found
  · split_ifs at found
    · exact .inl found
    · rw [AList.lookup_insert_ne same] at found
      exact .inl found
    · rw [AList.lookup_erase_ne same, AList.lookup_insert_ne same] at found
      exact .inl found

theorem lookup_dropHandle {removed : Routes ρ × Bool}
    (found : (dropHandle routes handles uid ref removed).2.lookup key = some other) :
    handles.lookup key = some other := by
  rw [dropHandle] at found
  split_ifs at found
  · by_cases same : key = uid
    · rw [same, AList.lookup_erase] at found
      cases found
    · rwa [AList.lookup_erase_ne same] at found
  · exact found

/-- A handle that can only be registered under its own uid is not registered after it was
dropped. -/
theorem lookup_dropHandle_self {removed : Routes ρ × Bool}
    (own : ∀ key, handles.lookup key = some ref → key = uid) (key : HandleUid) :
    (dropHandle routes handles uid ref removed).2.lookup key ≠ some ref := by
  intro found
  obtain rfl := own key (lookup_dropHandle found)
  rw [dropHandle] at found
  split_ifs at found with registered
  · rw [AList.lookup_erase] at found
    cases found
  · exact registered found

end Router

namespace Node

/-- The registered handles of one kind. -/
def handles (node : Node) : HandleKind → AList (fun _ : HandleUid => HandleRef)
  | .recv => node.router.recvHandles
  | .send => node.router.sendHandles

/-- The number of handle objects of one kind that were ever created. -/
def created (node : Node) : HandleKind → ℕ
  | .recv => node.recvObjects.length
  | .send => node.sendObjects.length

/-- What a step can do to the registered handles: it registers only handles that it creates. -/
def Grows (kind : HandleKind) (before after : Node) : Prop :=
  before.created kind ≤ after.created kind ∧
    ∀ uid ref, (after.handles kind).lookup uid = some ref →
      (before.handles kind).lookup uid = some ref ∨ before.created kind ≤ ref

theorem Grows.of_same {kind : HandleKind} {before after : Node}
    (handles : after.handles kind = before.handles kind)
    (created : after.created kind = before.created kind) : Grows kind before after :=
  ⟨Nat.le_of_eq created.symm, fun _ _ found => .inl (by rwa [handles] at found)⟩

theorem Grows.of_recvPart {before after : Node} (same : recvPart after = recvPart before) :
    Grows .recv before after := by
  simp only [recvPart, Prod.mk.injEq] at same
  exact .of_same same.2.1 (congrArg List.length same.2.2)

private theorem grows_recv (book : AddressBook) (node : Node) {action : Action}
    (whole : action.isDistribute = false) : Grows .recv node (node.step book action) := by
  cases action with
  | openSend data => exact .of_recvPart (recvPart_openSend node data)
  | closeSend ref => exact .of_recvPart (recvPart_closeSend node ref)
  | openRecv request =>
    simp only [Node.step, Node.openRecv]
    split
    · refine ⟨by simp [created, uniqueId], fun uid ref found => ?_⟩
      rcases Router.lookup_storeHandle found with earlier | rfl
      · exact .inl earlier
      · exact .inr le_rfl
    · exact .of_same rfl rfl
  | closeRecv ref =>
    simp only [Node.step, Node.closeRecv]
    split
    · exact .of_same rfl rfl
    · exact ⟨le_rfl, fun uid ref found => .inl (Router.lookup_dropHandle found)⟩
  | callRecv ref call =>
    simp only [Node.step, Node.callRecv]
    split
    · exact .of_same rfl rfl
    · exact .of_same rfl (by simp [created])
  | distribute arrival => cases whole
  | addSubscriber source label size =>
    exact .of_recvPart (recvPart_addSubscriber book node source label size.toNat)
  | removeSubscriber source label =>
    exact .of_recvPart (recvPart_removeSubscriber book node source label)
  | openSendShm id opened => exact .of_same rfl rfl
  | upsertSocket id sock => exact .of_same rfl rfl

private theorem grows_send (book : AddressBook) (node : Node) {action : Action}
    (whole : action.isDistribute = false) : Grows .send node (node.step book action) := by
  cases action with
  | openSend data =>
    simp only [Node.step, Node.openSend]
    split
    · refine ⟨by simp [created, uniqueId], fun uid ref found => ?_⟩
      rcases Router.lookup_storeHandle found with earlier | rfl
      · exact .inl earlier
      · exact .inr le_rfl
    · exact .of_same rfl rfl
  | closeSend ref =>
    simp only [Node.step, Node.closeSend]
    split
    · exact .of_same rfl rfl
    · exact ⟨le_rfl, fun uid ref found => .inl (Router.lookup_dropHandle found)⟩
  | openRecv request =>
    simp only [Node.step, Node.openRecv]
    split <;> exact .of_same rfl rfl
  | closeRecv ref =>
    simp only [Node.step, Node.closeRecv]
    split <;> exact .of_same rfl rfl
  | callRecv ref call =>
    simp only [Node.step, Node.callRecv]
    split <;> exact .of_same rfl rfl
  | distribute arrival => cases whole
  | addSubscriber source label size =>
    rcases addSubscriber_cases book node source label size.toNat with
      ⟨same, _⟩ | ⟨kind, _, _, _, changed⟩
    · simp only [Node.step, same]
      exact .of_same rfl rfl
    · simp only [Node.step, changed, Router.addSubscriber]
      split <;> exact .of_same rfl rfl
  | removeSubscriber source label =>
    rcases removeSubscriber_cases book node source label with ⟨same, _⟩ | ⟨kind, _, _, changed⟩
    · simp only [Node.step, same]
      exact .of_same rfl rfl
    · simp only [Node.step, changed]
      exact .of_same rfl rfl
  | openSendShm id opened => exact .of_same rfl rfl
  | upsertSocket id sock => exact .of_same rfl rfl

theorem grows (book : AddressBook) (node : Node) {action : Action}
    (whole : action.isDistribute = false) (kind : HandleKind) :
    Grows kind node (node.step book action) := by
  cases kind with
  | recv => exact node.grows_recv book whole
  | send => exact node.grows_send book whole

/-- None of these calls writes to the memory of the application. -/
theorem step_world (book : AddressBook) (node : Node) {action : Action}
    (whole : action.isDistribute = false) : (node.step book action).world = node.world := by
  cases action with
  | openSend data =>
    simp only [Node.step, Node.openSend]
    split <;> rfl
  | closeSend ref =>
    simp only [Node.step, Node.closeSend]
    split <;> rfl
  | openRecv request =>
    simp only [Node.step, Node.openRecv]
    split <;> rfl
  | closeRecv ref =>
    simp only [Node.step, Node.closeRecv]
    split <;> rfl
  | callRecv ref call =>
    simp only [Node.step, Node.callRecv]
    split <;> rfl
  | distribute arrival => cases whole
  | addSubscriber source label size =>
    rcases addSubscriber_cases book node source label size.toNat with ⟨same, _⟩ |
      ⟨_, _, _, _, changed⟩
    · simp only [Node.step, same]
    · simp only [Node.step, changed]
  | removeSubscriber source label =>
    rcases removeSubscriber_cases book node source label with ⟨same, _⟩ | ⟨_, _, _, changed⟩
    · simp only [Node.step, same]
    · simp only [Node.step, changed]
  | openSendShm id opened => rfl
  | upsertSocket id sock => rfl

private theorem sendView_set (objects : List SendHandle) (ref : HandleRef) (old new : SendHandle)
    (found : objects[ref]? = some old)
    (same : (⟨new.uid, new.data.label, new.data.bufSize⟩ : HandleView) =
      ⟨old.uid, old.data.label, old.data.bufSize⟩) :
    sendView (objects.set ref new) = sendView objects := by
  funext query
  have bound := (List.getElem?_eq_some_iff.mp found).1
  by_cases here : ref = query
  · subst here
    rw [sendView, sendView, List.getElem?_set_self bound, found, Option.map_some, Option.map_some,
      same]
  · rw [sendView, sendView, List.getElem?_set_ne here]

/-- A completion moves the publisher's IOSB index and nothing else that the invariant reads. -/
theorem SendInv.set {book : AddressBook} {node other : Node} {ref : HandleRef} {old new : SendHandle}
    (inv : SendInv book node) (found : node.sendObjects[ref]? = some old)
    (moved : ∃ index, new = { old with data.iosbIndex := index })
    (router : other.router = node.router)
    (objects : other.sendObjects = node.sendObjects.set ref new) : SendInv book other where
  valid := by
    obtain ⟨index, rfl⟩ := moved
    intro handle member
    rw [objects] at member
    rcases List.mem_or_eq_of_mem_set member with earlier | rfl
    · exact inv.valid handle earlier
    · exact inv.valid old (List.mem_of_getElem? found)
  consistent := by
    have view : (⟨new.uid, new.data.label, new.data.bufSize⟩ : HandleView) =
        ⟨old.uid, old.data.label, old.data.bufSize⟩ := by
      obtain ⟨index, rfl⟩ := moved
      rfl
    rw [router, objects, sendView_set _ _ _ _ found view]
    exact inv.consistent
  homed := by
    rw [router]
    exact inv.homed

end Node

/-! ## Jobs -/

namespace JobRun

/-- Nothing but a completion touches the publisher or the memory that it reports to. -/
def Quiet (before after : JobRun) : Prop :=
  after.publisher = before.publisher ∧ after.world = before.world ∧
    after.job.publisher = before.job.publisher

theorem finalizeSendIosb_publisher (run : JobRun) (now : RTOSTime) :
    ∃ index, (run.finalizeSendIosb now).publisher =
      { run.publisher with data.iosbIndex := index } := by
  simp only [finalizeSendIosb, SendHandle.writeSendIosb]
  split
  · exact ⟨_, rfl⟩
  · split
    · exact ⟨_, rfl⟩
    · exact ⟨_, rfl⟩

private theorem countFailure_publisher (job : SendJob) (worker : Transport) :
    (job.countFailure worker).publisher = job.publisher := by
  cases worker <;> rfl

/-- A worker that is not about to complete the job leaves the publisher alone. -/
theorem step_quiet (run : JobRun) (action : WorkerStep)
    (busy : ∀ rest, run.pc action.worker ≠ .finalize rest) : Quiet run (run.step action) := by
  rw [step]
  split
  · exact ⟨rfl, rfl, rfl⟩
  · exact ⟨rfl, rfl, rfl⟩
  · split_ifs <;> exact ⟨rfl, rfl, rfl⟩
  · exact ⟨rfl, rfl, countFailure_publisher ..⟩
  · exact ⟨rfl, rfl, rfl⟩
  · split_ifs <;> exact ⟨rfl, rfl, rfl⟩
  · next rest place => exact absurd place (busy rest)

/-- Every step keeps the job's publisher, and moves its IOSB index at most. -/
theorem step_publisher (run : JobRun) (action : WorkerStep) :
    (run.step action).job.publisher = run.job.publisher ∧
      ∃ index, (run.step action).publisher = { run.publisher with data.iosbIndex := index } := by
  by_cases completes : ∃ rest, run.pc action.worker = .finalize rest
  · obtain ⟨rest, place⟩ := completes
    simp only [step, place]
    exact ⟨rfl, run.finalizeSendIosb_publisher action.now⟩
  · have quiet := run.step_quiet action fun rest place => completes ⟨rest, place⟩
    exact ⟨quiet.2.2, _, quiet.1⟩

theorem enqueueSend_publisher (job : SendJob) (publisher : SendHandle) (world : SendWorld)
    (now : RTOSTime) :
    (enqueueSend job publisher world now).job.publisher = job.publisher ∧ ∃ index,
      (enqueueSend job publisher world now).publisher =
        { publisher with data.iosbIndex := index } := by
  simp only [enqueueSend]
  split_ifs
  · exact ⟨rfl, finalizeSendIosb_publisher _ now⟩
  · exact ⟨rfl, _, rfl⟩

end JobRun

/-! ## Traffic -/

namespace Traffic

variable {book : AddressBook} {traffic later : Traffic} {handle : HandleId}

/-- The handle whose memory and semaphore a step may touch. -/
def writer (traffic : Traffic) : Action → Option HandleId
  | .writeNext index =>
      match traffic.distributions[index]? with
      | some ⟨_, ref :: _⟩ => some ⟨.recv, ref⟩
      | _ => none
  | .enqueue index _ =>
      match traffic.sendings[index]? with
      | some (.built job) =>
          if job.localRecvrs = [] ∧ job.remoteRecvrs = [] then some ⟨.send, job.publisher⟩ else none
      | _ => none
  | .work index action =>
      match traffic.sendings[index]? with
      | some (.running run) =>
          match run.pc action.worker with
          | .finalize _ => some ⟨.send, run.job.publisher⟩
          | _ => none
      | _ => none
  | _ => none

/-- The unfinished call that a step belongs to. -/
def Action.index : Action → Option ℕ
  | .writeNext index => some index
  | .enqueue index _ => some index
  | .work index _ => some index
  | _ => none

/-- The call at this index holds the handle. -/
def Holds (traffic : Traffic) (index : ℕ) (handle : HandleId) : Prop :=
  match handle.kind with
  | .recv => ∃ call, traffic.distributions[index]? = some call ∧ handle.ref ∈ call.left
  | .send => ∃ sending, traffic.sendings[index]? = some sending ∧ sending.publisher = handle.ref

/-- A handle that is written to is held by the call that writes. -/
private theorem writer_holds {action : Action} (writes : traffic.writer action = some handle) :
    ∃ index, action.index = some index ∧ traffic.Holds index handle := by
  cases action with
  | writeNext index =>
    refine ⟨index, rfl, ?_⟩
    simp only [writer] at writes
    split at writes
    · next arrival ref left found =>
      cases writes
      exact ⟨_, found, List.mem_cons_self⟩
    · cases writes
  | enqueue index now =>
    refine ⟨index, rfl, ?_⟩
    simp only [writer] at writes
    split at writes
    · next job found =>
      split_ifs at writes
      cases writes
      exact ⟨_, found, rfl⟩
    · cases writes
  | work index step =>
    refine ⟨index, rfl, ?_⟩
    simp only [writer] at writes
    split at writes
    · next run found =>
      split at writes
      · cases writes
        exact ⟨_, found, rfl⟩
      · cases writes
    · cases writes
  | call | snapshot | build => cases writes

/-- A step that writes for no handle leaves the memory of the application and its semaphores
alone. -/
theorem step_quiet {action : Action} (silent : traffic.writer action = none) :
    (traffic.step book action).node.world = traffic.node.world ∧
      (traffic.step book action).sendWorld = traffic.sendWorld := by
  cases action with
  | call action whole => exact ⟨traffic.node.step_world book whole, rfl⟩
  | snapshot arrival =>
    simp only [step, snapshot]
    split <;> exact ⟨rfl, rfl⟩
  | writeNext index =>
    simp only [writer] at silent
    simp only [step, writeNext]
    split
    · next found => simp [found] at silent
    · exact ⟨rfl, rfl⟩
  | build myId label uid sendBuf seq =>
    simp only [step, build]
    split <;> exact ⟨rfl, rfl⟩
  | enqueue index now =>
    simp only [step, enqueue]
    split
    · next job found =>
      split
      · exact ⟨rfl, rfl⟩
      · simp only [writer, found] at silent
        split_ifs at silent with empty
        simp only [settle, JobRun.enqueueSend, if_neg empty]
        exact ⟨trivial, trivial⟩
    · exact ⟨rfl, rfl⟩
  | work index action =>
    simp only [step, work]
    split
    · next run found =>
      split
      · exact ⟨rfl, rfl⟩
      · next publisher _ =>
        have busy : ∀ rest, run.pc action.worker ≠ .finalize rest := by
          intro rest place
          simp [writer, found, place] at silent
        have quiet := JobRun.step_quiet
          { run with publisher := publisher, world := traffic.sendWorld } action busy
        exact ⟨rfl, quiet.2.1⟩
    · exact ⟨rfl, rfl⟩

/-- The effect of a step on user memory and semaphores is that of a delivery, or of a completion,
through the object of the handle. -/
def WritesThrough (before after : Traffic) (handle : HandleId) : Prop :=
  match handle.kind with
  | .recv =>
      after.sendWorld = before.sendWorld ∧
        (after.node.world = before.node.world ∨
          ∃ object arrival, before.node.recvObjects[handle.ref]? = some object ∧
            after.node.world = (object.deliver arrival before.node.world).1)
  | .send =>
      after.node.world = before.node.world ∧
        (after.sendWorld = before.sendWorld ∨
          ∃ object sourceId label size failCount address now,
            before.node.sendObjects[handle.ref]? = some object ∧
              after.sendWorld = (object.writeSendIosb before.sendWorld sourceId label size failCount
                address now).1.trySignalSem object.data.sem)

theorem finalizeSendIosb_world (run : JobRun) (now : RTOSTime) :
    (run.finalizeSendIosb now).world =
      (run.publisher.writeSendIosb run.world run.job.sourceId run.job.label
        run.job.sendBuffer.dataSize run.job.failureCount run.job.sendBuffer.dataSrcAddr
          now).1.trySignalSem
          run.publisher.data.sem := by
  simp only [JobRun.finalizeSendIosb, SendHandle.writeSendIosb]
  split
  · rfl
  · split <;> rfl

/-- A step that writes for a handle writes through its object only. -/
private theorem step_writes {action : Action} (writes : traffic.writer action = some handle) :
    WritesThrough traffic (traffic.step book action) handle := by
  cases action with
  | writeNext index =>
    simp only [writer] at writes
    split at writes
    · next arrival ref left found =>
      cases writes
      simp only [step, writeNext, found, Node.deliverTo]
      split
      · exact ⟨rfl, .inl rfl⟩
      · next object there => exact ⟨rfl, .inr ⟨object, arrival, there, rfl⟩⟩
    · cases writes
  | enqueue index now =>
    simp only [writer] at writes
    split at writes
    · next job found =>
      split_ifs at writes with empty
      cases writes
      simp only [step, enqueue, found]
      split
      · exact ⟨rfl, .inl rfl⟩
      · next object there =>
        refine ⟨rfl, .inr ⟨object, job.sourceId, job.label, job.sendBuffer.dataSize, job.failureCount,
          job.sendBuffer.dataSrcAddr, now, there, ?_⟩⟩
        simp only [settle, JobRun.enqueueSend, if_pos empty, finalizeSendIosb_world]
    · cases writes
  | work index action =>
    simp only [writer] at writes
    split at writes
    · next run found =>
      split at writes
      · next place =>
        cases writes
        simp only [step, work, found]
        split
        · exact ⟨rfl, .inl rfl⟩
        · next object there =>
          refine ⟨rfl, .inr ⟨object, run.job.sourceId, run.job.label, run.job.sendBuffer.dataSize,
            run.job.failureCount, run.job.sendBuffer.dataSrcAddr, action.now, there, ?_⟩⟩
          simp only [settle, JobRun.step, place, JobRun.goto, finalizeSendIosb_world]
      · cases writes
    · cases writes
  | call | snapshot | build => cases writes

/-- Every subscriber of a snapshot is registered when it is taken. -/
private theorem recvSubscribers_registered {router : Router} {label : Label} {size : ℕ}
    {subscribers : List HandleRef} (taken : router.recvSubscribers label size = some subscribers)
    {ref : HandleRef} (member : ref ∈ subscribers) :
    ∃ uid, router.recvHandles.lookup uid = some ref := by
  rw [Router.recvSubscribers] at taken
  split_ifs at taken
  split at taken
  · cases taken
  · split_ifs at taken
    cases taken
    obtain ⟨uid, -, found⟩ := List.mem_filterMap.mp member
    exact ⟨uid, found⟩

/-- The publisher of a job is registered when the job is built. -/
theorem buildSendJob_registered {router : Router} {myId : NodeId} {label : Label} {uid : HandleUid}
    {sendBuf : SendBuf} {seq : ℕ} {job : SendJob}
    (built : router.buildSendJob myId label uid sendBuf seq = .ok job) :
    router.sendHandles.lookup uid = some job.publisher := by
  rw [Router.buildSendJob] at built
  split at built
  · cases built
  · split at built
    · cases built
    · split at built
      · cases built
      · next publisher found =>
        split_ifs at built
        cases built
        exact found

@[simp] theorem build_distributions (myId : NodeId) (label : Label) (uid : HandleUid)
    (sendBuf : SendBuf) (seq : ℕ) :
    (traffic.build myId label uid sendBuf seq).distributions = traffic.distributions := by
  rw [build]
  split <;> rfl

@[simp] theorem enqueue_distributions (index : ℕ) (now : RTOSTime) :
    (traffic.enqueue index now).distributions = traffic.distributions := by
  rw [enqueue]
  split
  · split <;> rfl
  · rfl

@[simp] theorem work_distributions (index : ℕ) (action : WorkerStep) :
    (traffic.work index action).distributions = traffic.distributions := by
  rw [work]
  split
  · split <;> rfl
  · rfl

@[simp] theorem snapshot_sendings (arrival : Arrival) :
    (traffic.snapshot arrival).sendings = traffic.sendings := by
  rw [snapshot]
  split <;> rfl

@[simp] theorem writeNext_sendings (index : ℕ) :
    (traffic.writeNext index).sendings = traffic.sendings := by
  rw [writeNext]
  split <;> rfl

/-- A distribution comes to hold a handle only in its snapshot, from the registered handles. -/
private theorem holds_recv_step {action : Action} {index : ℕ} {ref : HandleRef}
    (holds : (traffic.step book action).Holds index ⟨.recv, ref⟩) :
    traffic.Holds index ⟨.recv, ref⟩ ∨ ∃ uid,
      traffic.node.router.recvHandles.lookup uid = some ref := by
  obtain ⟨call, found, member⟩ := holds
  cases action with
  | snapshot arrival =>
    simp only [step, snapshot] at found
    split at found
    · exact .inl ⟨call, found, member⟩
    · next subscribers taken =>
      rw [List.getElem?_append] at found
      split_ifs at found
      · exact .inl ⟨call, found, member⟩
      · obtain rfl := List.mem_singleton.mp (List.mem_of_getElem? found)
        exact .inr (recvSubscribers_registered taken member)
  | writeNext other =>
    simp only [step, writeNext] at found
    split at found
    · next arrival first left current =>
      by_cases here : other = index
      · subst here
        rw [List.getElem?_set_self (List.getElem?_eq_some_iff.mp current).1] at found
        cases found
        exact .inl ⟨_, current, List.mem_cons_of_mem _ member⟩
      · rw [List.getElem?_set_ne here] at found
        exact .inl ⟨call, found, member⟩
    · exact .inl ⟨call, found, member⟩
  | call | build | enqueue | work => exact .inl ⟨call, by simpa [step] using found, member⟩

/-- A job that goes on keeps its publisher. -/
theorem settle_publisher {index other : ℕ} {sending before : Sending} {run : JobRun}
    (current : traffic.sendings[other]? = some before) (kept : run.job.publisher = before.publisher)
    (found : (traffic.settle other run).sendings[index]? = some sending) :
    ∃ earlier, traffic.sendings[index]? = some earlier ∧ earlier.publisher = sending.publisher := by
  simp only [settle] at found
  by_cases here : other = index
  · subst here
    rw [List.getElem?_set_self (List.getElem?_eq_some_iff.mp current).1] at found
    cases found
    exact ⟨before, current, kept.symm⟩
  · rw [List.getElem?_set_ne here] at found
    exact ⟨sending, found, rfl⟩

/-- A job comes to hold its publisher only when it is built, from the registered handles. -/
private theorem holds_send_step {action : Action} {index : ℕ} {ref : HandleRef}
    (holds : (traffic.step book action).Holds index ⟨.send, ref⟩) :
    traffic.Holds index ⟨.send, ref⟩ ∨ ∃ uid,
      traffic.node.router.sendHandles.lookup uid = some ref := by
  obtain ⟨sending, found, publishes⟩ := holds
  cases action with
  | build myId label uid sendBuf seq =>
    simp only [step, build] at found
    split at found
    · exact .inl ⟨sending, found, publishes⟩
    · next job built =>
      rw [List.getElem?_append] at found
      split_ifs at found
      · exact .inl ⟨sending, found, publishes⟩
      · obtain rfl := List.mem_singleton.mp (List.mem_of_getElem? found)
        exact .inr ⟨uid, (buildSendJob_registered built).trans (congrArg some publishes)⟩
  | enqueue other now =>
    simp only [step, enqueue] at found
    split at found
    · next job current =>
      split at found
      · exact .inl ⟨sending, found, publishes⟩
      · next publisher _ =>
        obtain ⟨earlier, there, same⟩ := settle_publisher current
          (JobRun.enqueueSend_publisher job publisher traffic.sendWorld now).1 found
        exact .inl ⟨earlier, there, same.trans publishes⟩
    · exact .inl ⟨sending, found, publishes⟩
  | work other action =>
    simp only [step, work] at found
    split at found
    · next run current =>
      split at found
      · exact .inl ⟨sending, found, publishes⟩
      · next publisher _ =>
        obtain ⟨earlier, there, same⟩ := settle_publisher current (JobRun.step_publisher
          { run with publisher := publisher, world := traffic.sendWorld } action).1 found
        exact .inl ⟨earlier, there, same.trans publishes⟩
    · exact .inl ⟨sending, found, publishes⟩
  | call | snapshot | writeNext => exact .inl ⟨sending, by simpa [step] using found, publishes⟩

/-- A call comes to hold a handle only while the handle is registered. -/
private theorem holds_step {action : Action} {index : ℕ}
    (holds : (traffic.step book action).Holds index handle) :
    traffic.Holds index handle ∨
      ∃ uid, (traffic.node.handles handle.kind).lookup uid = some handle.ref := by
  obtain ⟨kind, ref⟩ := handle
  cases kind with
  | recv => exact holds_recv_step holds
  | send => exact holds_send_step holds

structure Inv (book : AddressBook) (traffic : Traffic) : Prop where
  recv : Node.RecvInv traffic.node
  send : Node.SendInv book traffic.node

theorem Inv.initial (book : AddressBook) (world : RecvWorld) (sendWorld : SendWorld) :
    Inv book (Traffic.initial world sendWorld) := ⟨.initial world, .initial book world⟩

/-- What a job leaves in its publisher keeps the invariant. -/
theorem Inv.settle (inv : Inv book traffic) {index : ℕ} {ref : HandleRef} {publisher : SendHandle}
    {run : JobRun} (found : traffic.node.sendObjects[ref]? = some publisher)
    (kept : run.job.publisher = ref)
    (moved : ∃ index, run.publisher = { publisher with data.iosbIndex := index }) :
    Inv book (traffic.settle index run) := by
  subst kept
  exact ⟨inv.recv.of_recvPart rfl, inv.send.set found moved rfl rfl⟩

theorem Inv.step (inv : Inv book traffic) (action : Action) :
    Inv book (traffic.step book action) := by
  cases action with
  | call action whole => exact ⟨inv.recv.step book _ action, inv.send.step _ action⟩
  | snapshot arrival =>
    simp only [Traffic.step, snapshot]
    split <;> exact ⟨inv.recv, inv.send⟩
  | writeNext index =>
    simp only [Traffic.step, writeNext]
    split
    · next arrival ref left _ =>
      refine ⟨inv.recv.deliverTo arrival ref, inv.send.of_sendPart ?_⟩
      simp only [Node.sendPart, Node.deliverTo]
      split <;> rfl
    · exact inv
  | build myId label uid sendBuf seq =>
    simp only [Traffic.step, build]
    split <;> exact ⟨inv.recv, inv.send⟩
  | enqueue index now =>
    simp only [Traffic.step, enqueue]
    split
    · next job _ =>
      split
      · exact inv
      · next publisher found =>
        have kept := JobRun.enqueueSend_publisher job publisher traffic.sendWorld now
        exact inv.settle found kept.1 kept.2
    · exact inv
  | work index action =>
    simp only [Traffic.step, work]
    split
    · next run _ =>
      split
      · exact inv
      · next publisher found =>
        have kept := JobRun.step_publisher
          { run with publisher := publisher, world := traffic.sendWorld } action
        exact inv.settle found kept.1 kept.2
    · exact inv

/-- No step registers a handle that exists already. -/
theorem grows (book : AddressBook) (traffic : Traffic) (action : Action) (kind : HandleKind) :
    Node.Grows kind traffic.node (traffic.step book action).node := by
  have settled (index : ℕ) (run : JobRun) :
      Node.Grows kind traffic.node (traffic.settle index run).node := by
    cases kind with
    | recv => exact .of_same rfl rfl
    | send => exact .of_same rfl (by simp [Node.created, settle])
  cases action with
  | call action whole => exact traffic.node.grows book whole kind
  | snapshot arrival =>
    simp only [Traffic.step, snapshot]
    split <;> exact .of_same rfl rfl
  | writeNext index =>
    simp only [Traffic.step, writeNext]
    split
    · simp only [Node.deliverTo]
      split
      · exact .of_same rfl rfl
      · cases kind with
        | recv => exact .of_same rfl (by simp [Node.created])
        | send => exact .of_same rfl rfl
    · exact .of_same rfl rfl
  | build myId label uid sendBuf seq =>
    simp only [Traffic.step, build]
    split <;> exact .of_same rfl rfl
  | enqueue index now =>
    simp only [Traffic.step, enqueue]
    split
    · split
      · exact .of_same rfl rfl
      · exact settled _ _
    · exact .of_same rfl rfl
  | work index action =>
    simp only [Traffic.step, work]
    split
    · split
      · exact .of_same rfl rfl
      · exact settled _ _
    · exact .of_same rfl rfl

/-- The call that closes a handle. -/
def close : HandleId → Action
  | ⟨.recv, ref⟩ => .call (.closeRecv ref) rfl
  | ⟨.send, ref⟩ => .call (.closeSend ref) rfl

/-- The handle object exists. -/
def Has (traffic : Traffic) (handle : HandleId) : Prop :=
  handle.ref < traffic.node.created handle.kind

instance (traffic : Traffic) (handle : HandleId) : Decidable (traffic.Has handle) :=
  inferInstanceAs (Decidable (_ < _))

/-- The handle was closed in the state `closing`: it is not registered any more, and the calls that
hold it held it then. -/
structure Gone (closing later : Traffic) (handle : HandleId) : Prop where
  has : later.Has handle
  unregistered : ∀ uid, (later.node.handles handle.kind).lookup uid ≠ some handle.ref
  held : ∀ index, later.Holds index handle → closing.Holds index handle

theorem Gone.step {closing : Traffic} (gone : Gone closing later handle) (action : Action) :
    Gone closing (later.step book action) handle := by
  obtain ⟨created, registered⟩ := later.grows book action handle.kind
  refine ⟨Nat.lt_of_lt_of_le gone.has created, ?_, ?_⟩
  · intro uid found
    rcases registered uid handle.ref found with earlier | new
    · exact gone.unregistered uid earlier
    · exact absurd gone.has (Nat.not_lt.mpr new)
  · intro index holds
    rcases holds_step holds with earlier | ⟨uid, found⟩
    · exact gone.held index earlier
    · exact absurd found (gone.unregistered uid)

/-- A registered handle is found under its own uid only. -/
theorem own_uid {ρ : Type} [HandleRoute ρ] {routes : Routes ρ}
    {handles : AList (fun _ : HandleUid => HandleRef)} {view : HandleRef → Option HandleView}
    (consistent : Consistent routes handles view) {ref : HandleRef} {object : HandleView}
    (seen : view ref = some object) (key : HandleUid) (found : handles.lookup key = some ref) :
    key = object.uid := by
  obtain ⟨other, _, seen', named, _⟩ := consistent.stored key ref found
  cases seen.symm.trans seen'
  exact named.symm

/-- Closing a handle takes it out of the router. -/
theorem Inv.close (inv : Inv book traffic) (has : traffic.Has handle) :
    Gone traffic (traffic.step book (close handle)) handle := by
  obtain ⟨created, _⟩ := traffic.grows book (Traffic.close handle) handle.kind
  have still : (traffic.step book (Traffic.close handle)).Has handle := Nat.lt_of_lt_of_le has created
  obtain ⟨kind, ref⟩ := handle
  cases kind with
  | recv =>
    obtain ⟨object, found⟩ : ∃ object, traffic.node.recvObjects[ref]? = some object :=
      ⟨_, List.getElem?_eq_getElem has⟩
    refine ⟨still, fun uid => ?_, fun index holds => holds⟩
    simp only [Traffic.close, Traffic.step, Node.step, Node.closeRecv, found]
    apply Router.lookup_dropHandle_self
    exact own_uid inv.recv.consistent (by rw [Node.recvView, found]; rfl)
  | send =>
    obtain ⟨object, found⟩ : ∃ object, traffic.node.sendObjects[ref]? = some object :=
      ⟨_, List.getElem?_eq_getElem has⟩
    refine ⟨still, fun uid => ?_, fun index holds => holds⟩
    simp only [Traffic.close, Traffic.step, Node.step, Node.closeSend, found]
    apply Router.lookup_dropHandle_self
    exact own_uid inv.send.consistent (by rw [Node.sendView, found]; rfl)

/-- A state that a node with its traffic can be in. -/
def Reachable (book : AddressBook) (traffic : Traffic) : Prop :=
  ∃ world sendWorld,
    Reaches (step book) (fun _ _ => True) (Traffic.initial world sendWorld) traffic

theorem Reachable.inv (reachable : Reachable book traffic) : Inv book traffic := by
  obtain ⟨world, sendWorld, run⟩ := reachable
  exact run.invariant (Inv book) (.initial book world sendWorld) fun _ action inv _ => inv.step action

/-- After a handle was closed, a step touches user memory or a semaphore through the object of
some handle or not at all, and through the closed one only if it belongs to a call that held
the handle when it was closed: a distribution whose snapshot was taken before, or a job that
was built before. -/
theorem closed_handle_writers (reachable : Reachable book traffic) (has : traffic.Has handle)
    (run : Reaches (step book) (fun _ _ => True) (traffic.step book (close handle)) later)
    (action : Action) :
    (later.writer action = none →
      (later.step book action).node.world = later.node.world ∧
        (later.step book action).sendWorld = later.sendWorld) ∧
    ∀ writer, later.writer action = some writer →
      WritesThrough later (later.step book action) writer ∧
        (writer = handle → ∃ index, action.index = some index ∧ traffic.Holds index handle) := by
  have gone : Gone traffic later handle :=
    run.invariant (Gone traffic · handle) (reachable.inv.close has) fun _ action gone _ =>
      gone.step action
  refine ⟨step_quiet, fun writer writes => ⟨step_writes writes, ?_⟩⟩
  rintro rfl
  obtain ⟨index, owner, holds⟩ := writer_holds writes
  exact ⟨index, owner, gone.held index holds⟩

/-- The memory that the application registered with a handle, and its semaphore, are as before. -/
def Untouched (before after : Traffic) (handle : HandleId) : Prop :=
  match handle.kind with
  | .recv => ∀ object, before.node.recvObjects[handle.ref]? = some object →
      (∀ base query, object.data.buf = some base ∨ object.data.auxBuf = some base → base ≤ query →
        query < base + object.data.bufSlots * object.data.bufSize →
          after.node.world.memory query = before.node.world.memory query) ∧
      (∀ base query, object.data.iosb = some base → base ≤ query →
        query < base + object.data.numIosb →
          after.node.world.iosbs query = before.node.world.iosbs query) ∧
      ∀ sem, object.data.sem = some sem →
        after.node.world.semaphores sem = before.node.world.semaphores sem
  | .send => ∀ object, before.node.sendObjects[handle.ref]? = some object →
      (∀ base query, object.data.iosb = some base → base ≤ query →
        query < base + object.data.numIosb →
          after.sendWorld.iosbs query = before.sendWorld.iosbs query) ∧
      ∀ sem, object.data.sem = some sem →
        after.sendWorld.semaphores sem = before.sendWorld.semaphores sem

/-- A buffer of one byte at address 100, and a message for it that is past its snapshot. -/
def pastSnapshot : Traffic :=
  let actions : List Action :=
    [.call (.openRecv ⟨7, some 100, 1, 1, none, some 5, none, 0, .everyMessage⟩) rfl,
      .snapshot ⟨3, 7, [9], 0, default⟩]
  actions.foldl (step Node.nobody)
    (.initial ⟨fun _ => 0, fun _ => default, fun _ => 0⟩ ⟨fun _ => default, fun _ => 0⟩)

theorem pastSnapshot_reachable : Reachable Node.nobody pastSnapshot :=
  ⟨_, _, Reaches.foldl _ (fun _ _ _ => trivial) _⟩

theorem closed_handle_writers_pastSnapshot :
    (pastSnapshot.step Node.nobody (close ⟨.recv, 0⟩)).writer (.writeNext 0) = some ⟨.recv, 0⟩ ∧
      pastSnapshot.Holds 0 ⟨.recv, 0⟩ := by
  have writes : (pastSnapshot.step Node.nobody (close ⟨.recv, 0⟩)).writer (.writeNext 0) =
      some ⟨.recv, 0⟩ := by decide
  have has : pastSnapshot.Has ⟨.recv, 0⟩ := by decide
  have both := closed_handle_writers pastSnapshot_reachable has .refl (.writeNext 0)
  obtain ⟨index, here, holds⟩ := (both.2 _ writes).2 rfl
  cases here
  exact ⟨writes, holds⟩

theorem writes_after_close : ¬ ∀ (traffic later : Traffic) (handle : HandleId),
    Reachable Node.nobody traffic → traffic.Has handle →
    Reaches (step Node.nobody) (fun _ _ => True) (traffic.step Node.nobody (close handle)) later →
    ∀ action, Untouched later (later.step Node.nobody action) handle := by
  intro untouched
  have same := untouched pastSnapshot _ ⟨.recv, 0⟩ pastSnapshot_reachable (by decide) .refl
    (.writeNext 0)
  obtain ⟨memory, -, -⟩ := same _ rfl
  have kept := memory 100 100 (.inl rfl) (by decide) (by decide)
  revert kept
  decide

end Traffic

end Eroil
