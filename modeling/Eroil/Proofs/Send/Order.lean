import Eroil.Lib.Cyclic
import Eroil.Proofs.Send.Queues

/-! # The order in which sends are completed

A send that returned before another one began is completed first, provided that the later one goes
to every transport that the earlier one went to. IOSBs of a handle follow each other in its array in
the order of the completions, and a worker leaves no job behind.
-/

namespace Eroil

open Lib

def Sending.job : Sending → SendJob
  | .built job => job
  | .running run => run.job

namespace ConnectionManager

variable {book : AddressBook} {manager : ConnectionManager}

/-- The call of `enqueue_send` for the job has returned. -/
def Returned (manager : ConnectionManager) (index : ℕ) : Prop :=
  manager.calls[index]? = some (.offering [])

/-! ## What a step can do to the record -/

/-- The effect of a step on the histories: queues and completions grow at their ends, by one job at
most, and a job keeps its receivers and its publisher. -/
structure Extends (before after : ConnectionManager) : Prop where
  queued : ∀ worker, after.queued worker = before.queued worker ∨
    ∃ index, after.queued worker = before.queued worker ++ [index]
  completed : after.completed = before.completed ∨
    ∃ index, after.completed = before.completed ++ [index]
  jobs : ∀ (index : ℕ) (sending : Sending), before.traffic.sendings[index]? = some sending →
    ∃ later : Sending, after.traffic.sendings[index]? = some later ∧
      later.job.receivers = sending.job.receivers ∧ later.publisher = sending.publisher
  returned : ∀ index, before.Returned index → after.Returned index

theorem Extends.refl (manager : ConnectionManager) : Extends manager manager :=
  ⟨fun _ => .inl rfl, .inl rfl, fun _ sending found => ⟨sending, found, rfl, rfl⟩, fun _ => id⟩

theorem settle_jobs {traffic : Traffic} {index : ℕ} {before : Sending} {run : JobRun}
    (found : traffic.sendings[index]? = some before)
    (receivers : run.job.receivers = before.job.receivers)
    (publisher : run.job.publisher = before.publisher) (other : ℕ) (sending : Sending)
    (there : traffic.sendings[other]? = some sending) :
    ∃ later, (traffic.settle index run).sendings[other]? = some later ∧
      later.job.receivers = sending.job.receivers ∧ later.publisher = sending.publisher := by
  by_cases same : index = other
  · subst same
    obtain rfl := Option.some.inj (found.symm.trans there)
    exact ⟨.running run, List.getElem?_set_self (List.getElem?_eq_some_iff.mp found).1, receivers,
      publisher⟩
  · exact ⟨sending, (List.getElem?_set_ne same).trans there, rfl, rfl⟩

/-- A new state of one worker extends the history if the queue of the worker does. -/
theorem extends_setWorker {worker : Transport} {state : SendWorker}
    (queued : state.queue.queued = manager.queued worker ∨
      ∃ index, state.queue.queued = manager.queued worker ++ [index]) (other : Transport) :
    (manager.setWorker worker state).queued other = manager.queued other ∨
      ∃ index, (manager.setWorker worker state).queued other = manager.queued other ++ [index] := by
  by_cases mine : other = worker
  · subst mine
    have changed : (manager.setWorker other state).worker other = state := Function.update_self ..
    rw [ConnectionManager.queued, queues, changed]
    exact queued
  · have frame : (manager.setWorker worker state).worker other = manager.worker other :=
      Function.update_of_ne mine ..
    rw [ConnectionManager.queued, queues, frame]
    exact .inl rfl

private theorem Inv.extends_proceed (inv : Inv book manager) (index : ℕ) (now : RTOSTime) :
    Extends manager (manager.proceed index now) := by
  have returned {call : EnqueuePc} (here : manager.calls[index]? = some call)
      (busy : call ≠ .offering []) (next : EnqueuePc) (other : ℕ) (done : manager.Returned other) :
      (manager.calls.set index next)[other]? = some (.offering []) := by
    have different : index ≠ other := by
      rintro rfl
      exact busy (Option.some.inj (here.symm.trans done))
    exact (List.getElem?_set_ne different).trans done
  unfold ConnectionManager.proceed
  split
  · next job here found =>
    obtain ⟨publisher, object⟩ := inv.publisher found
    have object : manager.traffic.node.sendObjects[job.publisher]? = some publisher := object
    obtain ⟨sameJob, -, -⟩ :=
      JobRun.enqueueSend_start job publisher manager.traffic.sendWorld now
    refine ⟨fun _ => .inl rfl, ?_, ?_, returned here (by simp) _⟩
    · simp only [completed, List.map_append]
      split_ifs
      · exact .inr ⟨index, by rw [completion_eq found object]; rfl⟩
      · exact .inl (by simp)
    · simp only [Traffic.enqueue_eq now found object]
      exact settle_jobs found (by rw [sameJob]; rfl) (by rw [sameJob]; rfl)
  · next worker rest run here found =>
    split
    · exact ⟨fun _ => .inl rfl, .inl rfl, fun _ sending there => ⟨sending, there, rfl, rfl⟩,
        returned here (by simp) _⟩
    · exact ⟨extends_setWorker (.inr ⟨index, WorkQueue.queued_push ..⟩), .inl rfl,
        fun _ sending there => ⟨sending, there, rfl, rfl⟩, returned here (by simp) _⟩
  · next worker rest run here found =>
    exact ⟨extends_setWorker (.inl rfl), .inl rfl, fun _ sending there => ⟨sending, there, rfl, rfl⟩,
      returned here (by simp) _⟩
  · exact .refl manager

private theorem Inv.extends_serve (inv : Inv book manager) (index : ℕ) (action : WorkerStep) :
    Extends manager (manager.serve index action) := by
  unfold ConnectionManager.serve
  split
  · next run found =>
    obtain ⟨publisher, object⟩ := inv.publisher found
    have object : manager.traffic.node.sendObjects[run.job.publisher]? = some publisher := object
    have jobs := settle_jobs found
      ((run.within publisher manager.traffic.sendWorld).step_receivers action)
      (JobRun.step_publisher (run.within publisher manager.traffic.sendWorld) action).1
    split
    · exact ⟨extends_setWorker (.inl (WorkQueue.queued_finish _)), .inl rfl,
        fun _ sending there => ⟨sending, there, rfl, rfl⟩, fun _ => id⟩
    · rw [Traffic.work_eq action found object]
      refine ⟨fun _ => .inl rfl, .inr ⟨index, ?_⟩, jobs, fun _ => id⟩
      rw [completed, completion_eq found object, List.map_append]
      rfl
    · rw [Traffic.work_eq action found object]
      exact ⟨fun _ => .inl rfl, .inl rfl, jobs, fun _ => id⟩
  · exact .refl manager

/-- Every step extends the histories. -/
theorem Inv.extends (inv : Inv book manager) (action : Action) :
    Extends manager (manager.step book action) := by
  cases action with
  | other other =>
    have same : (manager.traffic.step book other.action).sendings = manager.traffic.sendings :=
      other.sendings book manager.traffic
    exact ⟨fun _ => .inl rfl, .inl rfl,
      fun _ sending there => ⟨sending, (congrArg (·[_]?) same).trans there, rfl, rfl⟩, fun _ => id⟩
  | begin myId label uid sendBuf seq =>
    simp only [ConnectionManager.step, ConnectionManager.begin]
    split
    · exact .refl manager
    · next job built =>
      refine ⟨fun _ => .inl rfl, .inl rfl, ?_, ?_⟩
      · intro index sending there
        refine ⟨sending, ?_, rfl, rfl⟩
        simp only [Traffic.build, built]
        exact (List.getElem?_append_left (List.getElem?_eq_some_iff.mp there).1).trans there
      · intro index returned
        exact (List.getElem?_append_left (List.getElem?_eq_some_iff.mp returned).1).trans returned
  | proceed index now => exact inv.extends_proceed index now
  | work action =>
    simp only [ConnectionManager.step, ConnectionManager.work]
    have frame {state : SendWorker} (same : state.queue.queued = manager.queued action.worker) :
        Extends manager (manager.setWorker action.worker state) :=
      ⟨extends_setWorker (.inl same), .inl rfl, fun _ sending there => ⟨sending, there, rfl, rfl⟩,
        fun _ => id⟩
    split
    · split_ifs
      · exact .refl manager
      · exact frame rfl
    · split
      · next index _ => exact inv.extends_serve index action
      · split_ifs
        · exact frame rfl
        · exact frame (WorkQueue.queued_take _)

/-! ## Two sends, one after the other -/

/-- A job of a call that has returned is in every queue that it has receivers for. -/
theorem Inv.queued_of_returned (inv : Inv book manager) {index : ℕ} {run : JobRun}
    (found : manager.traffic.sendings[index]? = some (.running run))
    (returned : manager.Returned index) (worker : Transport) :
    index ∈ manager.queued worker ↔ run.job.receivers worker ≠ [] := by
  obtain ⟨call, here, -, job⟩ := inv.running index run found
  obtain rfl : call = .offering [] := Option.some.inj (here.symm.trans returned)
  refine (job.at_ worker).queued.trans (and_iff_left ?_)
  exact List.not_mem_nil

/-- A job of a call that has returned has been handed over. -/
theorem Inv.running_of_returned (inv : Inv book manager) {index : ℕ} {sending : Sending}
    (found : manager.traffic.sendings[index]? = some sending) (returned : manager.Returned index) :
    ∃ run, sending = .running run := by
  cases sending with
  | built job =>
    have here := (inv.built index job found).1.symm.trans returned
    cases here
  | running run => exact ⟨run, rfl⟩

/-- A worker that has not begun a job with receivers owes a completion. -/
private theorem Inv.started_of_completed (inv : Inv book manager) {index : ℕ} {sending : Sending}
    (found : manager.traffic.sendings[index]? = some sending) (done : index ∈ manager.completed)
    {worker : Transport} (some_ : sending.job.receivers worker ≠ []) :
    index ∈ (manager.queues worker).started := by
  cases sending with
  | built job => exact absurd done (inv.built index job found).2.2.2
  | running run =>
    obtain ⟨_, _, _, job⟩ := inv.running index run found
    by_contra unstarted
    have none_left := job.accounts.remaining_of_reported (job.completed.mp done) worker
    rw [(job.at_ worker).fresh unstarted] at none_left
    exact some_ (List.eq_nil_of_length_eq_zero none_left)

/-- If the earlier job is ahead of the later one in every queue that it is in, and the later one is
in all of these, then the later one is not completed alone. -/
private theorem Inv.completed_before (inv : Inv book manager) {first second : ℕ} {run : JobRun}
    {later : Sending} (foundFirst : manager.traffic.sendings[first]? = some (.running run))
    (foundSecond : manager.traffic.sendings[second]? = some later)
    (returned : manager.Returned first)
    (included : ∀ worker, run.job.receivers worker ≠ [] → later.job.receivers worker ≠ [])
    (ordered : ∀ worker, run.job.receivers worker ≠ [] → second ∈ manager.queued worker →
      [first, second].Sublist (manager.queued worker))
    (done : second ∈ manager.completed) : first ∈ manager.completed := by
  obtain ⟨call, here, -, job⟩ := inv.running first run foundFirst
  rw [job.completed]
  apply job.accounts.reported_of_ends
  intro worker
  by_cases none : run.job.receivers worker = []
  · have absent : first ∉ manager.queued worker := by
      rw [inv.queued_of_returned foundFirst returned, not_not]
      exact none
    rw [(job.at_ worker).fresh (mt WorkQueue.mem_queued_of_started absent), none]
  · have begun := inv.started_of_completed foundSecond done (included worker none)
    have order := ordered worker none (WorkQueue.mem_queued_of_started begun)
    exact (job.at_ worker).done (WorkQueue.done_of_order (inv.once worker) order begun)

/-- What holds of two sends from the moment the second begins: the first has returned, and it is
ahead of the second in the queues and in the record of completions. -/
structure InOrder (first second : ℕ) (earlier later : Transport → List (Option ℕ))
    (manager : ConnectionManager) : Prop where
  returned : manager.Returned first
  firstJob : ∃ sending : Sending, manager.traffic.sendings[first]? = some sending ∧
    sending.job.receivers = earlier
  secondJob : ∃ sending : Sending, manager.traffic.sendings[second]? = some sending ∧
    sending.job.receivers = later
  queued : ∀ worker, second ∈ manager.queued worker → earlier worker ≠ [] →
    [first, second].Sublist (manager.queued worker)
  completed : second ∈ manager.completed → [first, second].Sublist manager.completed

/-- A list that grows at its end keeps the order, and puts a new item behind the others. -/
theorem sublist_of_grows {before after : List ℕ} {first second : ℕ} (different : first ≠ second)
    (grows : after = before ∨ ∃ index, after = before ++ [index])
    (kept : second ∈ before → [first, second].Sublist before) (ahead : first ∈ after)
    (member : second ∈ after) : [first, second].Sublist after := by
  rcases grows with same | ⟨index, more⟩
  · rw [same] at member ⊢
    exact kept member
  · rw [more] at member ahead ⊢
    rcases List.mem_append.mp member with old | new
    · exact (kept old).trans (List.sublist_append_left _ _)
    · obtain rfl := List.mem_singleton.mp new
      have earlier : first ∈ before := (List.mem_append.mp ahead).resolve_right fun last =>
        different (List.mem_singleton.mp last)
      exact (List.singleton_sublist.mpr earlier).append (List.Sublist.refl _)

theorem InOrder.step {first second : ℕ} {earlier later : Transport → List (Option ℕ)}
    (inOrder : InOrder first second earlier later manager) (inv : Inv book manager)
    (different : first ≠ second)
    (included : ∀ worker, earlier worker ≠ [] → later worker ≠ []) (action : Action) :
    InOrder first second earlier later (manager.step book action) := by
  have after := inv.step action
  have grows := inv.extends action
  have returned := grows.returned first inOrder.returned
  obtain ⟨firstSending, foundFirst, earlierEq⟩ := inOrder.firstJob
  obtain ⟨secondSending, foundSecond, laterEq⟩ := inOrder.secondJob
  obtain ⟨run, rfl⟩ := inv.running_of_returned foundFirst inOrder.returned
  obtain ⟨firstAfter, thereFirst, sameFirst, -⟩ := grows.jobs first _ foundFirst
  obtain ⟨secondAfter, thereSecond, sameSecond, -⟩ := grows.jobs second _ foundSecond
  obtain ⟨runAfter, rfl⟩ := after.running_of_returned thereFirst returned
  have receiversFirst : runAfter.job.receivers = earlier := sameFirst.trans earlierEq
  have receiversSecond : secondAfter.job.receivers = later := sameSecond.trans laterEq
  have queued (worker : Transport) (member : second ∈ (manager.step book action).queued worker)
      (some_ : earlier worker ≠ []) :
      [first, second].Sublist ((manager.step book action).queued worker) := by
    refine sublist_of_grows different (grows.queued worker)
      (fun old => inOrder.queued worker old some_) ?_ member
    rw [after.queued_of_returned thereFirst returned, receiversFirst]
    exact some_
  refine ⟨returned, ⟨_, thereFirst, receiversFirst⟩, ⟨_, thereSecond, receiversSecond⟩, queued, ?_⟩
  intro member
  have both : first ∈ (manager.step book action).completed := by
    refine after.completed_before thereFirst thereSecond returned ?_ ?_ member
    · rw [receiversFirst, receiversSecond]
      exact included
    · rw [receiversFirst]
      exact fun worker some_ old => queued worker old some_
  exact sublist_of_grows different grows.completed inOrder.completed both member

end ConnectionManager

/-! ## The entries of one handle -/

/-- The handle after its next IOSB was written. -/
def SendHandle.afterIosb (handle : SendHandle) : SendHandle :=
  match handle.nextEntry with
  | none => handle
  | some entry => { handle with data.iosbIndex := (entry + 1) % handle.data.numIosb }

private theorem SendHandle.writeSendIosb_handle (world : SendWorld) (handle : SendHandle)
    (sourceId : NodeId) (label : Label) (size failCount srcBufAddr : ℕ) (now : RTOSTime) :
    (handle.writeSendIosb world sourceId label size failCount srcBufAddr now).2 =
      handle.afterIosb := by
  unfold writeSendIosb afterIosb nextEntry
  cases handle.data.iosb with
  | none => rfl
  | some base =>
    by_cases none : handle.data.numIosb = 0
    · simp only [none, ↓reduceIte]
    · simp only [none, ↓reduceIte]

/-- The handle has an IOSB array. -/
def SendHandle.HasIosb (handle : SendHandle) : Prop :=
  handle.data.iosb.isSome ∧ handle.data.numIosb ≠ 0

theorem SendHandle.HasIosb.nextEntry {handle : SendHandle} (array : handle.HasIosb) :
    handle.nextEntry = some handle.data.iosbIndex := by
  obtain ⟨base, present⟩ := Option.isSome_iff_exists.mp array.1
  simp only [SendHandle.nextEntry, present, array.2, ↓reduceIte]

theorem SendHandle.HasIosb.afterIosb {handle : SendHandle} (array : handle.HasIosb) :
    handle.afterIosb.data.iosbIndex = (handle.data.iosbIndex + 1) % handle.data.numIosb := by
  rw [SendHandle.afterIosb, array.nextEntry]

theorem SendHandle.afterIosb_static (handle : SendHandle) :
    handle.afterIosb.data.numIosb = handle.data.numIosb ∧
      handle.afterIosb.data.iosb = handle.data.iosb := by
  unfold afterIosb
  split <;> exact ⟨rfl, rfl⟩

private theorem Node.step_sendObjects (book : AddressBook) (node : Node) {action : Node.Action}
    (whole : action.isDistribute = false) :
    ∃ new, (node.step book action).sendObjects = node.sendObjects ++ new := by
  have kept : ∃ new, node.sendObjects = node.sendObjects ++ new := ⟨[], by simp⟩
  cases action with
  | openSend data =>
    simp only [Node.step, Node.openSend]
    split
    · exact ⟨_, rfl⟩
    · exact kept
  | closeSend ref =>
    simp only [Node.step, Node.closeSend]
    split <;> exact kept
  | openRecv request =>
    simp only [Node.step, Node.openRecv]
    split <;> exact kept
  | closeRecv ref =>
    simp only [Node.step, Node.closeRecv]
    split <;> exact kept
  | callRecv ref call =>
    simp only [Node.step, Node.callRecv]
    split <;> exact kept
  | distribute arrival => cases whole
  | addSubscriber source label size =>
    rcases addSubscriber_cases book node source label size.toNat with
      ⟨same, _⟩ | ⟨kind, _, _, _, changed⟩
    · simp only [Node.step, same]
      exact kept
    · simp only [Node.step, changed]
      exact kept
  | removeSubscriber source label =>
    rcases removeSubscriber_cases book node source label with ⟨same, _⟩ | ⟨kind, _, _, changed⟩
    · simp only [Node.step, same]
      exact kept
    · simp only [Node.step, changed]
      exact kept
  | openSendShm id opened => exact kept
  | upsertSocket id sock => exact kept

namespace ConnectionManager

variable {book : AddressBook} {manager : ConnectionManager}

/-- The positions of the IOSBs of one handle, in the order of the completions. -/
def entries (manager : ConnectionManager) (ref : HandleRef) : List (Option ℕ) :=
  (manager.completions.filter (·.publisher = ref)).map (·.entry)

/-- What a step does to handles and completions: nothing but new handles, or one completion with the
next IOSB of its handle. -/
def Completes (before after : ConnectionManager) : Prop :=
  (∃ new, after.traffic.node.sendObjects = before.traffic.node.sendObjects ++ new ∧
      after.completions = before.completions) ∨
    ∃ index ref handle, before.traffic.node.sendObjects[ref]? = some handle ∧
      after.traffic.node.sendObjects = before.traffic.node.sendObjects.set ref handle.afterIosb ∧
      after.completions = before.completions ++ [⟨index, ref, handle.nextEntry⟩]

theorem Completes.refl (manager : ConnectionManager) : Completes manager manager :=
  .inl ⟨[], by simp, rfl⟩

theorem finalize_publisher (run : JobRun) (now : RTOSTime) :
    (run.finalizeSendIosb now).publisher = run.publisher.afterIosb :=
  SendHandle.writeSendIosb_handle ..

theorem set_same {objects : List SendHandle} {ref : HandleRef} {handle : SendHandle}
    (found : objects[ref]? = some handle) : objects.set ref handle = objects := by
  obtain ⟨inside, rfl⟩ := List.getElem?_eq_some_iff.mp found
  exact List.set_getElem_self inside

private theorem Inv.completes_proceed (inv : Inv book manager) (index : ℕ) (now : RTOSTime) :
    Completes manager (manager.proceed index now) := by
  unfold ConnectionManager.proceed
  split
  · next job here found =>
    obtain ⟨publisher, object⟩ := inv.publisher found
    have object : manager.traffic.node.sendObjects[job.publisher]? = some publisher := object
    simp only [Traffic.enqueue_eq now found object]
    by_cases none : job.localRecvrs = [] ∧ job.remoteRecvrs = []
    · refine .inr ⟨index, job.publisher, publisher, object, ?_, ?_⟩
      · simp only [Traffic.settle, JobRun.enqueueSend, if_pos none, finalize_publisher]
        rfl
      · simp only [if_pos none, completion_eq found object]
        rfl
    · refine .inl ⟨[], ?_, by simp [none]⟩
      simp only [Traffic.settle, JobRun.enqueueSend, if_neg none, List.append_nil]
      exact set_same object
  · split <;> exact .inl ⟨[], by simp [setWorker], rfl⟩
  · exact .inl ⟨[], by simp [setWorker], rfl⟩
  · exact .refl manager

private theorem Inv.completes_serve (inv : Inv book manager) (index : ℕ) (action : WorkerStep) :
    Completes manager (manager.serve index action) := by
  unfold ConnectionManager.serve
  split
  · next run found =>
    obtain ⟨publisher, object⟩ := inv.publisher found
    have object : manager.traffic.node.sendObjects[run.job.publisher]? = some publisher := object
    split
    · exact .inl ⟨[], by simp [setWorker], rfl⟩
    · next rest place =>
      rw [Traffic.work_eq action found object]
      refine .inr ⟨index, run.job.publisher, publisher, object, ?_, ?_⟩
      · have place : (run.within publisher manager.traffic.sendWorld).pc action.worker =
            .finalize rest := place
        simp only [Traffic.settle, JobRun.step, place, JobRun.goto, finalize_publisher]
        rfl
      · simp only [completion_eq found object]
        rfl
    · next busy =>
      rw [Traffic.work_eq action found object]
      have quiet := JobRun.step_quiet (run.within publisher manager.traffic.sendWorld) action
        fun rest place => busy rest place
      refine .inl ⟨[], ?_, rfl⟩
      simp only [Traffic.settle, quiet.1, quiet.2.2, List.append_nil]
      exact set_same object
  · exact .refl manager

theorem Inv.completes (inv : Inv book manager) (action : Action) :
    Completes manager (manager.step book action) := by
  cases action with
  | other other =>
    cases other with
    | call action whole =>
      obtain ⟨new, appended⟩ := manager.traffic.node.step_sendObjects book whole
      exact .inl ⟨new, appended, rfl⟩
    | snapshot arrival =>
      refine .inl ⟨[], ?_, rfl⟩
      simp only [ConnectionManager.step, Other.action, Traffic.step, Traffic.snapshot]
      split <;> simp
    | writeNext index =>
      refine .inl ⟨[], ?_, rfl⟩
      simp only [ConnectionManager.step, Other.action, Traffic.step, Traffic.writeNext]
      split
      · simp [Node.deliverTo_sendObjects]
      · simp
  | begin myId label uid sendBuf seq =>
    simp only [ConnectionManager.step, ConnectionManager.begin]
    split
    · exact .refl manager
    · next job built => exact .inl ⟨[], by simp [Traffic.build, built], rfl⟩
  | proceed index now => exact inv.completes_proceed index now
  | work action =>
    simp only [ConnectionManager.step, ConnectionManager.work]
    have frame (state : SendWorker) : Completes manager (manager.setWorker action.worker state) :=
      .inl ⟨[], by simp [setWorker], rfl⟩
    split
    · split_ifs
      · exact .refl manager
      · exact frame _
    · split
      · next index _ => exact inv.completes_serve index action
      · split_ifs <;> exact frame _

/-- The IOSBs of a handle follow each other in its array, and the next one follows the last. -/
structure Cyclical (entries : List (Option ℕ)) (handle : SendHandle) : Prop where
  consecutive : ∃ positions : List ℕ, entries = positions.map some ∧
    positions.IsChain (fun earlier later => later = (earlier + 1) % handle.data.numIosb) ∧
    ∀ last ∈ positions.getLast?, handle.data.iosbIndex = (last + 1) % handle.data.numIosb

/-- One more IOSB at the position that is next. -/
theorem Cyclical.snoc {entries : List (Option ℕ)} {handle : SendHandle} (array : handle.HasIosb)
    (cyclical : Cyclical entries handle) :
    Cyclical (entries ++ [handle.nextEntry]) handle.afterIosb := by
  obtain ⟨positions, rfl, chain, next⟩ := cyclical.consecutive
  refine ⟨positions ++ [handle.data.iosbIndex], ?_, ?_, ?_⟩
  · rw [array.nextEntry, List.map_append]
    rfl
  · rw [handle.afterIosb_static.1, List.isChain_append]
    refine ⟨chain, List.isChain_singleton _, ?_⟩
    intro last here first head
    obtain rfl : handle.data.iosbIndex = first := by simpa using head
    exact next last here
  · intro last here
    obtain rfl : handle.data.iosbIndex = last := by simpa using here
    rw [array.afterIosb, handle.afterIosb_static.1]

theorem work_serve {worker : Transport} {now : RTOSTime} {outcome : Bool} {index : ℕ}
    (awake : (manager.worker worker).draining = true)
    (current : (manager.queues worker).current = some index) :
    manager.work ⟨worker, outcome, now⟩ = manager.serve index ⟨worker, outcome, now⟩ := by
  have current : (manager.worker worker).queue.current = some index := current
  simp only [work, awake, Bool.not_true, Bool.false_eq_true, if_false, current]

/-- A worker that has receivers left gets closer to the end of its job. -/
private theorem Inv.serve_busy (inv : Inv book manager) {worker : Transport}
    (now : RTOSTime) {index : ℕ}
    {run : JobRun} (found : manager.traffic.sendings[index]? = some (.running run))
    (busy : run.pc worker ≠ .next []) :
    (manager.serve index ⟨worker, true, now⟩).worker = manager.worker ∧
      ∃ after, (manager.serve index ⟨worker, true, now⟩).traffic.sendings[index]? =
        some (.running after) ∧ after.rank worker < run.rank worker := by
  obtain ⟨publisher, object⟩ := inv.publisher found
  have object : manager.traffic.node.sendObjects[run.job.publisher]? = some publisher := object
  have inside := (List.getElem?_eq_some_iff.mp found).1
  have closer := (run.within publisher manager.traffic.sendWorld).rank_step worker now busy
  have settled := Traffic.work_eq ⟨worker, true, now⟩ found object
  unfold ConnectionManager.serve
  simp only [found]
  split
  · next ends => exact absurd ends busy
  · rw [settled]
    exact ⟨rfl, _, List.getElem?_set_self inside, closer⟩
  · rw [settled]
    exact ⟨rfl, _, List.getElem?_set_self inside, closer⟩

/-- A worker with a job in hand comes to the end of it. -/
theorem Inv.finishes (worker : Transport) (now : RTOSTime) {index : ℕ} {run : JobRun}
    (inv : Inv book manager) (awake : (manager.worker worker).draining = true)
    (current : (manager.queues worker).current = some index)
    (found : manager.traffic.sendings[index]? = some (.running run)) :
    ∃ steps : List WorkerStep, (∀ step ∈ steps, step.worker = worker) ∧
      Inv book (steps.foldl ConnectionManager.work manager) ∧
      (steps.foldl ConnectionManager.work manager).worker worker =
        { manager.worker worker with queue := (manager.queues worker).finish } := by
  induction bound : run.rank worker using Nat.strong_induction_on generalizing manager run with
  | _ rank ih =>
    by_cases ends : run.pc worker = .next []
    · refine ⟨[⟨worker, true, now⟩], by simp, inv.work _, ?_⟩
      have served : manager.serve index ⟨worker, true, now⟩ = manager.setWorker worker
          { manager.worker worker with queue := (manager.queues worker).finish } := by
        simp only [ConnectionManager.serve, found, ends]
        rfl
      rw [List.foldl_cons, List.foldl_nil, work_serve awake current, served]
      exact Function.update_self ..
    · obtain ⟨same, after, there, closer⟩ := inv.serve_busy now found ends
      rw [← work_serve awake current] at same there
      have kept : (manager.work ⟨worker, true, now⟩).worker worker = manager.worker worker := by
        rw [same]
      obtain ⟨steps, own, good, finished⟩ := ih _ (bound ▸ closer) (inv.work _)
        (by rw [kept]; exact awake) (by rw [queues, kept]; exact current) there rfl
      refine ⟨⟨worker, true, now⟩ :: steps, ?_, good, ?_⟩
      · intro step member
        rcases List.mem_cons.mp member with rfl | later
        · rfl
        · exact own step later
      · rw [List.foldl_cons, finished, queues, kept]
        rfl

/-- The job that a worker has in hand has been handed over. -/
theorem Inv.running_of_current (inv : Inv book manager) {worker : Transport} {index : ℕ}
    (current : (manager.queues worker).current = some index) :
    ∃ run, manager.traffic.sendings[index]? = some (.running run) := by
  have member := WorkQueue.mem_queued_of_started (WorkQueue.mem_started_of_current current)
  obtain ⟨sending, found⟩ : ∃ sending, manager.traffic.sendings[index]? = some sending :=
    ⟨_, List.getElem?_eq_getElem (inv.calls ▸ inv.named worker index member)⟩
  cases sending with
  | built job => exact absurd member ((inv.built index job found).2.2.1 worker)
  | running run => exact ⟨run, found⟩

/-- A worker between two jobs takes and finishes every job that waits. -/
theorem Inv.drains_idle (worker : Transport) (now : RTOSTime) {waiting : List ℕ}
    (inv : Inv book manager) (awake : (manager.worker worker).draining = true)
    (idle : (manager.queues worker).current = none)
    (waits : (manager.queues worker).waiting = waiting) :
    ∃ steps : List WorkerStep, (∀ step ∈ steps, step.worker = worker) ∧
      ((steps.foldl ConnectionManager.work manager).queues worker).done =
        manager.queued worker := by
  induction waiting generalizing manager with
  | nil =>
    refine ⟨[], by simp, ?_⟩
    simp [queued, WorkQueue.queued, WorkQueue.started, idle, waits]
  | cons index rest ih =>
    have idle' : (manager.worker worker).queue.current = none := idle
    have waits' : (manager.worker worker).queue.waiting = index :: rest := waits
    have taken : (manager.queues worker).take =
        ⟨(manager.queues worker).done, some index, rest⟩ := by
      simp only [WorkQueue.take, idle, waits]
    have worked : (manager.work ⟨worker, true, now⟩).worker worker =
        { manager.worker worker with queue := (manager.queues worker).take } := by
      simp only [ConnectionManager.work, awake, Bool.not_true, Bool.false_eq_true, if_false, idle',
        waits', reduceCtorEq]
      exact Function.update_self ..
    have holds : ((manager.work ⟨worker, true, now⟩).queues worker).current = some index := by
      rw [queues, worked, taken]
    have stepped : Inv book (manager.work ⟨worker, true, now⟩) := inv.work _
    obtain ⟨run, found⟩ := stepped.running_of_current holds
    obtain ⟨first, ownFirst, good, finished⟩ :=
      stepped.finishes worker now (by rw [worked]; exact awake) holds found
    have emptied : (first.foldl ConnectionManager.work (manager.work ⟨worker, true, now⟩)).queues
        worker = (manager.queues worker).take.finish := by
      rw [queues, finished, queues, worked]
    obtain ⟨second, ownSecond, done⟩ := ih good (by rw [finished, worked]; exact awake)
      (by rw [emptied]; rfl) (by rw [emptied, taken]; rfl)
    refine ⟨⟨worker, true, now⟩ :: first ++ second, ?_, ?_⟩
    · intro step member
      rcases List.mem_append.mp member with early | late
      · rcases List.mem_cons.mp early with rfl | later
        · rfl
        · exact ownFirst step later
      · exact ownSecond step late
    · rw [List.foldl_append, List.foldl_cons, done, queued, emptied, WorkQueue.queued_finish,
        WorkQueue.queued_take]
      rfl

/-- A worker that drains its queue comes to the end of it. -/
theorem Inv.drains (inv : Inv book manager) (worker : Transport) (now : RTOSTime)
    (awake : (manager.worker worker).draining = true) :
    ∃ steps : List WorkerStep, (∀ step ∈ steps, step.worker = worker) ∧
      ((steps.foldl ConnectionManager.work manager).queues worker).done =
        manager.queued worker := by
  cases current : (manager.queues worker).current with
  | none => exact inv.drains_idle worker now awake current rfl
  | some index =>
    obtain ⟨run, found⟩ := inv.running_of_current current
    obtain ⟨first, ownFirst, good, finished⟩ := inv.finishes worker now awake current found
    have emptied : (first.foldl ConnectionManager.work manager).queues worker =
        (manager.queues worker).finish := by
      rw [queues, finished]
    obtain ⟨second, ownSecond, done⟩ := good.drains_idle worker now (by rw [finished]; exact awake)
      (by rw [emptied]; rfl) rfl
    refine ⟨first ++ second, ?_, ?_⟩
    · intro step member
      rcases List.mem_append.mp member with early | late
      · exact ownFirst step early
      · exact ownSecond step late
    · rw [List.foldl_append, done, queued, emptied, WorkQueue.queued_finish]
      rfl

/-! ## Every reachable state -/

/-- States of the node under any interleaving of calls, deliveries and steps of the two workers. -/
def Reachable (book : AddressBook) (manager : ConnectionManager) : Prop :=
  ∃ world sendWorld, Reaches (step book) (fun _ _ => True) (initial world sendWorld) manager

theorem Inv.run {after : ConnectionManager} (inv : Inv book manager)
    (run : Reaches (ConnectionManager.step book) (fun _ _ => True) manager after) : Inv book after :=
  run.invariant (Inv book) inv fun _ action inv _ => inv.step action

theorem Reachable.inv (reachable : Reachable book manager) : Inv book manager := by
  obtain ⟨world, sendWorld, run⟩ := reachable
  exact (Inv.initial book world sendWorld).run run

/-- A worker serves the jobs of its queue one after the other: its history has no job twice and only
grows at its end, the jobs that are done are the first of it and have no receiver left for the
worker, and the worker leaves nothing behind, neither when it sleeps nor when it goes on. -/
structure Serves (book : AddressBook) (manager : ConnectionManager) (worker : Transport) : Prop where
  once : (manager.queued worker).Nodup
  grows : ∀ action, (manager.step book action).queued worker = manager.queued worker ∨
    ∃ index, (manager.step book action).queued worker = manager.queued worker ++ [index]
  inOrder : (manager.queues worker).done <+: manager.queued worker
  served : ∀ index ∈ (manager.queues worker).done, ∃ run,
    manager.traffic.sendings[index]? = some (.running run) ∧ run.pc worker = .next []
  sleeps : (manager.worker worker).draining = false → (manager.worker worker).semaphore = 0 →
    (∀ (index : ℕ) (rest : List Transport), manager.calls[index]? ≠ some (.posting worker rest)) →
      (manager.queues worker).done = manager.queued worker
  goesOn : (manager.worker worker).draining = true ∨ 0 < (manager.worker worker).semaphore →
    ∃ steps : List WorkerStep, (∀ step ∈ steps, step.worker = worker) ∧
      ((steps.foldl work manager).queues worker).done = manager.queued worker

theorem Inv.serves (inv : Inv book manager) (worker : Transport) : Serves book manager worker where
  once := inv.once worker
  grows action := (inv.extends action).queued worker
  inOrder := ⟨(manager.queues worker).current.toList ++ (manager.queues worker).waiting, by
    simp [queued, WorkQueue.queued, WorkQueue.started]⟩
  served index finished := by
    have member := WorkQueue.mem_queued_of_started (WorkQueue.mem_started_of_done finished)
    obtain ⟨sending, found⟩ : ∃ sending, manager.traffic.sendings[index]? = some sending :=
      ⟨_, List.getElem?_eq_getElem (inv.calls ▸ inv.named worker index member)⟩
    cases sending with
    | built job => exact absurd member ((inv.built index job found).2.2.1 worker)
    | running run =>
      obtain ⟨_, _, _, job⟩ := inv.running index run found
      exact ⟨run, found, (job.at_ worker).done finished⟩
  sleeps asleep silent unposted := by
    have empty : (manager.queues worker).waiting = [] := by
      by_contra waits
      rcases inv.posted worker waits with awake | signalled | ⟨index, rest, posting⟩
      · exact absurd (asleep.symm.trans awake) (by decide)
      · omega
      · exact unposted index rest posting
    simp [queued, WorkQueue.queued, WorkQueue.started, inv.idle worker asleep, empty]
  goesOn moves := by
    by_cases awake : (manager.worker worker).draining = true
    · exact inv.drains worker ⟨0, 0⟩ awake
    · have signalled := moves.resolve_left awake
      have asleep : (manager.worker worker).draining = false := by simpa using awake
      have woken : (manager.work ⟨worker, true, ⟨0, 0⟩⟩).worker worker =
          { manager.worker worker with
            semaphore := (manager.worker worker).semaphore - 1
            draining := true } := by
        simp only [ConnectionManager.work, asleep, Bool.not_false, if_true,
          Nat.ne_of_gt signalled, if_false]
        exact Function.update_self ..
      obtain ⟨steps, own, done⟩ := (inv.work ⟨worker, true, ⟨0, 0⟩⟩).drains worker ⟨0, 0⟩
        (by rw [woken])
      refine ⟨⟨worker, true, ⟨0, 0⟩⟩ :: steps, ?_, ?_⟩
      · intro step member
        rcases List.mem_cons.mp member with rfl | later
        · rfl
        · exact own step later
      · rw [List.foldl_cons, done, queued, queues, woken]
        rfl

end ConnectionManager

end Eroil
