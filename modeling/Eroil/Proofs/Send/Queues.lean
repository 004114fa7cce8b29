import Mathlib.Data.List.Chain
import Eroil.Model.Send.Workers
import Eroil.Proofs.Router.Close
import Eroil.Proofs.Send.Completion

/-! # Completions follow the order of the sends

The local and the remote worker each take their jobs in queue order, and a job is completed by
whichever of them is last. If every worker that serves an earlier job also serves a later one, the
later job cannot be completed first: its last receiver on each of these workers comes after the
whole of the earlier job there. The invariant says for every job how far each worker can be with it.
-/

namespace Eroil

open Lib

/-! ## What a step of a job leaves alone -/

namespace SendJob

def receiverCount (job : SendJob) : ℕ := job.localRecvrs.length + job.remoteRecvrs.length

/-- The counts of a job that was just built. -/
structure Unsent (job : SendJob) : Prop where
  noLocal : job.localFailureCount = 0
  noRemote : job.remoteFailureCount = 0
  pending : job.pendingSends = job.receiverCount
  small : job.receiverCount < 2 ^ 32

private theorem receivers_countFailure (job : SendJob) (worker other : Transport) :
    (job.countFailure worker).receivers other = job.receivers other := by
  cases worker <;> cases other <;> rfl

private theorem receiverCount_of_receivers {first second : SendJob}
    (same : first.receivers = second.receivers) : first.receiverCount = second.receiverCount := by
  have locals : first.localRecvrs = second.localRecvrs := congrFun same .shm
  have remotes : first.remoteRecvrs = second.remoteRecvrs := congrFun same .socket
  rw [receiverCount, receiverCount, locals, remotes]

end SendJob

namespace JobRun

/-- The run in the publisher and the memory that it finds. -/
def within (run : JobRun) (publisher : SendHandle) (world : SendWorld) : JobRun :=
  { run with publisher := publisher, world := world }

theorem Inv.within {total : ℕ} {run : JobRun} (inv : Inv total run) (publisher : SendHandle)
    (world : SendWorld) : Inv total (run.within publisher world) :=
  ⟨inv.pending, inv.loaded, inv.failures, inv.bounded, inv.expected, inv.unreported, inv.reported⟩

/-- A step changes no receivers. -/
theorem step_receivers (run : JobRun) (action : WorkerStep) :
    (run.step action).job.receivers = run.job.receivers := by
  funext other
  rw [step]
  split
  · rfl
  · rfl
  · split_ifs <;> rfl
  · exact SendJob.receivers_countFailure ..
  · rfl
  · split_ifs
    · rfl
    · cases other <;> rfl
    · cases other <;> rfl
    · rfl
  · cases other <;> rfl

/-- Nothing but a completion is reported. -/
private theorem step_reports (run : JobRun) (action : WorkerStep)
    (busy : ∀ rest, run.pc action.worker ≠ .finalize rest) :
    (run.step action).reports = run.reports := by
  rw [step]
  split
  · rfl
  · rfl
  · split_ifs <;> rfl
  · rfl
  · rfl
  · split_ifs <;> rfl
  · next rest place => exact absurd place (busy rest)

/-- The worker at `finalize` finds the job unreported and reports it. -/
private theorem Inv.reports_finalize {total : ℕ} {run : JobRun} (inv : Inv total run)
    {worker : Transport}
    {rest : List (Option ℕ)} (here : run.pc worker = .finalize rest) : run.reports = [] := by
  have part := WorkerPc.measure_le_sum WorkerPc.reporting run.pc worker
  rw [here] at part
  simp only [WorkerPc.reporting] at part
  have zero : run.job.pendingSends = 0 := by
    by_contra positive
    have none := (inv.unreported (Nat.pos_of_ne_zero positive)).2
    omega
  rcases inv.reported zero with first | ⟨_, none⟩
  · exact first.1
  · omega

private theorem finalize_reports (run : JobRun) (action : WorkerStep) {rest : List (Option ℕ)}
    (here : run.pc action.worker = .finalize rest) : (run.step action).reports ≠ [] := by
  simp [step, here, goto, finalizeSendIosb]

/-- A reported job has no receiver left. -/
theorem Inv.remaining_of_reported {total : ℕ} {run : JobRun} (inv : Inv total run)
    (reported : run.reports ≠ []) (worker : Transport) : (run.pc worker).remaining = 0 := by
  have part := WorkerPc.measure_le_sum WorkerPc.remaining run.pc worker
  by_contra left
  have positive : 0 < run.job.pendingSends := by
    rw [inv.pending]
    omega
  exact reported (inv.unreported positive).1

/-- When both workers are at the end of their loops, the job has been reported. -/
theorem Inv.reported_of_ends {total : ℕ} {run : JobRun} (inv : Inv total run)
    (ends : ∀ worker, run.pc worker = .next []) : run.reports ≠ [] := by
  have zero : run.job.pendingSends = 0 := by
    rw [inv.pending, WorkerPc.sum, ends, ends]
    rfl
  rcases inv.reported zero with ⟨_, one⟩ | ⟨single, _⟩
  · rw [WorkerPc.sum, ends, ends] at one
    cases one
  · simp [single]

/-- How a job starts: every worker has all of its receivers to serve, and a job without receivers is
reported at once. -/
theorem enqueueSend_start (job : SendJob) (publisher : SendHandle) (world : SendWorld)
    (now : RTOSTime) :
    (enqueueSend job publisher world now).job = job ∧
      (∀ worker, (enqueueSend job publisher world now).pc worker = .next (job.receivers worker)) ∧
      ((enqueueSend job publisher world now).reports ≠ [] ↔
        job.localRecvrs = [] ∧ job.remoteRecvrs = []) := by
  rw [enqueueSend]
  split_ifs with none
  · exact ⟨rfl, fun _ => rfl, by simp [finalizeSendIosb, none]⟩
  · exact ⟨rfl, fun _ => rfl, by simpa using none⟩

end JobRun

/-! ## What a step of the traffic leaves alone -/

namespace Traffic

variable {book : AddressBook} {traffic : Traffic}

/-- A job that is built in this state has the counts of its receivers. -/
private theorem buildSendJob_unsent (distinct : traffic.node.SendersDistinct) {myId : NodeId}
    {label : Label}
    {uid : HandleUid} {sendBuf : SendBuf} {seq : ℕ} {job : SendJob}
    (built : traffic.node.router.buildSendJob myId label uid sendBuf seq = .ok job) : job.Unsent := by
  obtain ⟨route, publisher, found, -, -, -, rfl⟩ := JobRun.buildSendJob_ok.mp built
  have bound := (distinct label route found).length_le
  have small : route.localSubscribers.length + route.remoteSubscribers.length < 2 ^ 32 := by omega
  have count : SendJob.receiverCount ⟨myId, label, sendBuf, seq, publisher, 0,
      route.localSubscribers.map traffic.node.router.transports.getSendShm, 0,
      route.remoteSubscribers.map traffic.node.router.transports.getSocket,
      wrap32 (route.localSubscribers.length + route.remoteSubscribers.length)⟩ =
      route.localSubscribers.length + route.remoteSubscribers.length := by
    simp [SendJob.receiverCount]
  exact ⟨rfl, rfl, by rw [count]; exact wrap32_of_lt small, by rwa [count]⟩

/-- The publisher of a job that is built exists. -/
private theorem Inv.publisher_lt (inv : Inv book traffic) {myId : NodeId} {label : Label}
    {uid : HandleUid}
    {sendBuf : SendBuf} {seq : ℕ} {job : SendJob}
    (built : traffic.node.router.buildSendJob myId label uid sendBuf seq = .ok job) :
    job.publisher < traffic.node.sendObjects.length := by
  obtain ⟨_, _, seen, _⟩ := inv.send.consistent.stored uid _ (buildSendJob_registered built)
  obtain ⟨handle, found, -⟩ := Option.map_eq_some_iff.mp seen
  exact (List.getElem?_eq_some_iff.mp found).1

private theorem created_le (book : AddressBook) (traffic : Traffic) (action : Action) :
    traffic.node.sendObjects.length ≤ (traffic.step book action).node.sendObjects.length :=
  (traffic.grows book action .send).1

theorem sendersDistinct_step (book : AddressBook) (distinct : traffic.node.SendersDistinct)
    (action : Action) : (traffic.step book action).node.SendersDistinct := by
  cases action with
  | call action whole => exact distinct.step book traffic.node action
  | snapshot arrival =>
    simp only [step, snapshot]
    split <;> exact distinct
  | writeNext index =>
    simp only [step, writeNext]
    split
    · next arrival ref left _ =>
      have same := traffic.node.deliverTo_router arrival ref
      simp only [Node.SendersDistinct, same]
      exact distinct
    · exact distinct
  | build myId label uid sendBuf seq =>
    simp only [step, build]
    split <;> exact distinct
  | enqueue index now =>
    simp only [step, enqueue]
    split
    · split <;> exact distinct
    · exact distinct
  | work index action =>
    simp only [step, work]
    split
    · split <;> exact distinct
    · exact distinct

theorem enqueue_eq {index : ℕ} {job : SendJob} {publisher : SendHandle} (now : RTOSTime)
    (found : traffic.sendings[index]? = some (.built job))
    (there : traffic.node.sendObjects[job.publisher]? = some publisher) :
    traffic.enqueue index now =
      traffic.settle index (JobRun.enqueueSend job publisher traffic.sendWorld now) := by
  simp only [enqueue, found, there]

theorem work_eq {index : ℕ} {run : JobRun} {publisher : SendHandle} (action : WorkerStep)
    (found : traffic.sendings[index]? = some (.running run))
    (there : traffic.node.sendObjects[run.job.publisher]? = some publisher) :
    traffic.work index action =
      traffic.settle index ((run.within publisher traffic.sendWorld).step action) := by
  simp only [work, found, there]
  rfl

end Traffic

namespace ConnectionManager

variable {book : AddressBook} {manager : ConnectionManager}

/-! ## The invariant -/

/-- The jobs that are completed, in order. -/
def completed (manager : ConnectionManager) : List ℕ := manager.completions.map (·.index)

def queues (manager : ConnectionManager) (worker : Transport) : WorkQueue ℕ :=
  (manager.worker worker).queue

/-- The jobs that were ever pushed to the queue of a worker, in order. -/
def queued (manager : ConnectionManager) (worker : Transport) : List ℕ :=
  (manager.queues worker).queued

/-- How far one worker can be with a job: it has been given the job if the job was offered and has
receivers for it, it has not touched a job that it has not begun, and it is through with a job that
it has done. -/
structure JobInv.At (queue : WorkQueue ℕ) (index : ℕ) (left : List Transport) (run : JobRun)
    (worker : Transport) : Prop where
  queued : index ∈ queue.queued ↔ run.job.receivers worker ≠ [] ∧ worker ∉ left
  fresh : index ∉ queue.started → run.pc worker = .next (run.job.receivers worker)
  done : index ∈ queue.done → run.pc worker = .next []

/-- How far a job can be, given the workers that it is yet to be offered to, the queues and the jobs
that are completed. -/
structure JobInv (queue : Transport → WorkQueue ℕ) (completed : List ℕ) (index : ℕ)
    (left : List Transport) (run : JobRun) : Prop where
  accounts : JobRun.Inv run.job.receiverCount run
  small : run.job.receiverCount < 2 ^ 32
  distinct : left.Nodup
  at_ : ∀ worker, JobInv.At (queue worker) index left run worker
  completed : index ∈ completed ↔ run.reports ≠ []

/-- Other jobs may move in the queue. -/
theorem JobInv.At.congr {queue other : WorkQueue ℕ} {index : ℕ} {left left' : List Transport}
    {run : JobRun} {worker : Transport} (inv : JobInv.At queue index left run worker)
    (queued : index ∈ other.queued ↔ index ∈ queue.queued)
    (started : index ∈ queue.started → index ∈ other.started)
    (done : index ∈ other.done → index ∈ queue.done)
    (offered : worker ∈ left' ↔ worker ∈ left) : JobInv.At other index left' run worker where
  queued := by rw [queued, inv.queued, offered]
  fresh unstarted := inv.fresh (mt started unstarted)
  done finished := inv.done (done finished)

structure Inv (book : AddressBook) (manager : ConnectionManager) : Prop where
  traffic : Traffic.Inv book manager.traffic
  distinct : manager.traffic.node.SendersDistinct
  published : ∀ sending ∈ manager.traffic.sendings,
    sending.publisher < manager.traffic.node.sendObjects.length
  calls : manager.calls.length = manager.traffic.sendings.length
  built : ∀ index job, manager.traffic.sendings[index]? = some (.built job) →
    manager.calls[index]? = some .built ∧ job.Unsent ∧
      (∀ worker, index ∉ manager.queued worker) ∧ index ∉ manager.completed
  running : ∀ index run, manager.traffic.sendings[index]? = some (.running run) →
    ∃ call, manager.calls[index]? = some call ∧ call ≠ .built ∧
      JobInv manager.queues manager.completed index call.left run
  named : ∀ worker, ∀ index ∈ manager.queued worker, index < manager.calls.length
  recorded : ∀ index ∈ manager.completed, index < manager.calls.length
  once : ∀ worker, (manager.queued worker).Nodup
  onceCompleted : manager.completed.Nodup
  idle : ∀ worker, (manager.worker worker).draining = false →
    (manager.queues worker).current = none
  posted : ∀ worker, (manager.queues worker).waiting ≠ [] →
    (manager.worker worker).draining = true ∨ 0 < (manager.worker worker).semaphore ∨
      ∃ (index : ℕ) (rest : List Transport), manager.calls[index]? = some (.posting worker rest)

theorem Inv.initial (book : AddressBook) (world : RecvWorld) (sendWorld : SendWorld) :
    Inv book (ConnectionManager.initial world sendWorld) where
  traffic := .initial book world sendWorld
  distinct := Routes.AllDistinct.empty
  published _ member := nomatch member
  calls := rfl
  built index job found := by simp [ConnectionManager.initial, Traffic.initial] at found
  running index run found := by simp [ConnectionManager.initial, Traffic.initial] at found
  named _ _ member := nomatch member
  recorded _ member := nomatch member
  once _ := List.nodup_nil
  onceCompleted := List.nodup_nil
  idle _ _ := rfl
  posted _ waits := absurd rfl waits

/-! ## Every step keeps the invariant -/

theorem Other.sendings (book : AddressBook) (other : Other) (traffic : Traffic) :
    (traffic.step book other.action).sendings = traffic.sendings := by
  cases other with
  | call action whole => rfl
  | snapshot arrival => exact Traffic.snapshot_sendings arrival
  | writeNext index => exact Traffic.writeNext_sendings index

theorem Inv.other (inv : Inv book manager) (other : Other) :
    Inv book (manager.step book (.other other)) := by
  have same : (manager.step book (.other other)).traffic.sendings = manager.traffic.sendings :=
    other.sendings book manager.traffic
  refine ⟨inv.traffic.step other.action, Traffic.sendersDistinct_step book inv.distinct other.action,
    ?_, ?_, ?_, ?_, inv.named, inv.recorded, inv.once, inv.onceCompleted, inv.idle, inv.posted⟩
  · intro sending member
    rw [same] at member
    exact (inv.published sending member).trans_le (manager.traffic.created_le book other.action)
  · rw [same]
    exact inv.calls
  · rw [same]
    exact inv.built
  · rw [same]
    exact inv.running

/-- A job that was just built has not been offered to anyone. -/
theorem Inv.begin (inv : Inv book manager) (myId : NodeId) (label : Label) (uid : HandleUid)
    (sendBuf : SendBuf) (seq : ℕ) : Inv book (manager.begin myId label uid sendBuf seq) := by
  have stepped := inv.traffic.step (.build myId label uid sendBuf seq)
  have distinct := Traffic.sendersDistinct_step book inv.distinct
    (.build myId label uid sendBuf seq)
  simp only [Traffic.step] at stepped distinct
  unfold ConnectionManager.begin
  split
  · exact inv
  · next job built =>
    have appended : manager.traffic.build myId label uid sendBuf seq =
        { manager.traffic with sendings := manager.traffic.sendings ++ [.built job] } := by
      simp only [Traffic.build, built]
    have longer (index : ℕ) (call : EnqueuePc) (found : manager.calls[index]? = some call) :
        (manager.calls ++ [EnqueuePc.built])[index]? = some call := by
      exact (List.getElem?_append_left (List.getElem?_eq_some_iff.mp found).1).trans found
    rw [appended] at stepped distinct ⊢
    refine ⟨stepped, distinct, ?_, ?_, ?_, ?_, ?_, ?_, inv.once, inv.onceCompleted, inv.idle, ?_⟩
    · intro sending member
      rcases List.mem_append.mp member with old | new
      · exact inv.published sending old
      · obtain rfl := List.mem_singleton.mp new
        exact inv.traffic.publisher_lt built
    · simp [inv.calls]
    · intro index other found
      rw [List.getElem?_append] at found
      split_ifs at found with old
      · obtain ⟨call, rest⟩ := inv.built index other found
        exact ⟨longer index _ call, rest⟩
      · have last := (List.getElem?_eq_some_iff.mp found).1
        simp only [List.length_singleton, Nat.lt_one_iff] at last
        have here : index = manager.calls.length := by
          have calls := inv.calls
          omega
        rw [last, List.getElem?_cons_zero] at found
        cases found
        subst here
        refine ⟨List.getElem?_concat_length, Traffic.buildSendJob_unsent inv.distinct built, ?_, ?_⟩
        · intro worker member
          exact absurd (inv.named worker _ member) (Nat.lt_irrefl _)
        · intro member
          exact absurd (inv.recorded _ member) (Nat.lt_irrefl _)
    · intro index run found
      rw [List.getElem?_append] at found
      split_ifs at found with old
      · obtain ⟨call, there, rest⟩ := inv.running index run found
        exact ⟨call, longer index _ there, rest⟩
      · cases List.mem_singleton.mp (List.mem_of_getElem? found)
    · intro worker index member
      have bound := inv.named worker index member
      rw [List.length_append]
      omega
    · intro index member
      have bound := inv.recorded index member
      rw [List.length_append]
      omega
    · intro worker waits
      rcases inv.posted worker waits with draining | signalled | ⟨index, rest, posting⟩
      · exact .inl draining
      · exact .inr (.inl signalled)
      · exact .inr (.inr ⟨index, rest, longer index _ posting⟩)

/-- A step of one job, with what it does to the call that offers the job and to the record. -/
theorem Inv.settle (inv : Inv book manager) (call : EnqueuePc) {index : ℕ} {before : Sending}
    {run : JobRun} {calls : List EnqueuePc} {completions : List Completion}
    (found : manager.traffic.sendings[index]? = some before)
    (kept : run.job.publisher = before.publisher)
    (stepped : Traffic.Inv book (manager.traffic.settle index run))
    (lengths : calls.length = manager.calls.length)
    (otherCalls : ∀ other, other ≠ index → calls[other]? = manager.calls[other]?)
    (posting : ∀ worker rest, manager.calls[index]? ≠ some (.posting worker rest) ∨
      calls[index]? = some (.posting worker rest))
    (here : calls[index]? = some call) (handed : call ≠ .built)
    (records : completions.map (·.index) = manager.completed ∨
      completions.map (·.index) = manager.completed ++ [index] ∧ index ∉ manager.completed)
    (job : JobInv manager.queues (completions.map (·.index)) index call.left run) :
    Inv book { manager with
      traffic := manager.traffic.settle index run
      calls := calls
      completions := completions } := by
  have inside := (List.getElem?_eq_some_iff.mp found).1
  have recorded : ∀ other, other ≠ index →
      (other ∈ completions.map (·.index) ↔ other ∈ manager.completed) := by
    intro other different
    rcases records with same | ⟨more, -⟩
    · rw [same]
    · rw [more, List.mem_append, List.mem_singleton]
      exact or_iff_left different
  have length : (manager.traffic.settle index run).node.sendObjects.length =
      manager.traffic.node.sendObjects.length := List.length_set
  refine ⟨stepped, inv.distinct, ?_, ?_, ?_, ?_, ?_, ?_, inv.once, ?_, inv.idle, ?_⟩
  · intro sending member
    rw [length]
    obtain ⟨other, there⟩ := List.getElem?_of_mem member
    by_cases same : other = index
    · subst same
      simp only [Traffic.settle, List.getElem?_set_self inside, Option.some.injEq] at there
      subst there
      rw [Sending.publisher, kept]
      exact inv.published before (List.mem_of_getElem? found)
    · simp only [Traffic.settle, List.getElem?_set_ne (Ne.symm same)] at there
      exact inv.published sending (List.mem_of_getElem? there)
  · simp [Traffic.settle, lengths, inv.calls]
  · intro other job there
    have different : other ≠ index := by
      rintro rfl
      simp [Traffic.settle, List.getElem?_set_self inside] at there
    simp only [Traffic.settle, List.getElem?_set_ne (Ne.symm different)] at there
    obtain ⟨call, unsent, unqueued, unrecorded⟩ := inv.built other job there
    exact ⟨(otherCalls other different).trans call, unsent, unqueued,
      mt (recorded other different).mp unrecorded⟩
  · intro other run' there
    by_cases same : other = index
    · subst same
      simp only [Traffic.settle, List.getElem?_set_self inside, Option.some.injEq,
        Sending.running.injEq] at there
      subst there
      exact ⟨call, here, handed, job⟩
    · simp only [Traffic.settle, List.getElem?_set_ne (Ne.symm same)] at there
      obtain ⟨call', there', handed', job'⟩ := inv.running other run' there
      exact ⟨call', (otherCalls other same).trans there', handed',
        { job' with completed := (recorded other same).trans job'.completed }⟩
  · intro worker other member
    exact lengths.symm ▸ inv.named worker other member
  · intro other member
    by_cases same : other = index
    · subst same
      show other < calls.length
      have total := inv.calls
      omega
    · exact lengths.symm ▸ inv.recorded other ((recorded other same).mp member)
  · show (completions.map (·.index)).Nodup
    rcases records with same | ⟨more, unrecorded⟩
    · rw [same]
      exact inv.onceCompleted
    · rw [more]
      exact inv.onceCompleted.append (List.nodup_singleton _)
        (List.disjoint_singleton.mpr unrecorded)
  · intro worker waits
    rcases inv.posted worker waits with draining | signalled | ⟨other, rest, there⟩
    · exact .inl draining
    · exact .inr (.inl signalled)
    · refine .inr (.inr ⟨other, rest, ?_⟩)
      by_cases same : other = index
      · subst same
        exact (posting worker rest).resolve_left (not_not.mpr there)
      · exact (otherCalls other same).trans there

theorem Inv.publisher (inv : Inv book manager) {index : ℕ} {sending : Sending}
    (found : manager.traffic.sendings[index]? = some sending) :
    ∃ publisher, manager.traffic.node.sendObjects[sending.publisher]? = some publisher :=
  ⟨_, List.getElem?_eq_getElem (inv.published sending (List.mem_of_getElem? found))⟩

theorem completion_eq {index : ℕ} {sending : Sending} {publisher : SendHandle}
    (found : manager.traffic.sendings[index]? = some sending)
    (there : manager.traffic.node.sendObjects[sending.publisher]? = some publisher) :
    manager.completion index = [⟨index, sending.publisher, publisher.nextEntry⟩] := by
  simp only [completion, found, there]

/-- The call hands its job over: to the workers, or to nobody if it has no receivers. -/
private theorem Inv.launch (inv : Inv book manager) {index : ℕ} {job : SendJob}
    (found : manager.traffic.sendings[index]? = some (.built job)) (now : RTOSTime) :
    Inv book { manager with
      traffic := manager.traffic.enqueue index now
      calls := manager.calls.set index (.offering [.shm, .socket])
      completions := manager.completions ++
        if job.localRecvrs = [] ∧ job.remoteRecvrs = [] then manager.completion index else [] } := by
  obtain ⟨there, unsent, unqueued, unrecorded⟩ := inv.built index job found
  obtain ⟨publisher, object⟩ := inv.publisher found
  have object : manager.traffic.node.sendObjects[job.publisher]? = some publisher := object
  have stepped := inv.traffic.step (.enqueue index now)
  simp only [Traffic.step, Traffic.enqueue_eq now found object] at stepped ⊢
  obtain ⟨sameJob, start, reported⟩ :=
    JobRun.enqueueSend_start job publisher manager.traffic.sendWorld now
  have accounts := JobRun.Inv.enqueueSend job publisher manager.traffic.sendWorld now unsent.noLocal
    unsent.noRemote unsent.pending
  have recordedEq := completion_eq found object
  have inside := (List.getElem?_eq_some_iff.mp there).1
  generalize JobRun.enqueueSend job publisher manager.traffic.sendWorld now = run
    at stepped sameJob start reported accounts ⊢
  subst sameJob
  refine inv.settle (.offering [.shm, .socket]) found rfl stepped List.length_set ?_ ?_
    (List.getElem?_set_self inside) (by simp) ?_
    ⟨accounts, unsent.small, by simp [EnqueuePc.left], ?_, ?_⟩
  · intro other different
    exact List.getElem?_set_ne (Ne.symm different)
  · intro worker rest
    rw [there]
    exact .inl (by simp)
  · by_cases none : run.job.localRecvrs = [] ∧ run.job.remoteRecvrs = []
    · rw [if_pos none, recordedEq]
      exact .inr ⟨by simp [completed], unrecorded⟩
    · rw [if_neg none]
      exact .inl (by simp [completed])
  · intro worker
    have offered : worker ∈ (EnqueuePc.offering [.shm, .socket]).left := by
      cases worker <;> simp [EnqueuePc.left]
    refine ⟨iff_of_false (unqueued worker) fun both => both.2 offered, fun _ => start worker, ?_⟩
    intro finished
    exact absurd (WorkQueue.mem_queued_of_started (WorkQueue.mem_started_of_done finished))
      (unqueued worker)
  · rw [reported]
    by_cases none : run.job.localRecvrs = [] ∧ run.job.remoteRecvrs = []
    · rw [if_pos none, recordedEq]
      exact iff_of_true (by simp) none
    · rw [if_neg none, List.append_nil]
      exact iff_of_false unrecorded none

/-- One worker changes, together with the call of one job: its queue gains at most this job. -/
theorem Inv.offer (inv : Inv book manager) (next : EnqueuePc) {index : ℕ} {run : JobRun}
    {call : EnqueuePc} {worker : Transport} {state : SendWorker}
    (found : manager.traffic.sendings[index]? = some (.running run))
    (here : manager.calls[index]? = some call) (handed : next ≠ .built)
    (queued : state.queue.queued = manager.queued worker ∨
      state.queue.queued = manager.queued worker ++ [index] ∧ index ∉ manager.queued worker)
    (started : state.queue.started = (manager.queues worker).started)
    (done : state.queue.done = (manager.queues worker).done)
    (distinct : next.left.Nodup) (job : JobInv.At state.queue index next.left run worker)
    (left : ∀ other, other ≠ worker → (other ∈ next.left ↔ other ∈ call.left))
    (idle : state.draining = false → state.queue.current = none)
    (posted : state.queue.waiting ≠ [] → state.draining = true ∨ 0 < state.semaphore ∨
      ∃ (other : ℕ) (rest : List Transport),
        (manager.calls.set index next)[other]? = some (.posting worker rest))
    (posting : ∀ other, other ≠ worker → ∀ rest, call ≠ .posting other rest) :
    Inv book { manager.setWorker worker state with calls := manager.calls.set index next } := by
  have inside := (List.getElem?_eq_some_iff.mp here).1
  have changed : (manager.setWorker worker state).worker worker = state := Function.update_self ..
  have frame (other : Transport) (different : other ≠ worker) :
      (manager.setWorker worker state).worker other = manager.worker other :=
    Function.update_of_ne different ..
  have others (other : ℕ) (different : other ≠ index) :
      other ∈ state.queue.queued ↔ other ∈ manager.queued worker := by
    rcases queued with same | ⟨more, -⟩
    · rw [same]
    · rw [more, List.mem_append, List.mem_singleton]
      exact or_iff_left different
  obtain ⟨_, there, -, inv'⟩ := inv.running index run found
  obtain rfl := Option.some.inj (there.symm.trans here)
  refine ⟨inv.traffic, inv.distinct, inv.published, ?_, ?_, ?_, ?_, ?_, ?_, inv.onceCompleted, ?_,
    ?_⟩
  · rw [List.length_set]
    exact inv.calls
  · intro other job there
    have different : other ≠ index := by
      rintro rfl
      have same := found.symm.trans there
      cases same
    obtain ⟨call, unsent, unqueued, unrecorded⟩ := inv.built other job there
    refine ⟨(List.getElem?_set_ne (Ne.symm different)).trans call, unsent, ?_, unrecorded⟩
    intro some_
    show other ∉ ((manager.setWorker worker state).worker some_).queue.queued
    by_cases mine : some_ = worker
    · rw [mine, changed, others other different]
      exact unqueued worker
    · rw [frame some_ mine]
      exact unqueued some_
  · intro other run' there
    by_cases same : other = index
    · subst same
      obtain rfl := Sending.running.inj (Option.some.inj (found.symm.trans there))
      refine ⟨next, List.getElem?_set_self inside, handed,
        { inv' with distinct := distinct, at_ := ?_ }⟩
      intro some_
      show JobInv.At ((manager.setWorker worker state).worker some_).queue _ _ _ _
      by_cases mine : some_ = worker
      · rw [mine, changed]
        exact job
      · rw [frame some_ mine]
        exact (inv'.at_ some_).congr Iff.rfl id id (left some_ mine)
    · obtain ⟨call', there', handed', job'⟩ := inv.running other run' there
      refine ⟨call', (List.getElem?_set_ne (Ne.symm same)).trans there', handed',
        { job' with at_ := ?_ }⟩
      intro some_
      show JobInv.At ((manager.setWorker worker state).worker some_).queue _ _ _ _
      by_cases mine : some_ = worker
      · subst mine
        rw [changed]
        exact (job'.at_ some_).congr (others other same) (fun begun => started.symm ▸ begun)
          (fun finished => done ▸ finished) Iff.rfl
      · rw [frame some_ mine]
        exact job'.at_ some_
  · intro some_ other member
    have member : other ∈ ((manager.setWorker worker state).worker some_).queue.queued := member
    rw [List.length_set]
    by_cases mine : some_ = worker
    · subst mine
      rw [changed] at member
      by_cases same : other = index
      · exact same ▸ inside
      · exact inv.named some_ other ((others other same).mp member)
    · rw [frame some_ mine] at member
      exact inv.named some_ other member
  · intro other member
    rw [List.length_set]
    exact inv.recorded other member
  · intro some_
    show (((manager.setWorker worker state).worker some_).queue.queued).Nodup
    by_cases mine : some_ = worker
    · subst mine
      rw [changed]
      rcases queued with same | ⟨more, unqueued⟩
      · rw [same]
        exact inv.once some_
      · rw [more]
        exact (inv.once some_).append (List.nodup_singleton _)
          (List.disjoint_singleton.mpr unqueued)
    · rw [frame some_ mine]
      exact inv.once some_
  · intro some_
    show ((manager.setWorker worker state).worker some_).draining = false →
      ((manager.setWorker worker state).worker some_).queue.current = none
    by_cases mine : some_ = worker
    · rw [mine, changed]
      exact idle
    · rw [frame some_ mine]
      exact inv.idle some_
  · intro some_
    show ((manager.setWorker worker state).worker some_).queue.waiting ≠ [] →
      ((manager.setWorker worker state).worker some_).draining = true ∨
        0 < ((manager.setWorker worker state).worker some_).semaphore ∨
        ∃ (other : ℕ) (rest : List Transport),
          (manager.calls.set index next)[other]? = some (.posting some_ rest)
    by_cases mine : some_ = worker
    · rw [mine, changed]
      exact posted
    · rw [frame some_ mine]
      intro waits
      rcases inv.posted some_ waits with draining | signalled | ⟨other, rest, there⟩
      · exact .inl draining
      · exact .inr (.inl signalled)
      · refine .inr (.inr ⟨other, rest, ?_⟩)
        have different : index ≠ other := by
          rintro rfl
          exact posting some_ mine rest (Option.some.inj (here.symm.trans there))
        exact (List.getElem?_set_ne different).trans there

private theorem setWorker_self (worker : Transport) :
    manager.setWorker worker (manager.worker worker) = manager := by
  simp only [setWorker, Function.update_eq_self]

theorem Inv.proceed (inv : Inv book manager) (index : ℕ) (now : RTOSTime) :
    Inv book (manager.proceed index now) := by
  unfold ConnectionManager.proceed
  split
  · next job _ found => exact inv.launch found now
  · next worker rest run here found =>
    obtain ⟨call, here', -, job⟩ := inv.running index run found
    obtain rfl : call = .offering (worker :: rest) := Option.some.inj (here'.symm.trans here)
    obtain ⟨notLeft, distinct⟩ := List.nodup_cons.mp job.distinct
    have inside := (List.getElem?_eq_some_iff.mp here).1
    have left (other : Transport) (different : other ≠ worker) :
        other ∈ rest ↔ other ∈ (EnqueuePc.offering (worker :: rest)).left := by
      simp [EnqueuePc.left, different]
    split
    · next none =>
      have passed :
          JobInv.At (manager.queues worker) index (EnqueuePc.offering rest).left run worker := by
        refine ⟨?_, (job.at_ worker).fresh, (job.at_ worker).done⟩
        rw [(job.at_ worker).queued]
        exact iff_of_false (fun both => both.1 none) (fun both => both.1 none)
      have posted (waits : (manager.queues worker).waiting ≠ []) :
          (manager.worker worker).draining = true ∨ 0 < (manager.worker worker).semaphore ∨
            ∃ (other : ℕ) (tail : List Transport),
              (manager.calls.set index (.offering rest))[other]? = some (.posting worker tail) := by
        rcases inv.posted worker waits with draining | signalled | ⟨other, tail, there⟩
        · exact .inl draining
        · exact .inr (.inl signalled)
        · refine .inr (.inr ⟨other, tail, ?_⟩)
          have different : index ≠ other := by
            rintro rfl
            cases here.symm.trans there
          exact (List.getElem?_set_ne different).trans there
      have skipped :=
        inv.offer (.offering rest) found here (by simp) (.inl rfl) rfl rfl distinct passed left
        (inv.idle worker) posted (by simp)
      rwa [setWorker_self] at skipped
    · next some_ =>
      have unqueued : index ∉ manager.queued worker := fun member =>
        (((job.at_ worker).queued).mp member).2 List.mem_cons_self
      refine inv.offer (.posting worker rest) found here (by simp)
        (.inr ⟨WorkQueue.queued_push .., unqueued⟩) rfl rfl distinct ?_ left (inv.idle worker)
        (fun _ => .inr (.inr ⟨index, rest, List.getElem?_set_self inside⟩)) (by simp)
      refine ⟨?_, (job.at_ worker).fresh, (job.at_ worker).done⟩
      rw [WorkQueue.queued_push]
      exact iff_of_true (by simp) ⟨some_, notLeft⟩
  · next worker rest run here found =>
    obtain ⟨call, here', -, job⟩ := inv.running index run found
    obtain rfl : call = .posting worker rest := Option.some.inj (here'.symm.trans here)
    refine inv.offer (.offering rest) found here (by simp) (.inl rfl) rfl rfl job.distinct
      (job.at_ worker) (fun _ _ => Iff.rfl) (inv.idle worker)
      (fun _ => .inr (.inl (Nat.succ_pos _))) ?_
    intro other different tail same
    cases same
    exact different rfl
  · exact inv

/-- One worker changes without a new job in its queue. -/
theorem Inv.change (inv : Inv book manager) {worker : Transport} {state : SendWorker}
    (queued : state.queue.queued = manager.queued worker)
    (started : ∀ index ∈ (manager.queues worker).started, index ∈ state.queue.started)
    (done : ∀ index ∈ state.queue.done, index ∈ (manager.queues worker).done ∨
      ∃ run, manager.traffic.sendings[index]? = some (.running run) ∧ run.pc worker = .next [])
    (idle : state.draining = false → state.queue.current = none)
    (posted : state.queue.waiting ≠ [] → state.draining = true) :
    Inv book (manager.setWorker worker state) := by
  have changed : (manager.setWorker worker state).worker worker = state := Function.update_self ..
  have frame (other : Transport) (different : other ≠ worker) :
      (manager.setWorker worker state).worker other = manager.worker other :=
    Function.update_of_ne different ..
  have same (other : Transport) :
      (manager.setWorker worker state).queued other = manager.queued other := by
    by_cases mine : other = worker
    · rw [ConnectionManager.queued, queues, mine, changed, queued]
    · rw [ConnectionManager.queued, queues, frame other mine]
      rfl
  refine ⟨inv.traffic, inv.distinct, inv.published, inv.calls, ?_, ?_, ?_, inv.recorded, ?_,
    inv.onceCompleted, ?_, ?_⟩
  · simp only [same]
    exact inv.built
  · intro index run there
    obtain ⟨call, here, handed, job⟩ := inv.running index run there
    refine ⟨call, here, handed, { job with at_ := ?_ }⟩
    intro other
    show JobInv.At ((manager.setWorker worker state).worker other).queue _ _ _ _
    by_cases mine : other = worker
    · subst mine
      rw [changed]
      refine ⟨?_, fun unstarted => (job.at_ other).fresh (mt (started index) unstarted), ?_⟩
      · rw [queued]
        exact (job.at_ other).queued
      · intro finished
        rcases done index finished with before | ⟨run', there', ends⟩
        · exact (job.at_ other).done before
        · obtain rfl := Sending.running.inj (Option.some.inj (there.symm.trans there'))
          exact ends
    · rw [frame other mine]
      exact job.at_ other
  · simp only [same]
    exact inv.named
  · simp only [same]
    exact inv.once
  · intro other
    show ((manager.setWorker worker state).worker other).draining = false →
      ((manager.setWorker worker state).worker other).queue.current = none
    by_cases mine : other = worker
    · rw [mine, changed]
      exact idle
    · rw [frame other mine]
      exact inv.idle other
  · intro other
    show ((manager.setWorker worker state).worker other).queue.waiting ≠ [] →
      ((manager.setWorker worker state).worker other).draining = true ∨
        0 < ((manager.setWorker worker state).worker other).semaphore ∨
        ∃ (index : ℕ) (rest : List Transport), manager.calls[index]? = some (.posting other rest)
    by_cases mine : other = worker
    · rw [mine, changed]
      exact fun waits => .inl (posted waits)
    · rw [frame other mine]
      exact inv.posted other

/-- The job in work takes a step of its worker. -/
theorem JobInv.step {queue : Transport → WorkQueue ℕ} {completed completed' : List ℕ} {index : ℕ}
    {left : List Transport} {run : JobRun} (job : JobInv queue completed index left run)
    (action : WorkerStep) (publisher : SendHandle) (world : SendWorld)
    (once : (queue action.worker).queued.Nodup)
    (current : (queue action.worker).current = some index)
    (recorded : index ∈ completed' ↔ ((run.within publisher world).step action).reports ≠ []) :
    JobInv queue completed' index left ((run.within publisher world).step action) := by
  have receivers := (run.within publisher world).step_receivers action
  have count : ((run.within publisher world).step action).job.receiverCount =
      run.job.receiverCount := SendJob.receiverCount_of_receivers receivers
  refine ⟨?_, count ▸ job.small, job.distinct, ?_, recorded⟩
  · rw [count]
    exact (job.accounts.within publisher world).step job.small _ action
  · intro other
    have queued := (job.at_ other).queued
    by_cases mine : other = action.worker
    · subst mine
      refine ⟨by rw [receivers]; exact queued, ?_, ?_⟩
      · exact fun unstarted => absurd (WorkQueue.mem_started_of_current current) unstarted
      · exact fun finished => absurd finished (WorkQueue.not_done_of_current once current)
    · have pc := (run.within publisher world).step_pc_other action mine
      refine ⟨by rw [receivers]; exact queued, ?_, ?_⟩
      · rw [pc, receivers]
        exact (job.at_ other).fresh
      · rw [pc]
        exact (job.at_ other).done

/-- A worker serves the job it has taken. -/
theorem Inv.serve (inv : Inv book manager) {index : ℕ} (action : WorkerStep)
    (awake : (manager.worker action.worker).draining = true)
    (current : (manager.queues action.worker).current = some index) :
    Inv book (manager.serve index action) := by
  have once := inv.once action.worker
  unfold ConnectionManager.serve
  split
  · next run found =>
    obtain ⟨call, here, handed, job⟩ := inv.running index run found
    obtain ⟨publisher, object⟩ := inv.publisher found
    have object : manager.traffic.node.sendObjects[run.job.publisher]? = some publisher := object
    have stepped := inv.traffic.step (.work index action)
    simp only [Traffic.step, Traffic.work_eq action found object] at stepped
    have kept : ((run.within publisher manager.traffic.sendWorld).step action).job.publisher =
        run.job.publisher := (JobRun.step_publisher _ action).1
    have unchanged (other : ℕ) (_ : other ≠ index) :
        manager.calls[other]? = manager.calls[other]? := rfl
    have posting (worker : Transport) (rest : List Transport) :
        manager.calls[index]? ≠ some (.posting worker rest) ∨
          manager.calls[index]? = some (.posting worker rest) := (Decidable.em _).symm
    split
    · next ends =>
      refine inv.change (WorkQueue.queued_finish _) ?_ ?_ (fun _ => rfl) (fun _ => awake)
      · intro other begun
        rw [WorkQueue.started_finish]
        exact begun
      · intro other finished
        rcases List.mem_append.mp finished with before | now
        · exact .inl before
        · have current : (manager.worker action.worker).queue.current = some index := current
          rw [current, Option.mem_toList] at now
          obtain rfl : index = other := Option.some.inj now
          exact .inr ⟨run, found, ends⟩
    · next rest place =>
      -- This worker took the count to zero, so nobody has reported the job before.
      have silent : index ∉ manager.completed := by
        rw [job.completed, not_not]
        exact job.accounts.reports_finalize place
      have recorded : (manager.completions ++ manager.completion index).map (·.index) =
          manager.completed ++ [index] := by
        rw [completion_eq found object, List.map_append]
        rfl
      have reported := (run.within publisher manager.traffic.sendWorld).finalize_reports action place
      rw [Traffic.work_eq action found object]
      exact inv.settle call found kept stepped rfl unchanged posting here handed
        (.inr ⟨recorded, silent⟩) (job.step action publisher _ once current
          (iff_of_true (by rw [recorded]; simp) reported))
    · next busy =>
      have quiet : ((run.within publisher manager.traffic.sendWorld).step action).reports =
          run.reports := JobRun.step_reports _ action fun rest place => busy rest place
      rw [Traffic.work_eq action found object]
      exact inv.settle call found kept stepped rfl unchanged posting here handed (.inl rfl)
        (job.step action publisher _ once current (by rw [quiet]; exact job.completed))
  · exact inv

theorem Inv.work (inv : Inv book manager) (action : WorkerStep) : Inv book (manager.work action) := by
  unfold ConnectionManager.work
  dsimp only
  cases awake : (manager.worker action.worker).draining with
  | false =>
    simp only [Bool.not_false, if_true]
    split_ifs
    · exact inv
    · exact inv.change rfl (fun _ => id) (fun _ => .inl) nofun (fun _ => rfl)
  | true =>
    simp only [Bool.not_true, Bool.false_eq_true, if_false]
    split
    · next index current => exact inv.serve action awake current
    · next idle =>
      split_ifs with empty
      · exact inv.change rfl (fun _ => id) (fun _ => .inl) (fun _ => idle)
          (fun waits => absurd empty waits)
      · refine inv.change (WorkQueue.queued_take _) (fun _ => WorkQueue.mem_started_take) ?_ ?_ ?_
        · intro index finished
          rw [WorkQueue.done_take] at finished
          exact .inl finished
        · exact nofun
        · exact fun _ => rfl

theorem Inv.step (inv : Inv book manager) (action : Action) :
    Inv book (manager.step book action) := by
  cases action with
  | other other => exact inv.other other
  | begin myId label uid sendBuf seq => exact inv.begin myId label uid sendBuf seq
  | proceed index now => exact inv.proceed index now
  | work action => exact inv.work action

end ConnectionManager

end Eroil
