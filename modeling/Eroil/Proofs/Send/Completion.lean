import Eroil.Model.Send.Job
import Eroil.Proofs.Router.Subscribers

/-! # A send job completes exactly once

The pending count is the number of receivers that have not been completed, summed over the two
workers; each failure is counted by the worker that saw it before it completes the receiver. The
worker whose compare-exchange takes the count to zero is the only one that reports, and at that
moment every failure has been counted.
-/

namespace Eroil

open Lib

namespace WorkerPc

/-- Receivers of the worker that are not completed. -/
def remaining : WorkerPc → ℕ
  | next rest => rest.length
  | failed rest => rest.length + 1
  | complete rest => rest.length + 1
  | loaded _ rest => rest.length + 1
  | finalize rest => rest.length

/-- Receivers of the worker that are not yet tried. -/
def untried : WorkerPc → ℕ
  | next rest => rest.length
  | failed rest => rest.length
  | complete rest => rest.length
  | loaded _ rest => rest.length
  | finalize rest => rest.length

/-- The worker has seen a failure that it has not counted. -/
def uncounted : WorkerPc → ℕ
  | failed _ => 1
  | _ => 0

/-- The worker is about to report. -/
def reporting : WorkerPc → ℕ
  | finalize _ => 1
  | _ => 0

/-- The sum of a measure over both workers. -/
def sum (measure : WorkerPc → ℕ) (pc : Transport → WorkerPc) : ℕ :=
  measure (pc .shm) + measure (pc .socket)

theorem sum_update (measure : WorkerPc → ℕ) (pc : Transport → WorkerPc) (worker : Transport)
    (new : WorkerPc) :
    sum measure (Function.update pc worker new) + measure (pc worker) =
      sum measure pc + measure new := by
  cases worker with
  | shm =>
    simp only [sum, Function.update_self, ne_eq, reduceCtorEq, not_false_eq_true,
      Function.update_of_ne]
    omega
  | socket =>
    simp only [sum, Function.update_self, ne_eq, reduceCtorEq, not_false_eq_true,
      Function.update_of_ne]
    omega

theorem measure_le_sum (measure : WorkerPc → ℕ) (pc : Transport → WorkerPc) (worker : Transport) :
    measure (pc worker) ≤ sum measure pc := by
  cases worker <;> simp only [sum] <;> omega

private theorem sum_mono {lower upper : WorkerPc → ℕ} (below : ∀ pc, lower pc ≤ upper pc)
    (pc : Transport → WorkerPc) : sum lower pc ≤ sum upper pc :=
  Nat.add_le_add (below _) (below _)

private theorem uncounted_le_remaining (pc : WorkerPc) : pc.uncounted ≤ pc.remaining := by
  cases pc <;> simp only [uncounted, remaining] <;> omega

end WorkerPc

namespace JobRun

open WorkerPc

/-- The failures counted so far. -/
def counted (run : JobRun) : ℕ := run.job.localFailureCount + run.job.remoteFailureCount

/-- What holds of a job with the given number of receivers between any two steps. -/
structure Inv (total : ℕ) (run : JobRun) : Prop where
  pending : run.job.pendingSends = sum remaining run.pc
  loaded : ∀ worker pending rest, run.pc worker = .loaded pending rest → pending ≠ 0
  failures : run.failures = run.counted + sum uncounted run.pc
  bounded : run.failures + sum untried run.pc ≤ total
  expected : run.unexpected = 0
  unreported : 0 < run.job.pendingSends → run.reports = [] ∧ sum reporting run.pc = 0
  reported : run.job.pendingSends = 0 →
    (run.reports = [] ∧ sum reporting run.pc = 1) ∨
      (run.reports = [run.failures] ∧ sum reporting run.pc = 0)

variable {total : ℕ} {run : JobRun}

/-- A worker that still owes a completion keeps the count positive. -/
theorem Inv.pending_pos (inv : Inv total run) (worker : Transport)
    (owes : 0 < (run.pc worker).remaining) : 0 < run.job.pendingSends := by
  have part := measure_le_sum remaining run.pc worker
  have pending := inv.pending
  omega

/-- A step of a worker that owes a completion is accounted for by the measures of the positions it
leaves and enters. -/
theorem Inv.move {after : JobRun} (inv : Inv total run) (worker : Transport) {old new : WorkerPc}
    (here : run.pc worker = old) (owes : 0 < old.remaining)
    (pc : after.pc = Function.update run.pc worker new)
    (remains : after.job.pendingSends + old.remaining = run.job.pendingSends + new.remaining)
    (counts : after.failures + run.counted + old.uncounted =
      run.failures + after.counted + new.uncounted)
    (tries : after.failures + new.untried ≤ run.failures + old.untried)
    (loaded : ∀ pending rest, new = .loaded pending rest → pending ≠ 0)
    (working : 0 < after.job.pendingSends → new.reporting = 0)
    (last : after.job.pendingSends = 0 → new.reporting = 1)
    (reports : after.reports = run.reports) (unexpected : after.unexpected = run.unexpected) :
    Inv total after := by
  have positive := inv.pending_pos worker (here ▸ owes)
  obtain ⟨empty, none⟩ := inv.unreported positive
  have silent := measure_le_sum reporting run.pc worker
  have sumRemaining := sum_update remaining run.pc worker new
  have sumUntried := sum_update untried run.pc worker new
  have sumUncounted := sum_update uncounted run.pc worker new
  have sumReporting := sum_update reporting run.pc worker new
  rw [here, ← pc] at sumRemaining sumUntried sumUncounted sumReporting
  rw [here] at silent
  have pending := inv.pending
  have failures := inv.failures
  have bounded := inv.bounded
  refine ⟨by omega, ?_, by omega, by omega, unexpected.trans inv.expected, ?_, ?_⟩
  · intro other pending rest at_
    rw [pc] at at_
    by_cases same : other = worker
    · subst same
      exact loaded pending rest (by rwa [Function.update_self] at at_)
    · exact inv.loaded other pending rest (by rwa [Function.update_of_ne same] at at_)
  · intro more
    have still := working more
    exact ⟨reports.trans empty, by omega⟩
  · intro done
    have final := last done
    exact .inl ⟨reports.trans empty, by omega⟩

/-- A step that touches nothing but the worker's own position. -/
theorem Inv.goto (inv : Inv total run) (worker : Transport) {old new : WorkerPc}
    (here : run.pc worker = old) (owes : 0 < old.remaining) (remains : new.remaining = old.remaining)
    (counts : new.uncounted = old.uncounted) (tries : new.untried ≤ old.untried)
    (loaded : ∀ pending rest, new = .loaded pending rest → pending ≠ 0)
    (silent : new.reporting = 0) : Inv total (run.goto worker new) := by
  have positive := inv.pending_pos worker (here ▸ owes)
  have counted : (run.goto worker new).counted = run.counted := rfl
  have failures : (run.goto worker new).failures = run.failures := rfl
  have pending : (run.goto worker new).job.pendingSends = run.job.pendingSends := rfl
  exact inv.move worker here owes rfl (by omega) (by omega) (by omega) loaded (fun _ => silent)
    (by omega) rfl rfl

/-- The only worker at `finalize` reports, and by then every failure has been counted. -/
theorem Inv.finalizeSendIosb (inv : Inv total run) (small : total < 2 ^ 32) {worker : Transport}
    {rest : List (Option ℕ)} (here : run.pc worker = .finalize rest) (now : RTOSTime) :
    Inv total ((run.finalizeSendIosb now).goto worker (.next rest)) := by
  have part : 1 ≤ sum reporting run.pc := by
    have part := measure_le_sum reporting run.pc worker
    rwa [here] at part
  have zero : run.job.pendingSends = 0 := by
    by_contra positive
    have none := (inv.unreported (Nat.pos_of_ne_zero positive)).2
    omega
  have pending := inv.pending
  have failures := inv.failures
  have bounded := inv.bounded
  have counted := sum_mono uncounted_le_remaining run.pc
  have sumRemaining := sum_update remaining run.pc worker (.next rest)
  have sumUntried := sum_update untried run.pc worker (.next rest)
  have sumUncounted := sum_update uncounted run.pc worker (.next rest)
  have sumReporting := sum_update reporting run.pc worker (.next rest)
  rw [here] at sumRemaining sumUntried sumUncounted sumReporting
  simp only [remaining, untried] at sumRemaining sumUntried
  simp only [uncounted, reporting] at sumUncounted sumReporting
  have count : run.job.failureCount = run.failures := by
    have exact_ : run.counted = run.failures := by omega
    exact (wrap32_of_lt (show run.counted < 2 ^ 32 by omega)).trans exact_
  have alone : run.reports = [] ∧ sum reporting run.pc = 1 := by
    rcases inv.reported zero with first | ⟨_, none⟩
    · exact first
    · omega
  refine ⟨?_, ?_, ?_, ?_, inv.expected, ?_, ?_⟩
  · show run.job.pendingSends = sum remaining (Function.update run.pc worker (.next rest))
    omega
  · intro other pending tail at_
    by_cases same : other = worker
    · subst same
      simp only [JobRun.goto, Function.update_self, reduceCtorEq] at at_
    · change Function.update run.pc worker (.next rest) other = .loaded pending tail at at_
      rw [Function.update_of_ne same] at at_
      exact inv.loaded other pending tail at_
  · show run.failures = run.counted + sum uncounted (Function.update run.pc worker (.next rest))
    omega
  · show run.failures + sum untried (Function.update run.pc worker (.next rest)) ≤ total
    omega
  · intro positive
    exact absurd zero (Nat.ne_of_gt positive)
  · intro _
    refine .inr ⟨?_, ?_⟩
    · show run.reports ++ [run.job.failureCount] = [run.failures]
      rw [alone.1, count, List.nil_append]
    · show sum reporting (Function.update run.pc worker (.next rest)) = 0
      omega

/-- A failure is counted without wrapping. -/
private theorem counted_countFailure (run : JobRun) (worker : Transport)
    (small : run.counted + 1 < 2 ^ 32) :
    (run.job.countFailure worker).localFailureCount +
      (run.job.countFailure worker).remoteFailureCount = run.counted + 1 := by
  unfold counted at small ⊢
  cases worker with
  | shm =>
    simp only [SendJob.countFailure]
    rw [wrap32_of_lt (by omega)]
    omega
  | socket =>
    simp only [SendJob.countFailure]
    rw [wrap32_of_lt (by omega)]
    omega

private theorem pendingSends_countFailure (job : SendJob) (worker : Transport) :
    (job.countFailure worker).pendingSends = job.pendingSends := by
  cases worker <;> rfl

/-- One step of either worker keeps the accounts. -/
theorem Inv.step (small : total < 2 ^ 32) (run : JobRun) (action : WorkerStep) (inv : Inv total run) :
    Inv total (run.step action) := by
  have bounded := inv.bounded
  have failures := inv.failures
  unfold JobRun.step
  split
  · exact inv
  · next rest here =>
    exact inv.goto action.worker here (Nat.succ_pos _) rfl rfl (Nat.le_succ _) (by simp) rfl
  · next recvr rest here =>
    have positive := inv.pending_pos action.worker (by rw [here]; exact Nat.succ_pos _)
    split
    · exact inv.goto action.worker here (Nat.succ_pos _) rfl rfl (Nat.le_succ _) (by simp) rfl
    · -- The failure is noted here and counted by the next step of this worker.
      refine inv.move action.worker here (Nat.succ_pos _) rfl rfl ?_ ?_ (by simp) (fun _ => rfl)
        (fun done => absurd done (Nat.ne_of_gt positive)) rfl rfl
      · show run.failures + 1 + run.counted + 0 = run.failures + run.counted + 1
        omega
      · show run.failures + 1 + rest.length ≤ run.failures + (rest.length + 1)
        omega
  · next rest here =>
    have positive := inv.pending_pos action.worker (by rw [here]; exact Nat.succ_pos _)
    have waiting : 1 ≤ sum uncounted run.pc := by
      have part := measure_le_sum uncounted run.pc action.worker
      rwa [here] at part
    have counted := counted_countFailure run action.worker (by omega)
    have pending := pendingSends_countFailure run.job action.worker
    refine inv.move action.worker here (Nat.succ_pos _) rfl ?_ ?_ (Nat.le_refl _) (by simp)
      (fun _ => rfl) ?_ rfl rfl
    · show (run.job.countFailure action.worker).pendingSends + (rest.length + 1) =
        run.job.pendingSends + (rest.length + 1)
      rw [pending]
    · show run.failures + run.counted + 1 = run.failures +
        ((run.job.countFailure action.worker).localFailureCount +
          (run.job.countFailure action.worker).remoteFailureCount) + 0
      omega
    · intro done
      exact absurd (pending.symm.trans done) (Nat.ne_of_gt positive)
  · next rest here =>
    have positive := inv.pending_pos action.worker (by rw [here]; exact Nat.succ_pos _)
    refine inv.goto action.worker here (Nat.succ_pos _) rfl rfl (Nat.le_refl _) ?_ rfl
    intro pending tail same
    cases same
    exact Nat.ne_of_gt positive
  · next pending rest here =>
    have positive := inv.pending_pos action.worker (by rw [here]; exact Nat.succ_pos _)
    have nonzero := inv.loaded action.worker pending rest here
    rw [if_neg nonzero]
    split
    · next success =>
      have current := success.2
      by_cases last : pending - 1 = 0
      · rw [if_pos last]
        refine inv.move action.worker here (Nat.succ_pos _) rfl ?_ rfl (Nat.le_refl _) (by simp) ?_
          (fun _ => rfl) rfl rfl
        · show pending - 1 + (rest.length + 1) = run.job.pendingSends + rest.length
          omega
        · intro more
          exact absurd last (Nat.ne_of_gt more)
      · rw [if_neg last]
        refine inv.move action.worker here (Nat.succ_pos _) rfl ?_ rfl (Nat.le_refl _) (by simp)
          (fun _ => rfl) (fun done => absurd done last) rfl rfl
        show pending - 1 + (rest.length + 1) = run.job.pendingSends + rest.length
        omega
    · -- The value in hand is replaced by the present one, which is positive too.
      refine inv.goto action.worker here (Nat.succ_pos _) rfl rfl (Nat.le_refl _) ?_ rfl
      intro pending tail same
      cases same
      exact Nat.ne_of_gt positive
  · next rest here => exact inv.finalizeSendIosb small here action.now

/-- The accounts are right when the job is handed to the workers. -/
theorem Inv.enqueueSend (job : SendJob) (publisher : SendHandle) (world : SendWorld) (now : RTOSTime)
    (noLocal : job.localFailureCount = 0) (noRemote : job.remoteFailureCount = 0)
    (pending : job.pendingSends = job.localRecvrs.length + job.remoteRecvrs.length) :
    Inv (job.localRecvrs.length + job.remoteRecvrs.length)
      (JobRun.enqueueSend job publisher world now) := by
  have counted : 0 = job.localFailureCount + job.remoteFailureCount + (0 + 0) := by omega
  have bounded : 0 + (job.localRecvrs.length + job.remoteRecvrs.length) ≤
      job.localRecvrs.length + job.remoteRecvrs.length := by omega
  unfold JobRun.enqueueSend
  split
  · next none =>
    have zero : job.pendingSends = 0 := by rw [pending, none.1, none.2]; rfl
    have count : job.failureCount = 0 := by rw [SendJob.failureCount, noLocal, noRemote]; rfl
    refine ⟨pending, by simp [JobRun.finalizeSendIosb], counted, bounded, rfl, ?_, ?_⟩
    · intro positive
      exact absurd zero (Nat.ne_of_gt positive)
    · intro _
      exact .inr ⟨by simp [JobRun.finalizeSendIosb, count], rfl⟩
  · next some =>
    refine ⟨pending, by simp, counted, bounded, rfl, fun _ => ⟨rfl, rfl⟩, ?_⟩
    intro zero
    have empty : job.localRecvrs.length + job.remoteRecvrs.length = 0 := pending.symm.trans zero
    exact absurd ⟨List.eq_nil_of_length_eq_zero (by omega),
      List.eq_nil_of_length_eq_zero (by omega)⟩ some

/-- How far a worker is from the end of its loop. -/
def rank (run : JobRun) (worker : Transport) : ℕ :=
  match run.pc worker with
  | .next rest => 6 * rest.length
  | .finalize rest => 6 * rest.length + 1
  | .loaded pending rest =>
      if pending = 0 ∨ run.job.pendingSends = pending then 6 * rest.length + 2
      else 6 * rest.length + 3
  | .complete rest => 6 * rest.length + 4
  | .failed rest => 6 * rest.length + 5

/-- A step that meets no spurious failure brings its worker closer to the end. -/
theorem rank_step (run : JobRun) (worker : Transport) (now : RTOSTime)
    (busy : run.pc worker ≠ .next []) :
    (run.step ⟨worker, true, now⟩).rank worker < run.rank worker := by
  unfold JobRun.step
  split
  · next here => exact absurd here busy
  · next rest here => simp [rank, here, JobRun.goto]; omega
  · next recvr rest here => simp [rank, here, JobRun.goto]; omega
  · next rest here => simp [rank, here, JobRun.goto]
  · next rest here => simp [rank, here, JobRun.goto]
  · next pending rest here =>
    by_cases zero : pending = 0
    · simp [rank, here, JobRun.goto, zero]
    · by_cases current : run.job.pendingSends = pending
      · by_cases last : pending - 1 = 0
        · simp [rank, here, JobRun.goto, zero, current, last]
        · simp [rank, here, JobRun.goto, zero, current, last]
      · simp [rank, here, JobRun.goto, zero, current]
  · next rest here => simp [rank, here, JobRun.goto]

/-- A step moves no other worker. -/
theorem step_pc_other (run : JobRun) (action : WorkerStep) {other : Transport}
    (different : other ≠ action.worker) : (run.step action).pc other = run.pc other := by
  unfold JobRun.step
  split
  · rfl
  · exact Function.update_of_ne different ..
  · split <;> exact Function.update_of_ne different ..
  · exact Function.update_of_ne different ..
  · exact Function.update_of_ne different ..
  · split
    · exact Function.update_of_ne different ..
    · split <;> exact Function.update_of_ne different ..
  · exact Function.update_of_ne different ..

/-- A worker that is left to run alone comes to the end of its loop. -/
theorem worker_finishes (run : JobRun) (worker : Transport) (now : RTOSTime) :
    ∃ actions : List WorkerStep, (∀ action ∈ actions, action.worker = worker) ∧
      (actions.foldl JobRun.step run).pc worker = .next [] := by
  induction bound : run.rank worker using Nat.strong_induction_on generalizing run with
  | _ rank ih =>
    by_cases done : run.pc worker = .next []
    · exact ⟨[], by simp, done⟩
    · have closer := rank_step run worker now done
      obtain ⟨actions, own, finished⟩ := ih _ (bound ▸ closer) (run.step ⟨worker, true, now⟩) rfl
      refine ⟨⟨worker, true, now⟩ :: actions, ?_, finished⟩
      intro action member
      rcases List.mem_cons.mp member with rfl | later
      · rfl
      · exact own action later

private theorem foldl_pc_other {worker other : Transport} (different : other ≠ worker)
    (actions : List WorkerStep) (run : JobRun) (own : ∀ action ∈ actions, action.worker = worker) :
    (actions.foldl JobRun.step run).pc other = run.pc other := by
  induction actions generalizing run with
  | nil => rfl
  | cons action rest ih =>
    have mine : other ≠ action.worker := by rwa [own action List.mem_cons_self]
    rw [List.foldl_cons, ih _ (fun later member => own later (List.mem_cons_of_mem _ member)),
      step_pc_other run action mine]

/-- Whatever has happened to a job, its two workers can run to the end of their loops. -/
private theorem workers_finish (run : JobRun) (now : RTOSTime) :
    ∃ actions : List WorkerStep, ∀ worker, (actions.foldl JobRun.step run).pc worker = .next [] := by
  obtain ⟨first, own, localDone⟩ := worker_finishes run .shm now
  obtain ⟨second, own', remoteDone⟩ := worker_finishes (first.foldl JobRun.step run) .socket now
  refine ⟨first ++ second, ?_⟩
  rw [List.foldl_append]
  intro worker
  cases worker with
  | shm => rw [foldl_pc_other (by decide) second _ own', localDone]
  | socket => exact remoteDone

/-- Once every receiver is completed, each worker is at the end of its loop or about to report. -/
private theorem pc_at_end (done : sum remaining run.pc = 0) (worker : Transport) :
    run.pc worker = .next [] ∨ run.pc worker = .finalize [] := by
  have part := measure_le_sum remaining run.pc worker
  cases here : run.pc worker with
  | next rest =>
    rw [here] at part
    have empty : rest = [] := List.eq_nil_of_length_eq_zero (by simp only [remaining] at part; omega)
    exact .inl (by rw [empty])
  | finalize rest =>
    rw [here] at part
    have empty : rest = [] := List.eq_nil_of_length_eq_zero (by simp only [remaining] at part; omega)
    exact .inr (by rw [empty])
  | failed rest => rw [here] at part; simp only [remaining] at part; omega
  | complete rest => rw [here] at part; simp only [remaining] at part; omega
  | loaded pending rest => rw [here] at part; simp only [remaining] at part; omega

/-- Nothing is reported while a receiver is missing. From the step that completes the last
one, exactly one worker is about to report or the one report has been made, and it names every
failure. -/
structure ReportedOnce (run : JobRun) : Prop where
  expected : run.unexpected = 0
  before : 0 < sum remaining run.pc →
    run.reports = [] ∧ ∀ worker rest, run.pc worker ≠ .finalize rest
  after : sum remaining run.pc = 0 →
    (run.reports = [] ∧ ∃ worker, run.pc worker = .finalize [] ∧
        ∀ other, other ≠ worker → run.pc other = .next []) ∨
      (run.reports = [run.failures] ∧ ∀ worker, run.pc worker = .next [])

theorem Inv.reportedOnce (inv : Inv total run) : ReportedOnce run where
  expected := inv.expected
  before positive := by
    obtain ⟨empty, none⟩ := inv.unreported (inv.pending ▸ positive)
    refine ⟨empty, ?_⟩
    intro worker rest here
    have part := measure_le_sum reporting run.pc worker
    rw [here, none] at part
    exact Nat.not_succ_le_zero _ part
  after done := by
    have ends := pc_at_end done
    rcases inv.reported (inv.pending.trans done) with ⟨empty, one⟩ | ⟨single, none⟩
    · refine .inl ⟨empty, ?_⟩
      rcases ends .shm with localEnd | localEnd <;> rcases ends .socket with remoteEnd | remoteEnd
      · simp [sum, localEnd, remoteEnd, reporting] at one
      · refine ⟨.socket, remoteEnd, fun other different => ?_⟩
        cases other with
        | shm => exact localEnd
        | socket => exact absurd rfl different
      · refine ⟨.shm, localEnd, fun other different => ?_⟩
        cases other with
        | shm => exact absurd rfl different
        | socket => exact remoteEnd
      · simp [sum, localEnd, remoteEnd, reporting] at one
    · refine .inr ⟨single, fun worker => ?_⟩
      have part := measure_le_sum reporting run.pc worker
      rcases ends worker with here | here
      · exact here
      · rw [here, none] at part
        exact absurd part (Nat.not_succ_le_zero _)

/-- When a job is built, and what it holds. -/
theorem buildSendJob_ok {router : Router} {myId : NodeId} {label : Label} {uid : HandleUid}
    {sendBuf : SendBuf} {seq : ℕ} {job : SendJob} :
    router.buildSendJob myId label uid sendBuf seq = .ok job ↔
      ∃ route publisher, router.routes.send.table.lookup label = some route ∧
        route.labelSize + sizeofLabelHeader = sendBuf.totalSize ∧
        router.sendHandles.lookup uid = some publisher ∧ uid ∈ route.publishers ∧
        job = ⟨myId, label, sendBuf, seq, publisher, 0,
          route.localSubscribers.map router.transports.getSendShm, 0,
          route.remoteSubscribers.map router.transports.getSocket,
          wrap32 (route.localSubscribers.length + route.remoteSubscribers.length)⟩ := by
  unfold Router.buildSendJob
  constructor
  · intro built
    split at built
    · cases built
    · next route found =>
      split at built
      · cases built
      · next size =>
        split at built
        · cases built
        · next publisher registered =>
          split at built
          · cases built
          · split at built
            · cases built
            · next listed =>
              cases built
              exact ⟨route, publisher, found, not_not.mp size, registered, not_not.mp listed, by simp⟩
  · rintro ⟨route, publisher, found, size, registered, listed, rfl⟩
    simp [found, size, registered, listed, List.ne_nil_of_mem listed]

/-- Every job built in a reachable state is reported exactly once however the workers interleave
and whichever sends fail: not before its last receiver is completed, with the number of failures of
both transports, and never after all receivers were already completed. The workers can always run
to the end of their loops, and the report has then been made. -/
theorem job_reported_once {book : AddressBook} {node : Node} (reachable : Node.Reachable book node)
    {myId : NodeId} {label : Label} {uid : HandleUid} {sendBuf : SendBuf} {seq : ℕ} {job : SendJob}
    (built : node.router.buildSendJob myId label uid sendBuf seq = .ok job) (publisher : SendHandle)
    (world : SendWorld) (now : RTOSTime) {run : JobRun}
    (reaches : Reaches JobRun.step (fun _ _ => True)
      (JobRun.enqueueSend job publisher world now) run) :
    ReportedOnce run ∧ ∃ actions : List WorkerStep,
      (∀ worker, (actions.foldl JobRun.step run).pc worker = .next []) ∧
      (actions.foldl JobRun.step run).reports = [(actions.foldl JobRun.step run).failures] := by
  obtain ⟨route, ref, found, -, -, -, fields⟩ := buildSendJob_ok.mp built
  have noLocal : job.localFailureCount = 0 := by rw [fields]
  have noRemote : job.remoteFailureCount = 0 := by rw [fields]
  have receivers : job.localRecvrs.length + job.remoteRecvrs.length =
      route.localSubscribers.length + route.remoteSubscribers.length := by simp [fields]
  have small : job.localRecvrs.length + job.remoteRecvrs.length < 2 ^ 32 :=
    receivers ▸ reachable.subscribers_lt found
  have pending : job.pendingSends = job.localRecvrs.length + job.remoteRecvrs.length := by
    rw [← wrap32_of_lt small, receivers, fields]
  have inv : ∀ {run}, Reaches JobRun.step (fun _ _ => True)
      (JobRun.enqueueSend job publisher world now) run →
      Inv (job.localRecvrs.length + job.remoteRecvrs.length) run := fun reaches =>
    reaches.invariant (Inv _) (.enqueueSend job publisher world now noLocal noRemote pending)
      fun run action inv _ => inv.step small run action
  refine ⟨(inv reaches).reportedOnce, ?_⟩
  obtain ⟨actions, finished⟩ := workers_finish run now
  have later := reaches.trans (Reaches.foldl actions (fun _ _ _ => trivial) run)
  refine ⟨actions, finished, ?_⟩
  have done : sum remaining (actions.foldl JobRun.step run).pc = 0 := by
    simp only [sum, finished]
    rfl
  rcases (inv later).reportedOnce.after done with ⟨_, worker, here, _⟩ | ⟨report, _⟩
  · rw [finished worker] at here
    cases here
  · exact report

/-- Node 1 itself, and node 2 on another machine. -/
def pairBook : AddressBook where
  kind id := if id = 1 then .self else if id = 2 then .socket else .none
  valid id low := by
    have notSelf : id ≠ 1 := by rintro rfl; exact absurd low (by decide)
    have notPeer : id ≠ 2 := by rintro rfl; exact absurd low (by decide)
    simp only [notSelf, notPeer, ↓reduceIte]

/-- Node 1 after it opened label 5 and both nodes subscribed to it. -/
def pairNode : Node :=
  [Node.Action.openSend ⟨5, some 64, 4, false, none, none, 0, 0⟩, .openSendShm 1 (some 10),
    .upsertSocket 2 (some 20), .addSubscriber 1 5 4, .addSubscriber 2 5 4].foldl
    (Node.step pairBook) (.initial ⟨fun _ => 0, fun _ => default, fun _ => 0⟩)

def pairBuf : SendBuf := ⟨64, List.replicate 32 0, 4, rfl⟩

/-- The job for one message of label 5. -/
def pairJob : SendJob where
  sourceId := 1
  label := 5
  sendBuffer := pairBuf
  seq := 0
  publisher := 0
  localFailureCount := 0
  localRecvrs := [some 10]
  remoteFailureCount := 0
  remoteRecvrs := [some 20]
  pendingSends := 2

def pairPublisher : SendHandle := ⟨1, ⟨5, some 64, 4, false, none, none, 0, 0⟩⟩

def idleWorld : SendWorld := ⟨fun _ => default, fun _ => 0⟩

/-- Both workers load the count, the socket send having failed; the remote compare-exchange loses
and is repeated. -/
def pairSteps : List WorkerStep :=
  [⟨.shm, true, ⟨0, 0⟩⟩, ⟨.socket, false, ⟨0, 0⟩⟩, ⟨.socket, true, ⟨0, 0⟩⟩, ⟨.shm, true, ⟨0, 0⟩⟩,
    ⟨.socket, true, ⟨0, 0⟩⟩, ⟨.shm, true, ⟨0, 0⟩⟩, ⟨.socket, true, ⟨0, 0⟩⟩, ⟨.socket, true, ⟨0, 0⟩⟩,
    ⟨.socket, true, ⟨0, 0⟩⟩]

theorem job_reported_once_pair :
    (pairSteps.foldl JobRun.step (enqueueSend pairJob pairPublisher idleWorld ⟨0, 0⟩)).reports = [1] ∧
      ReportedOnce
        (pairSteps.foldl JobRun.step (enqueueSend pairJob pairPublisher idleWorld ⟨0, 0⟩)) := by
  have reachable : Node.Reachable pairBook pairNode :=
    ⟨_, Reaches.foldl _ (fun _ _ _ => trivial) _⟩
  have built : pairNode.router.buildSendJob 1 5 1 pairBuf 0 = .ok pairJob := rfl
  exact ⟨by decide +kernel, (job_reported_once reachable built pairPublisher idleWorld ⟨0, 0⟩
    (Reaches.foldl pairSteps (fun _ _ _ => trivial) _)).1⟩

end JobRun

end Eroil
