import Eroil.Model.Shm.Object

/-! # The resources of a `Shm` object over its life

Until a mapping fails, an object is either open, holding one descriptor and one mapping, or it holds
nothing, although `m_handle` may still name a descriptor that a failed call has closed. A failed
mapping leaves the object looking open, and a call of `close` with a stale descriptor closes it
twice.
-/

namespace Eroil.Shm

namespace ShmObject

/-- The call reaches `mmap` and that fails. -/
def MapFails (shm : ShmObject) : ShmCall → Prop
  | .create os =>
      shm.isValid = false ∧ os.shmOpen.toOption.isSome = true ∧ os.ftruncate = true ∧ os.mmap = none
  | .openShm os =>
      shm.isValid = false ∧ os.shmOpen.toOption.isSome = true ∧ os.fstat = some shm.totalSize ∧
        os.mmap = none
  | .close => False

/-- What a call of `create` or `open` can do. -/
inductive Attempt (shm : ShmObject) (call : ShmCall) : Returned → Prop where
  | refused (valid : shm.isValid = true) (maps : ¬ shm.MapFails call) :
      Attempt shm call ⟨shm, .doubleOpen, []⟩
  | noFile (code : ShmErr) (failed : code ≠ .none) (closed : shm.isValid = false)
      (maps : ¬ shm.MapFails call) :
      Attempt shm call ⟨{ shm with handle := -1 }, code, [.shmOpen (-1)]⟩
  | discarded (fd : ℕ) (code : ShmErr) (failed : code ≠ .none) (closed : shm.isValid = false)
      (maps : ¬ shm.MapFails call) :
      Attempt shm call ⟨{ shm with handle := fd }, code, [.shmOpen fd, .close fd]⟩
  | unmapped (fd : ℕ) (closed : shm.isValid = false) (fails : shm.MapFails call) :
      Attempt shm call ⟨{ shm with handle := fd, view := .failed }, .fileMapFailed,
        [.shmOpen fd, .mmap .failed, .close fd]⟩
  | opened (fd address : ℕ) (closed : shm.isValid = false) (maps : ¬ shm.MapFails call) :
      Attempt shm call ⟨{ shm with handle := fd, view := .mapped address }, .none,
        [.shmOpen fd, .mmap (.mapped address)]⟩

theorem name_head (shm : ShmObject) : shm.name.head? = some '/' := by
  have head (rest : List Char) : ("/eroil.node.".toList ++ rest).head? = some '/' := by simp
  unfold name
  exact head _

/-- `name` starts with a slash, so no call ends with `InvalidName`. -/
theorem name_valid (shm : ShmObject) :
    ¬ (shm.name.isEmpty || shm.name.head? != some '/') = true := by
  have nonempty : shm.name.isEmpty = false := by
    cases empty : shm.name with
    | nil => simpa [empty] using shm.name_head
    | cons => rfl
  rw [nonempty, shm.name_head]
  decide

variable {shm : ShmObject}

private theorem attempt_create (os : OsResults) : Attempt shm (.create os) (shm.create os) := by
  unfold create
  split
  case isTrue valid => exact .refused valid (by simp [MapFails, valid])
  case isFalse closed =>
    have closed := Bool.eq_false_iff.mpr closed
    rw [if_neg shm.name_valid]
    split
    case h_1 errno file =>
      exact .noFile _ (by split <;> simp) closed (by simp [MapFails, file, Except.toOption])
    case h_2 fd file =>
      split
      case isTrue short =>
        exact .discarded fd _ (by simp) closed (by
          simp only [Bool.not_eq_true'] at short
          simp [MapFails, short])
      case isFalse long =>
        simp only [Bool.not_eq_true', Bool.not_eq_false] at long
        unfold OsResults.view
        cases mapping : os.mmap with
        | none =>
          exact .unmapped fd closed ⟨closed, by simp [file, Except.toOption], long, mapping⟩
        | some address => exact .opened fd address closed (by simp [MapFails, mapping])

private theorem attempt_openShm (os : OsResults) : Attempt shm (.openShm os) (shm.openShm os) := by
  unfold openShm
  split
  case isTrue valid => exact .refused valid (by simp [MapFails, valid])
  case isFalse closed =>
    have closed := Bool.eq_false_iff.mpr closed
    rw [if_neg shm.name_valid]
    split
    case h_1 errno file =>
      exact .noFile _ (by split <;> simp) closed (by simp [MapFails, file, Except.toOption])
    case h_2 fd file =>
      split
      case h_1 unknown => exact .discarded fd _ (by simp) closed (by simp [MapFails, unknown])
      case h_2 size known =>
        split
        case isTrue other =>
          exact .discarded fd _ (by simp) closed (by
            rintro ⟨-, -, same, -⟩
            exact other (Option.some.inj (known.symm.trans same)))
        case isFalse same =>
          unfold OsResults.view
          cases mapping : os.mmap with
          | none =>
            exact .unmapped fd closed
              ⟨closed, by simp [file, Except.toOption], by simp [known, not_not.mp same], mapping⟩
          | some address => exact .opened fd address closed (by simp [MapFails, mapping])

theorem attempt_call {call : ShmCall} (opens : call.opens = true) :
    Attempt shm call (shm.call call) := by
  cases call with
  | create os => exact attempt_create os
  | openShm os => exact attempt_openShm os
  | close => cases opens

/-- An attempt that fails to map leaves an object that looks open. -/
private theorem Attempt.valid_of_mapFails {call : ShmCall} {returned : Returned}
    (attempt : shm.Attempt call returned) (fails : shm.MapFails call) :
    returned.code ≠ .none ∧ returned.shm.isValid = true := by
  cases attempt with
  | refused _ maps => exact absurd fails maps
  | noFile _ _ _ maps => exact absurd fails maps
  | discarded _ _ _ _ maps => exact absurd fails maps
  | unmapped fd _ _ => exact ⟨by simp, by simp [isValid]⟩
  | opened _ _ _ maps => exact absurd fails maps

/-- The state that `close` leaves: not valid, and no attempt is refused for being open. -/
structure Closed (shm : ShmObject) : Prop where
  notValid : shm.isValid = false
  admitted : ∀ os, (shm.create os).code ≠ .doubleOpen ∧ (shm.openShm os).code ≠ .doubleOpen

private theorem closed_iff : shm.Closed ↔ shm.isValid = false := by
  constructor
  · exact Closed.notValid
  · intro closed
    refine ⟨closed, fun os => ⟨?_, ?_⟩⟩
    · rw [create, if_neg (Bool.eq_false_iff.mp closed), if_neg shm.name_valid]
      repeat' split
      all_goals simp
    · rw [openShm, if_neg (Bool.eq_false_iff.mp closed), if_neg shm.name_valid]
      repeat' split
      all_goals simp

end ShmObject

/-- Every descriptor has been closed at most as often as `shm_open` has returned it. -/
def ClosesOnce (log : List OsCall) : Prop :=
  ∀ fd, log.count (.close fd) ≤ log.count (.shmOpen fd)

/-- Only successful mappings have been unmapped, and each at most once. -/
def UnmapsMappings (log : List OsCall) : Prop :=
  ∀ view, .munmap view ∈ log →
    (∃ address, view = .mapped address) ∧ log.count (.munmap view) ≤ log.count (.mmap view)

/-- What an object owes the operating system after the calls in a log. -/
structure Owes (shm : ShmObject) (log : List OsCall) : Prop where
  closed : shm.isValid = false → shm.view = .null
  mapped : shm.isValid = true → ∃ address, shm.view = .mapped address
  fds : ∀ fd : ℕ, log.count (.shmOpen fd) =
    log.count (.close fd) + if shm.isValid = true ∧ shm.handle = fd then 1 else 0
  negative : ∀ fd < 0, .close fd ∉ log
  views : ∀ address, log.count (.mmap (.mapped address)) =
    log.count (.munmap (.mapped address)) +
      if shm.isValid = true ∧ shm.view = .mapped address then 1 else 0
  unmapped : ∀ view, .munmap view ∈ log → ∃ address, view = .mapped address

namespace Owes

variable {shm : ShmObject} {log : List OsCall}

theorem new (id : Int32) (totalSize : ℕ) : Owes (.new id totalSize) [] where
  closed _ := rfl
  mapped valid := by simp [ShmObject.new, ShmObject.isValid] at valid
  fds fd := by simp [ShmObject.new, ShmObject.isValid]
  negative _ _ := List.not_mem_nil
  views address := by simp [ShmObject.new, ShmObject.isValid]
  unmapped _ call := nomatch call

theorem closesOnce (owes : Owes shm log) : ClosesOnce log := by
  intro fd
  by_cases negative : fd < 0
  · rw [List.count_eq_zero.mpr (owes.negative fd negative)]
    exact Nat.zero_le _
  · obtain ⟨number, rfl⟩ := Int.eq_ofNat_of_zero_le (show 0 ≤ fd by omega)
    have same := owes.fds number
    omega

theorem unmapsMappings (owes : Owes shm log) : UnmapsMappings log := by
  intro view call
  obtain ⟨address, rfl⟩ := owes.unmapped view call
  have same := owes.views address
  exact ⟨⟨address, rfl⟩, by omega⟩

/-- Calls that give back what they obtain keep the account of an object that holds nothing. -/
theorem balanced {next : ShmObject} {calls : List OsCall} (owes : Owes shm log)
    (before : shm.isValid = false) (after : next.isValid = false) (null : next.view = .null)
    (fds : ∀ fd : ℕ, calls.count (.shmOpen fd) = calls.count (.close fd))
    (negative : ∀ fd < 0, .close fd ∉ calls) (views : ∀ view, .mmap view ∉ calls)
    (unmapped : ∀ view, .munmap view ∉ calls) : Owes next (log ++ calls) where
  closed _ := null
  mapped valid := by simp [after] at valid
  fds fd := by
    have same := owes.fds fd
    simp only [before, after, Bool.false_eq_true, false_and, if_false, List.count_append] at same ⊢
    rw [same, fds fd]
    omega
  negative fd low := by
    simp only [List.mem_append, not_or]
    exact ⟨owes.negative fd low, negative fd low⟩
  views address := by
    have same := owes.views address
    simp only [before, after, Bool.false_eq_true, false_and, if_false, List.count_append] at same ⊢
    rw [same, List.count_eq_zero.mpr (views _), List.count_eq_zero.mpr (unmapped _)]
  unmapped view member := by
    rcases List.mem_append.mp member with old | recent
    · exact owes.unmapped view old
    · exact absurd recent (unmapped view)

/-- A new descriptor and a new mapping are what a successful attempt adds to the account. -/
theorem opened (owes : Owes shm log) (before : shm.isValid = false) (fd address : ℕ) :
    Owes { shm with handle := fd, view := .mapped address }
      (log ++ [.shmOpen fd, .mmap (.mapped address)]) where
  closed invalid := by simp [ShmObject.isValid] at invalid
  mapped _ := ⟨address, rfl⟩
  fds other := by
    have same := owes.fds other
    have valid : ({ shm with handle := fd, view := .mapped address } : ShmObject).isValid = true := by
      simp [ShmObject.isValid]
    simp [before, valid, List.count_append, List.count_cons] at same ⊢
    rw [same]
  negative other low := by simpa using owes.negative other low
  views other := by
    have same := owes.views other
    have valid : ({ shm with handle := fd, view := .mapped address } : ShmObject).isValid = true := by
      simp [ShmObject.isValid]
    simp [before, valid, List.count_append, List.count_cons] at same ⊢
    rw [same]
  unmapped view member := owes.unmapped view (by simpa using member)

/-- An attempt that does not fail to map keeps the account; unless it is refused, the object is
valid exactly if it succeeds. -/
theorem attempt {call : ShmCall} {returned : Returned} (owes : Owes shm log)
    (attempt : shm.Attempt call returned) (maps : ¬ shm.MapFails call) :
    Owes returned.shm (log ++ returned.calls) ∧
      (shm.isValid = false → returned.shm.isValid = decide (returned.code = .none)) := by
  cases attempt with
  | refused valid _ => exact ⟨by simpa using owes, fun closed => by simp [valid] at closed⟩
  | noFile code failed closed _ =>
    have null := owes.closed closed
    have invalid : ({ shm with handle := -1 } : ShmObject).isValid = false := by
      simp [ShmObject.isValid]
    refine ⟨owes.balanced closed invalid null ?_ ?_ ?_ ?_, by simp [invalid, failed]⟩
    · intro fd
      have other : (-1 : ℤ) ≠ fd := by omega
      simp [other]
    all_goals simp
  | discarded fd code failed closed _ =>
    have null := owes.closed closed
    have invalid : ({ shm with handle := fd } : ShmObject).isValid = false := by
      simp [ShmObject.isValid, null]
    refine ⟨owes.balanced closed invalid null ?_ ?_ ?_ ?_, by simp [invalid, failed]⟩
    · intro other
      simp [List.count_cons]
    · intro other negative
      simp
      omega
    all_goals simp
  | unmapped fd closed fails => exact absurd fails maps
  | opened fd address closed _ =>
    exact ⟨owes.opened closed fd address, fun _ => by simp [ShmObject.isValid]⟩

/-- `close` of an open object, or of one without a descriptor, settles the account. -/
theorem close (owes : Owes shm log) (known : shm.handle < 0 ∨ shm.isValid = true) :
    Owes shm.close.shm (log ++ shm.close.calls) ∧ shm.close.shm.isValid = false := by
  have invalid : shm.close.shm.isValid = false := by simp [ShmObject.close, ShmObject.isValid]
  refine ⟨?_, invalid⟩
  by_cases valid : shm.isValid = true
  · obtain ⟨address, view⟩ := owes.mapped valid
    have descriptor : shm.handle ≥ 0 := by
      simp only [ShmObject.isValid, Bool.and_eq_true, decide_eq_true_eq] at valid
      exact valid.1
    have calls : shm.close.calls = [.munmap (.mapped address), .close shm.handle] := by
      simp [ShmObject.close, view, descriptor]
    rw [calls]
    refine ⟨fun _ => rfl, by simp [invalid], ?_, ?_, ?_, ?_⟩
    · intro fd
      have same := owes.fds fd
      simp [invalid, valid, List.count_append, List.count_cons] at same ⊢
      omega
    · intro fd low
      have absent := owes.negative fd low
      simp [absent]
      omega
    · intro other
      have same := owes.views other
      simp [invalid, valid, view, List.count_append, List.count_cons] at same ⊢
      omega
    · intro other member
      simp only [List.mem_append, List.mem_cons, OsCall.munmap.injEq, reduceCtorEq,
        List.not_mem_nil, or_false] at member
      rcases member with old | rfl
      · exact owes.unmapped other old
      · exact ⟨address, rfl⟩
  · have before : shm.isValid = false := by simpa using valid
    have negative := known.resolve_right valid
    have null := owes.closed before
    have calls : shm.close.calls = [] := by
      simp [ShmObject.close, null]
      omega
    rw [calls]
    exact owes.balanced before invalid rfl (by simp) (by simp) (by simp) (by simp)

end Owes

/-- An object with its trace, and whether its last call of `create` or `open` since a `close`
succeeded. -/
structure ShmRun where
  shm : ShmObject
  log : List OsCall
  opened : Bool

namespace ShmRun

def new (id : Int32) (totalSize : ℕ) : ShmRun := ⟨.new id totalSize, [], false⟩

def step (run : ShmRun) (call : ShmCall) : ShmRun where
  shm := (run.shm.call call).shm
  log := run.log ++ (run.shm.call call).calls
  opened := call.opens && decide ((run.shm.call call).code = .none)

/-- The callers create or open an object only while they do not have it open. -/
def Disciplined : ShmRun → List ShmCall → Prop
  | _, [] => True
  | run, call :: calls =>
      (call.opens = true → run.opened = false) ∧ Disciplined (run.step call) calls

/-- Descriptors are closed once, only mappings are unmapped, and an attempt that failed leaves the
object closed. -/
structure StepHolds (run : ShmRun) (call : ShmCall) : Prop where
  closesOnce : ClosesOnce (run.step call).log
  unmapsMappings : UnmapsMappings (run.step call).log
  failedClosed : call.opens = true → (run.shm.call call).code ≠ .none → (run.step call).shm.Closed

/-- The property in every state of a run. -/
def Holds : ShmRun → List ShmCall → Prop
  | _, [] => True
  | run, call :: calls => StepHolds run call ∧ Holds (run.step call) calls

/-- No mapping fails, and `close` does not meet a descriptor that a failed attempt has closed. -/
structure StepMeets (shm : ShmObject) (call : ShmCall) : Prop where
  maps : ¬ shm.MapFails call
  known : call = .close → shm.handle < 0 ∨ shm.isValid = true

/-- The condition on every call of a run. -/
def Meets : ShmRun → List ShmCall → Prop
  | _, [] => True
  | run, call :: calls => StepMeets run.shm call ∧ Meets (run.step call) calls

variable {run : ShmRun} {call : ShmCall}

/-- A call under the condition keeps the account and has the property. -/
theorem step_holds (owes : Owes run.shm run.log) (flag : run.opened = run.shm.isValid)
    (admitted : call.opens = true → run.opened = false) (meets : StepMeets run.shm call) :
    StepHolds run call ∧ Owes (run.step call).shm (run.step call).log ∧
      (run.step call).opened = (run.step call).shm.isValid := by
  cases opens : call.opens with
  | true =>
    obtain ⟨next, valid⟩ := owes.attempt (ShmObject.attempt_call opens) meets.maps
    have valid := valid (flag.symm.trans (admitted opens))
    refine ⟨⟨next.closesOnce, next.unmapsMappings, fun _ failed => ?_⟩, next, ?_⟩
    · apply ShmObject.closed_iff.mpr
      change (run.shm.call call).shm.isValid = false
      rw [valid]
      exact decide_eq_false failed
    · change (call.opens && _) = (run.shm.call call).shm.isValid
      rw [opens, valid, Bool.true_and]
  | false =>
    cases call with
    | create os => cases opens
    | openShm os => cases opens
    | close =>
      obtain ⟨next, invalid⟩ := owes.close (meets.known rfl)
      exact ⟨⟨next.closesOnce, next.unmapsMappings, nofun⟩, next, invalid.symm⟩

/-- A call outside the condition breaks the property. -/
private theorem step_meets (owes : Owes run.shm run.log) (holds : StepHolds run call) :
    StepMeets run.shm call := by
  constructor
  · intro fails
    have opens : call.opens = true := by
      cases call with
      | create os => rfl
      | openShm os => rfl
      | close => cases fails
    have attempt : run.shm.Attempt call (run.shm.call call) := ShmObject.attempt_call opens
    obtain ⟨failed, valid⟩ := attempt.valid_of_mapFails fails
    have closed := (holds.failedClosed opens failed).notValid
    exact absurd (valid.symm.trans closed) (by decide)
  · rintro rfl
    by_contra stale
    push Not at stale
    obtain ⟨stale, invalid⟩ := stale
    have descriptor : 0 ≤ run.shm.handle := by omega
    have invalid : run.shm.isValid = false := by simpa using invalid
    have null := owes.closed invalid
    have log : (run.step .close).log = run.log ++ [.close run.shm.handle] := by
      simp [step, ShmObject.call, ShmObject.close, null, descriptor]
    obtain ⟨fd, same⟩ := Int.eq_ofNat_of_zero_le descriptor
    have settled := owes.fds fd
    have once := holds.closesOnce fd
    rw [log, same] at once
    simp only [invalid, Bool.false_eq_true, false_and, if_false] at settled
    simp [List.count_append] at once
    omega

/-- A disciplined run has the property in every state iff every call meets the condition. -/
theorem holds_iff_meets {run : ShmRun} {calls : List ShmCall} (owes : Owes run.shm run.log)
    (flag : run.opened = run.shm.isValid) (disciplined : run.Disciplined calls) :
    run.Holds calls ↔ run.Meets calls := by
  induction calls generalizing run with
  | nil => exact Iff.rfl
  | cons call calls ih =>
    obtain ⟨admitted, disciplined⟩ := disciplined
    constructor
    · rintro ⟨holds, rest⟩
      have meets := step_meets owes holds
      obtain ⟨-, owes, flag⟩ := step_holds owes flag admitted meets
      exact ⟨meets, (ih owes flag disciplined).mp rest⟩
    · rintro ⟨meets, rest⟩
      obtain ⟨holds, owes, flag⟩ := step_holds owes flag admitted meets
      exact ⟨holds, (ih owes flag disciplined).mpr rest⟩

/-- An object that is not valid and the attempts of `ShmSend::open` on it. -/
theorem disciplined_sendOpenCalls (run : ShmRun) (attempts : List OsResults) (rest : List ShmCall)
    (fresh : run.opened = false) (closes : ∀ next : ShmRun, next.Disciplined rest) :
    run.Disciplined (sendOpenCalls run.shm attempts ++ rest) := by
  induction attempts generalizing run with
  | nil => exact closes run
  | cons os attempts ih =>
    refine ⟨fun _ => fresh, ?_⟩
    change Disciplined _ ((if (run.shm.openShm os).code = .none then [] else _) ++ rest)
    split
    case isTrue => exact closes _
    case isFalse failed =>
      apply ih (run.step (.openShm os))
      change (true && decide _) = false
      rw [Bool.true_and]
      exact decide_eq_false failed

theorem disciplined_closes (run : ShmRun) (calls : List ShmCall)
    (closes : ∀ call ∈ calls, call.opens = false) : run.Disciplined calls := by
  induction calls generalizing run with
  | nil => trivial
  | cons call calls ih =>
    refine ⟨fun opens => ?_, ih _ (fun later member => closes later (.tail _ member))⟩
    rw [closes call (.head _)] at opens
    cases opens

/-- The registry's objects for sending are called with discipline. -/
theorem disciplined_openSendShmCalls (id : Int32) (totalSize : ℕ) (attempts : List OsResults) :
    (new id totalSize).Disciplined (openSendShmCalls (.new id totalSize) attempts) := by
  rw [openSendShmCalls, List.append_assoc]
  apply disciplined_sendOpenCalls (new id totalSize) _ _ rfl
  intro next
  apply disciplined_closes
  intro call member
  split at member
  · rw [List.mem_singleton.mp member]
    rfl
  · simp at member
    rw [member]
    rfl

/-- The registry's object for receiving is called with discipline. -/
theorem disciplined_openRecvShmCalls (id : Int32) (totalSize : ℕ) (created opened : OsResults)
    (initialised : Bool) : (new id totalSize).Disciplined
      (openRecvShmCalls (.new id totalSize) created opened initialised) := by
  have closing (done : Prop) [Decidable done] :
      ∀ call ∈ (if done then [] else [ShmCall.close]) ++ [.close], call.opens = false := by
    split <;> decide
  simp only [openRecvShmCalls]
  split
  case h_1 => exact ⟨fun _ => rfl, disciplined_closes _ _ (closing _)⟩
  case h_2 exists_ =>
    refine ⟨fun _ => rfl, fun _ => ?_, disciplined_closes _ _ (closing _)⟩
    change (true && decide (((ShmObject.new id totalSize).create created).code = .none)) = false
    rw [exists_]
    rfl
  case h_3 => exact ⟨fun _ => rfl, disciplined_closes _ _ (by decide)⟩

instance (shm : ShmObject) : (call : ShmCall) → Decidable (shm.MapFails call)
  | .create _ => inferInstanceAs (Decidable (_ ∧ _))
  | .openShm _ => inferInstanceAs (Decidable (_ ∧ _))
  | .close => inferInstanceAs (Decidable False)

instance (shm : ShmObject) (call : ShmCall) : Decidable (StepMeets shm call) :=
  match call with
  | .create os =>
      decidable_of_iff (¬ shm.MapFails (.create os)) ⟨fun maps => ⟨maps, nofun⟩, StepMeets.maps⟩
  | .openShm os =>
      decidable_of_iff (¬ shm.MapFails (.openShm os)) ⟨fun maps => ⟨maps, nofun⟩, StepMeets.maps⟩
  | .close =>
      decidable_of_iff (shm.handle < 0 ∨ shm.isValid = true)
        ⟨fun known => ⟨id, fun _ => known⟩, fun meets => meets.known rfl⟩

instance decidableMeets : (run : ShmRun) → (calls : List ShmCall) → Decidable (run.Meets calls)
  | _, [] => inferInstanceAs (Decidable True)
  | run, call :: calls =>
      have := decidableMeets (run.step call) calls
      inferInstanceAs (Decidable (StepMeets run.shm call ∧ (run.step call).Meets calls))

/-- Over the life of an object, every state has the property iff no mapping fails and no call of
`close` meets a descriptor that a failed attempt has closed. -/
theorem shm_resources_iff (id : Int32) (totalSize : ℕ) {calls : List ShmCall}
    (disciplined : (new id totalSize).Disciplined calls) :
    (new id totalSize).Holds calls ↔ (new id totalSize).Meets calls :=
  holds_iff_meets (Owes.new id totalSize) rfl disciplined

/-- The block does not exist at the first attempt and can be mapped at the second. -/
def secondAttempt : List OsResults :=
  [⟨.error enoent, true, none, none⟩, ⟨.ok 5, true, some shmBlockSize, some 4096⟩]

theorem shm_resources_iff_second_attempt : (new 3 shmBlockSize).Holds
    (openSendShmCalls (.new 3 shmBlockSize) secondAttempt) :=
  (shm_resources_iff 3 shmBlockSize (disciplined_openSendShmCalls _ _ _)).mpr (by decide)

/-- A block of another size: `create_or_open` fails and `close` closes its descriptor again. -/
theorem shm_closes_twice : ¬ ∀ (id : Int32) (totalSize : ℕ) (calls : List ShmCall),
    (new id totalSize).Disciplined calls → (new id totalSize).Holds calls := by
  intro claim
  let created : OsResults := ⟨.error eexist, true, none, none⟩
  let opened : OsResults := ⟨.ok 5, true, some 4096, none⟩
  have disciplined := disciplined_openRecvShmCalls 3 shmBlockSize created opened true
  have meets := (holds_iff_meets (Owes.new 3 shmBlockSize) rfl disciplined).mp
    (claim 3 shmBlockSize _ disciplined)
  exact absurd meets (by decide)

end ShmRun

end Eroil.Shm
