import Eroil.Proofs.Shm.Account

/-! # Runs of the shared block

Which steps a schedule may take is a condition on actions; the results of later modules choose
one of them. The invariant holds in every state reached before `2 ^ 64` bytes were reserved.
-/

namespace Eroil.Shm

open Lib

/-- Program counters outside the window between a compare-exchange and the end of its marking. -/
def SendPc.Settled : SendPc → Prop
  | .wrapReserved _ _ _ => False
  | .wrapMarked _ _ _ => False
  | .wrapFilled _ _ _ => False
  | .reserved _ _ => False
  | .checked _ _ => False
  | _ => True

theorem retry_settled (gen head tries : ℕ) : (retry gen head tries).Settled := by
  rcases retry_cases gen head tries with loop | stop
  · rw [loop]
    trivial
  · rw [stop]
    trivial

private theorem checkSpace_settled (message : Message) (gen head tail tries : ℕ) :
    (checkSpace message gen head tail tries).Settled := by
  unfold checkSpace
  split_ifs <;> trivial

theorem Reservation.phase_of_settled {ι : Type*} {r : Reservation ι} {pc : SendPc}
    (settled : pc.Settled) : r.phase pc ≠ .unmarked := by
  cases pc <;> simp only [Reservation.phase] <;>
    first | exact settled.elim | (split_ifs <;> rintro ⟨⟩) | rintro ⟨⟩

namespace Sys

variable {ι : Type*} [DecidableEq ι] {sys next middle : Sys ι} {c : ι} {pc pc' : SendPc}

/-- Schedules in which reserving and marking are one step, without flush or re-initialisation. -/
def Fused (_ : Sys ι) : Action ι → Prop
  | .begin _ message => message.InRange
  | .advanceMarked _ _ => True
  | .recv => True
  | _ => False

/-- Schedules in which a compare-exchange and the later stores are separate steps, without flush
or re-initialisation. -/
def Split (_ : Sys ι) : Action ι → Prop
  | .begin _ message => message.InRange
  | .advance _ _ => True
  | .recv => True
  | _ => False

theorem Moved.trans (first : Moved sys middle c pc) (second : Moved middle next c pc') :
    Moved sys next c pc' := by
  unfold Moved at second ⊢
  rw [second, first.self, first, Function.update_idem]

/-- A fused step leaves its call outside the marking window. -/
private theorem Inv.advanceMarked_moved {spurious : Bool} (inv : sys.Inv)
    (reserve : sys.ReserveSafe c spurious) (settled : (sys.calls c).pc.Settled) :
    ∃ pc, Moved sys (sys.advanceMarked c spurious) c pc ∧ pc.Settled := by
  have move := sys.advance_moved c spurious
  unfold Sys.advanceMarked
  cases claim : sys.claimed c spurious with
  | none =>
    refine ⟨_, move, ?_⟩
    cases stage : (sys.calls c).pc <;> rw [stage] at settled
    case loadHead | reloadHead =>
      simp only [sendStep]
      exact retry_settled ..
    case loadTail =>
      simp only [sendStep]
      exact checkSpace_settled ..
    case entered | loadGeneration =>
      simp only [sendStep, mapToType_header, mapToType_metaData]
      split_ifs <;> trivial
    case casWrap | casData =>
      simp only [claimed, stage] at claim
      split_ifs at claim with success
      simp only [sendStep, if_neg success]
      exact retry_settled ..
    all_goals first | exact settled.elim | trivial
  | some r =>
    have current := reserve (by rw [claim]; rintro ⟨⟩)
    have searching := (inv.locals c current).searching
    have first := sys.advance_pc c spurious
    have again (state : Sys ι) := state.advance_pc c false
    unfold claimed at claim
    split at claim <;> try split_ifs at claim with success
    · rename_i gen head tries stage
      cases claim
      rw [stage] at searching
      simp only [↓reduceIte]
      refine ⟨_, ((move.trans (advance_moved ..)).trans (advance_moved ..)).trans
        (advance_moved ..), ?_⟩
      simp only [stage, sendStep, if_pos success, mapToType_boundary searching.2.1] at first
      simp only [again, first, sendStep]
      exact retry_settled ..
    · rename_i gen head tries stage
      cases claim
      simp only [Bool.false_eq_true, ↓reduceIte]
      refine ⟨_, (move.trans (advance_moved ..)).trans (advance_moved ..), ?_⟩
      simp only [stage, sendStep, if_pos success] at first
      have second := again (sys.advance c spurious)
      rw [first, sendStep] at second
      split_ifs at second
      · simp only [second, sendStep]
        trivial
      · split at second <;> simp only [second, sendStep] <;> trivial
    · cases claim

omit [DecidableEq ι] in
/-- Outside the marking windows every reservation is marked. -/
theorem recvSafe_of_settled (settled : ∀ c, (sys.calls c).pc.Settled) : sys.RecvSafe := by
  intro r _ unmarked
  exact absurd unmarked (Reservation.phase_of_settled (settled r.owner))

/-- The marking steps of a fused step take back no bytes. -/
theorem advance_le_advanceMarked (sys : Sys ι) (c : ι) (spurious : Bool) :
    (sys.advance c spurious).reservedBytes ≤ (sys.advanceMarked c spurious).reservedBytes := by
  have once (state : Sys ι) : state.reservedBytes ≤ (state.advance c false).reservedBytes :=
    Nat.le_add_right ..
  unfold Sys.advanceMarked
  split
  · exact le_rfl
  · split
    · exact ((once _).trans (once _)).trans (once _)
    · exact (once _).trans (once _)

/-- An executable condition under which the next step of a call is harmless. -/
def ownStep (sys : Sys ι) (c : ι) : Bool :=
  (sys.calls c).born = sys.incarnation &&
    match (sys.calls c).pc.storeRange (sys.calls c).message with
    | some (pos, _) => sys.tail ≤ pos
    | none => true

omit [DecidableEq ι] in
theorem ownStep_stores (own : sys.ownStep c = true) : sys.StoreSafe c := by
  obtain ⟨current, range⟩ := Bool.and_eq_true_iff.mp own
  intro pos size stores
  rw [stores] at range
  exact .inl ⟨of_decide_eq_true current, of_decide_eq_true range⟩

theorem ownStep_reserves {spurious : Bool} (own : sys.ownStep c = true) :
    sys.ReserveSafe c spurious :=
  fun _ => of_decide_eq_true (Bool.and_eq_true_iff.mp own).1

/-- An executable condition under which `recv` meets no stale header. -/
def allMarked (sys : Sys ι) : Bool := sys.log.all fun r => sys.phase r ≠ .unmarked

omit [DecidableEq ι] in
theorem allMarked_safe (marked : sys.allMarked = true) : sys.RecvSafe := by
  intro r reached unmarked
  have stage := List.all_eq_true.mp marked r reached.1
  exact absurd unmarked (of_decide_eq_true stage)

/-- No step takes back reserved bytes. -/
theorem reservedBytes_le_step (sys : Sys ι) (action : Action ι) :
    sys.reservedBytes ≤ (step sys action).reservedBytes := by
  cases action with
  | begin c message =>
    simp only [step, Sys.begin]
    split <;> exact le_rfl
  | advance c spurious => exact Nat.le_add_right ..
  | advanceMarked c spurious =>
    exact (Nat.le_add_right ..).trans (sys.advance_le_advanceMarked c spurious)
  | recv =>
    simp only [step, Sys.receive]
    split <;> exact le_rfl
  | flush => exact le_rfl
  | reinit id =>
    simp only [step, Sys.restart]
    split <;> exact le_rfl
  | mangle hdr => exact le_rfl

/-- The induction rule for runs in which fewer than `2 ^ 64` bytes were reserved. -/
theorem invariant_while_bounded {ok : Sys ι → Action ι → Prop} {source : Sys ι}
    (good : Sys ι → Prop) (initial : good source)
    (preserved : ∀ state action, good state → ok state action →
      (step state action).reservedBytes < 2 ^ 64 → good (step state action))
    (run : Reaches step ok source sys) (bound : sys.reservedBytes < 2 ^ 64) : good sys := by
  have guarded := run.invariant (fun state => state.reservedBytes < 2 ^ 64 → good state)
    (fun _ => initial) fun state action holds allowed small =>
      preserved state action
        (holds ((state.reservedBytes_le_step action).trans_lt small)) allowed small
  exact guarded bound

/-- Only a re-initialisation starts a new history. -/
theorem incarnation_step (sys : Sys ι) (action : Action ι) (notReinit : ∀ id, action ≠ .reinit id) :
    (step sys action).incarnation = sys.incarnation := by
  cases action with
  | begin c message =>
    simp only [step, Sys.begin]
    split <;> rfl
  | advance c spurious => rfl
  | advanceMarked c spurious =>
    simp only [step, Sys.advanceMarked]
    split
    · rfl
    · split <;> rfl
  | recv =>
    simp only [step, Sys.receive]
    split <;> rfl
  | flush => rfl
  | reinit id => exact absurd rfl (notReinit id)
  | mangle hdr => rfl

/-- Steps that leave no call inside a marking window. -/
def Closed : Action ι → Prop
  | .advance _ _ => False
  | _ => True

theorem Inv.settled_step (inv : sys.Inv) (current : ∀ c, (sys.calls c).born = sys.incarnation)
    (settled : ∀ c, (sys.calls c).pc.Settled) {action : Action ι} (closed : Closed action) (d : ι) :
    ((step sys action).calls d).pc.Settled := by
  cases action with
  | begin c message =>
    simp only [step, Sys.begin]
    split
    · by_cases mine : d = c
      · simp only [mine, Function.update_self, SendPc.Settled]
      · simp only [ne_eq, mine, not_false_eq_true, Function.update_of_ne]
        exact settled d
    · exact settled d
  | advance c spurious => exact closed.elim
  | advanceMarked c spurious =>
    obtain ⟨pc, moved, nextSettled⟩ := inv.advanceMarked_moved (fun _ => current c) (settled c)
    simp only [step]
    by_cases mine : d = c
    · rw [mine, moved.self]
      exact nextSettled
    · rw [moved.other mine]
      exact settled d
  | recv =>
    simp only [step, Sys.receive]
    split <;> exact settled d
  | flush => exact settled d
  | reinit id =>
    simp only [step, Sys.restart]
    split <;> exact settled d
  | mangle hdr => exact settled d

/-- What holds along fused runs without flush or re-initialisation. -/
structure Sound (sys : Sys ι) : Prop where
  inv : sys.Inv
  account : sys.Account
  settled : ∀ c, (sys.calls c).pc.Settled
  first : sys.incarnation = 0

omit [DecidableEq ι] in
/-- Without re-initialisation every call belongs to the present initialisation. -/
theorem Inv.current_of_first (inv : sys.Inv) (first : sys.incarnation = 0) (c : ι) :
    (sys.calls c).born = sys.incarnation := by
  have born := inv.born c
  omega

/-- Every fused step keeps the system sound. -/
theorem Sound.step (sound : sys.Sound) {action : Action ι} (allowed : sys.Fused action)
    (bound : (step sys action).reservedBytes < 2 ^ 64) : (step sys action).Sound := by
  have before : sys.reservedBytes < 2 ^ 64 := (sys.reservedBytes_le_step action).trans_lt bound
  obtain ⟨inv, account, settled, first⟩ := sound
  have current := inv.current_of_first first
  have closed : Closed action := by cases action <;> trivial
  have nextSettled := inv.settled_step current settled closed
  have nextFirst : (Shm.step sys action).incarnation = 0 :=
    (sys.incarnation_step action (by rintro id rfl; exact allowed)).trans first
  cases action with
  | begin c message => exact ⟨inv.begin allowed, account.begin inv message, nextSettled, nextFirst⟩
  | advanceMarked c spurious =>
    obtain ⟨nextInv, nextAccount, _⟩ := inv.advanceMarked_induct Account
      (account.storeSafe inv (current c)) (fun _ => current c)
      ((sys.advance_le_advanceMarked c spurious).trans_lt bound) account
      fun state flag stateInv _ _ _ holds => holds.advance stateInv
    exact ⟨nextInv, nextAccount, nextSettled, nextFirst⟩
  | recv =>
    have safe := recvSafe_of_settled settled
    exact ⟨inv.receive before safe, account.receive inv before safe, nextSettled, nextFirst⟩
  | advance | flush | reinit | mangle => exact allowed.elim

/-- Fused runs on an initialised block are sound while positions do not wrap around. -/
theorem fused_sound {block : ShmBlock} (fresh : block.Fresh) {buf : ByteMemory} {semaphore : ℕ}
    (run : Reaches step Fused (Sys.initial block buf semaphore) sys)
    (bound : sys.reservedBytes < 2 ^ 64) : sys.Sound :=
  invariant_while_bounded Sound
    ⟨initial_inv fresh buf semaphore, initial_account buf semaphore, fun _ => trivial, rfl⟩
    (fun _ _ sound allowed small => sound.step allowed small) run bound

/-- One send and one `recv` on a block that was just created. -/
def roundTrip : List (Action Unit) :=
  .begin () ⟨3, 7, 9, [1, 2, 3]⟩ :: List.replicate 10 (.advanceMarked () false) ++ [.recv]

def afterRoundTrip : Sys Unit :=
  roundTrip.foldl step (Sys.initial (createOrOpen 0 .created).2 (fun _ => 0) 0)

theorem roundTrip_reaches : Reaches step Fused
    (Sys.initial (createOrOpen 0 .created).2 (fun _ => 0) 0) afterRoundTrip := by
  have inRange : Message.InRange ⟨3, 7, 9, [1, 2, 3]⟩ := by decide
  apply Reaches.foldl
  simp [roundTrip, Fused, or_imp, forall_and, inRange]

end Sys

end Eroil.Shm
