import Mathlib.Data.List.Induction
import Eroil.Lib.Cyclic
import Eroil.Model.EventLog

/-! # What the event log prints

Each slot shows the latest call that took it, whatever bytes an earlier one left in the record. So
`write_evtlog` prints the latest calls in some order, once each; what it prints for a call is one
line unless the category of the call is the one whose number is that of the newline character. The
empty line that `LOG` adds behind each record does not count as a line.
-/

namespace Eroil.EvtLog

open Lib

namespace LogCall

def event : LogCall → Event
  | .payload event _ _ => event
  | .hot event _ => event
  | .hotNoTime event => event

def tick : LogCall → UInt64
  | .payload _ _ now => now
  | .hot _ now => now
  | .hotNoTime _ => 0

/-- The part of the payload that a record can hold. -/
def kept : LogCall → List UInt8
  | .payload _ (some bytes) _ => bytes.take payloadBytes
  | _ => []

def flags : LogCall → UInt16
  | .payload _ (some (_ :: _)) _ => hasTick ||| hasPayload
  | .payload _ _ _ => hasTick
  | .hot _ _ => hasTick
  | .hotNoTime _ => 0

/-- What is printed of a call before its category. -/
def front (call : LogCall) : List UInt8 :=
  decimal call.tick.toNat ++ [comma] ++
  signedDecimal call.event.a.toInt ++ [comma] ++
  signedDecimal call.event.b.toInt ++ [comma] ++
  signedDecimal call.event.c.toInt ++ [comma] ++
  decimal call.event.kind.value.toNat ++ [comma] ++
  [call.event.severity.value] ++ [comma]

/-- What is printed of a call behind its category. -/
def back (call : LogCall) (seq : ℕ) : List UInt8 :=
  [comma] ++
  decimal call.flags.toNat ++ [comma] ++
  decimal call.kept.length ++ [comma] ++
  (List.finRange payloadBytes).flatMap (fun index =>
    decimal (call.kept.getD index.val 0).toNat ++ [comma]) ++
  decimal seq

/-- The line of a call, from its arguments and its sequence number alone. -/
def line (call : LogCall) (seq : ℕ) : List UInt8 :=
  call.front ++ [call.event.category.value] ++ call.back seq

def text (call : LogCall) (seq : ℕ) : List UInt8 := call.line seq ++ [newline]

end LogCall

/-- What a slot shows to `write_evtlog`. -/
def shown (record : EventRecord) : Option (List UInt8) :=
  if record.commitSeq = 0 then none else some (recordText record record.commitSeq)

/-- A record that carries a call's arguments and whose payload up to its length is the call's has
the call's text, whatever follows that length. -/
theorem recordText_eq {record : EventRecord} {call : LogCall}
    (numbers : record.tick = call.tick ∧ record.a = call.event.a ∧ record.b = call.event.b ∧
      record.c = call.event.c)
    (kinds : record.kind = call.event.kind.value ∧ record.severity = call.event.severity.value ∧
      record.category = call.event.category.value ∧ record.flags = call.flags)
    (length : record.payloadLen.toNat = call.kept.length)
    (bytes : ∀ index : Fin payloadBytes, index.val < call.kept.length →
      record.payload index = call.kept.getD index 0) (seq : UInt32) :
    recordText record seq = call.text seq.toNat := by
  obtain ⟨tick, a, b, c⟩ := numbers
  obtain ⟨kind, severity, category, flags⟩ := kinds
  have small : call.kept.length ≤ payloadBytes := by
    cases call with
    | payload event payload now =>
      cases payload with
      | none => simp [LogCall.kept]
      | some bytes => simp [LogCall.kept]
    | hot => simp [LogCall.kept]
    | hotNoTime => simp [LogCall.kept]
  have payload (index : Fin payloadBytes) :
      (if index.val < call.kept.length then record.payload index else 0) =
        call.kept.getD index 0 := by
    split
    case isTrue inside => exact bytes index inside
    case isFalse outside =>
      rw [List.getD_eq_getElem?_getD, List.getElem?_eq_none (Nat.not_lt.mp outside)]
      rfl
  unfold recordText LogCall.text LogCall.line LogCall.front LogCall.back
  rw [tick, a, b, c, kind, severity, category, flags, length]
  dsimp only
  rw [if_pos small]
  simp only [payload, List.append_assoc]

namespace EventLog

variable {log : EventLog}

/-- A call takes both counters on and puts its text into its slot. -/
theorem step_spec (log : EventLog) (call : LogCall) :
    ∃ record, log.step call = log.commit record ∧ record.commitSeq = log.seq ∧
      ∀ seq, recordText record seq = call.text seq.toNat := by
  cases call with
  | payload event payload now =>
    rcases payload with _ | bytes
    · exact ⟨_, rfl, rfl, recordText_eq ⟨rfl, rfl, rfl, rfl⟩ ⟨rfl, rfl, rfl, rfl⟩ rfl
        (fun index inside => absurd inside (Nat.not_lt_zero _))⟩
    · rcases bytes with _ | ⟨byte, bytes⟩
      · exact ⟨_, rfl, rfl, recordText_eq ⟨rfl, rfl, rfl, rfl⟩ ⟨rfl, rfl, rfl, rfl⟩ rfl
          (fun index inside => absurd inside (by simp [LogCall.kept]))⟩
      · refine ⟨_, rfl, rfl, recordText_eq ⟨rfl, rfl, rfl, rfl⟩ ⟨rfl, rfl, rfl, rfl⟩ ?_ ?_⟩
        · have capacity : payloadBytes = 20 := rfl
          simp only [LogCall.kept, List.length_take]
          rw [UInt16.toNat_ofNat']
          by_cases short : (byte :: bytes).length < payloadBytes
          · rw [if_pos short]
            omega
          · rw [if_neg short]
            omega
        · intro index inside
          simp only [LogCall.kept, List.length_take] at inside ⊢
          have bound := index.isLt
          rw [if_pos (by split <;> omega)]
          simp only [List.getD_eq_getElem?_getD, List.getElem?_take, bound, if_true]
  | hot event now =>
    exact ⟨_, rfl, rfl, recordText_eq ⟨rfl, rfl, rfl, rfl⟩ ⟨rfl, rfl, rfl, rfl⟩ rfl
      (fun index inside => absurd inside (Nat.not_lt_zero _))⟩
  | hotNoTime event =>
    exact ⟨_, rfl, rfl, recordText_eq ⟨rfl, rfl, rfl, rfl⟩ ⟨rfl, rfl, rfl, rfl⟩ rfl
      (fun index inside => absurd inside (Nat.not_lt_zero _))⟩

private theorem slot_eq (log : EventLog) : log.slot = log.idx % eventLogCapacity :=
  Nat.and_two_pow_sub_one_eq_mod log.idx 10

/-- The texts of the calls, with the sequence numbers that they get. -/
def texts (calls : List LogCall) : List (List UInt8) :=
  (calls.zipIdx 1).map fun (call, seq) => call.text seq

private theorem texts_append (calls : List LogCall) (call : LogCall) :
    texts (calls ++ [call]) = texts calls ++ [call.text (calls.length + 1)] := by
  simp [texts, List.zipIdx_append, Nat.add_comm]

@[simp] theorem length_texts (calls : List LogCall) : (texts calls).length = calls.length := by
  simp [texts]

/-- After a number of calls that leaves the sequence number positive, the counters are in step and
the slots show the latest calls. -/
structure Inv (calls : List LogCall) (log : EventLog) : Prop where
  seq : log.seq.toNat = calls.length + 1
  idx : log.idx = calls.length
  slots : Cyclic.Keeps eventLogCapacity (texts calls) fun index => shown (log.evtLogs index)

theorem Inv.initial : Inv [] initial where
  seq := rfl
  idx := rfl
  slots := Cyclic.Keeps.empty eventLogCapacity

theorem Inv.step {calls : List LogCall} (inv : Inv calls log) (few : calls.length + 1 < 2 ^ 32 - 1)
    (call : LogCall) : Inv (calls ++ [call]) (log.step call) := by
  obtain ⟨record, step, seq, text⟩ := step_spec log call
  have started : record.commitSeq ≠ 0 := by
    rw [seq]
    intro zero
    have number := inv.seq
    rw [zero] at number
    exact absurd number (by simp)
  rw [step]
  constructor
  · rw [List.length_append, List.length_singleton]
    change (log.seq + 1).toNat = _
    rw [UInt32.toNat_add, inv.seq]
    exact Nat.mod_eq_of_lt (by simp; omega)
  · rw [List.length_append, List.length_singleton]
    change wrap64 (log.idx + 1) = _
    rw [inv.idx, wrap64_of_lt (by omega)]
  · rw [texts_append]
    have next := inv.slots.push (call.text (calls.length + 1))
    rw [length_texts] at next
    convert next using 1
    funext index
    simp only [commit, slot_eq, inv.idx, Function.update_apply]
    split
    case isTrue => rw [shown, if_neg started, text, seq, inv.seq]
    case isFalse => rfl

/-- Every run of fewer than 2^32 - 1 calls. -/
theorem Inv.run {calls : List LogCall} (few : calls.length < 2 ^ 32 - 1) :
    Inv calls (EventLog.initial.run calls) := by
  induction calls using List.reverseRecOn with
  | nil => exact Inv.initial
  | append_singleton calls call ih =>
    rw [List.length_append, List.length_singleton] at few
    rw [EventLog.run, List.foldl_append]
    exact (ih (by omega)).step few call

/-- The records of the log have the texts of the latest calls. -/
private theorem recordTexts_perm {calls : List LogCall} (few : calls.length < 2 ^ 32 - 1) :
    (initial.run calls).recordTexts.Perm
      ((texts calls).drop (calls.length - eventLogCapacity)) := by
  have printed := (Inv.run few).slots.perm
  rwa [length_texts] at printed

end EventLog

theorem newline_notMem_decimal (value : ℕ) : newline ∉ decimal value := by
  unfold decimal
  split
  case isTrue => decide
  case isFalse =>
    intro member
    obtain ⟨digit, listed, same⟩ := List.mem_map.mp member
    have small : digit < 10 := Nat.digits_lt_base (by decide) (List.mem_reverse.mp listed)
    have number := congrArg UInt8.toNat same
    rw [UInt8.toNat_ofNat', Nat.mod_eq_of_lt (by omega)] at number
    change 48 + digit = 10 at number
    omega

theorem newline_notMem_signedDecimal (value : ℤ) : newline ∉ signedDecimal value := by
  unfold signedDecimal
  split
  case isTrue =>
    intro member
    rcases List.mem_cons.mp member with minus | digit
    · exact absurd minus (by decide)
    · exact newline_notMem_decimal _ digit
  case isFalse => exact newline_notMem_decimal _

private theorem newline_notMem_front (call : LogCall) : newline ∉ call.front := by
  have severity : newline ∉ [call.event.severity.value] := by
    cases call.event.severity <;> decide
  have separator : newline ∉ [comma] := by decide
  simp only [LogCall.front, List.mem_append, newline_notMem_decimal, newline_notMem_signedDecimal,
    severity, separator, or_self, not_false_eq_true]

theorem newline_notMem_back (call : LogCall) (seq : ℕ) : newline ∉ call.back seq := by
  have separator : newline ∉ [comma] := by decide
  have payload : newline ∉ (List.finRange payloadBytes).flatMap fun index =>
      decimal (call.kept.getD index.val 0).toNat ++ [comma] := by
    intro member
    obtain ⟨index, -, printed⟩ := List.mem_flatMap.mp member
    rcases List.mem_append.mp printed with digit | comma
    · exact newline_notMem_decimal _ digit
    · exact separator comma
  simp only [LogCall.back, List.mem_append, newline_notMem_decimal, payload, separator, or_self,
    not_false_eq_true]

private theorem newline_notMem_infoPrefix (id : Int32) : newline ∉ infoPrefix id := by
  have opening : newline ∉ ascii "[ " := by decide
  have closing : newline ∉ ascii " ] INFO: " := by decide
  simp only [infoPrefix, List.mem_append, newline_notMem_signedDecimal, opening, closing, or_self,
    not_false_eq_true]

/-! ## Lines -/

/-- The lines of a stream that are not empty. -/
def textLines (stream : List UInt8) : List (List UInt8) :=
  (stream.splitOn newline).filter (· ≠ [])

@[simp] theorem textLines_nil : textLines [] = [] := by simp [textLines]

theorem textLines_append (before behind : List UInt8) :
    textLines (before ++ newline :: behind) = textLines before ++ textLines behind := by
  rw [textLines, List.splitOn_append_cons_self, List.filter_append]
  rfl

theorem textLines_line {text : List UInt8} (whole : newline ∉ text) (nonempty : text ≠ []) :
    textLines text = [text] := by
  rw [textLines, List.splitOn_eq_singleton whole]
  simp [nonempty]

theorem infoPrefix_ne_nil (id : Int32) : infoPrefix id ≠ [] := List.cons_ne_nil _ _

/-- The line of a call is one line unless its category is printed as a newline. -/
theorem textLines_call (id : Int32) (call : LogCall) (seq : ℕ) :
    textLines (infoPrefix id ++ call.text seq) =
      if call.event.category = .socketMonitor then
        [infoPrefix id ++ call.front, call.back seq]
      else [infoPrefix id ++ call.line seq] := by
  have opens : newline ∉ infoPrefix id ++ call.front :=
    mt List.mem_append.mp (not_or_intro (newline_notMem_infoPrefix id) (newline_notMem_front call))
  have ends : textLines (infoPrefix id ++ call.text seq) =
      textLines (infoPrefix id ++ call.line seq) := by
    rw [LogCall.text, ← List.append_assoc, textLines_append, textLines_nil, List.append_nil]
  rw [ends]
  split
  case isTrue monitor =>
    have split : infoPrefix id ++ call.line seq =
        (infoPrefix id ++ call.front) ++ newline :: call.back seq := by
      rw [LogCall.line, monitor, List.append_assoc, List.append_assoc]
      rfl
    rw [split, textLines_append, textLines_line opens
      (List.append_ne_nil_of_left_ne_nil (infoPrefix_ne_nil id) _),
      textLines_line (newline_notMem_back call seq) (List.cons_ne_nil _ _), List.singleton_append]
  case isFalse other =>
    have category : newline ∉ [call.event.category.value] := by
      cases same : call.event.category with
      | socketMonitor => exact absurd same other
      | _ => decide
    refine textLines_line ?_ (List.append_ne_nil_of_left_ne_nil (infoPrefix_ne_nil id) _)
    rw [LogCall.line, ← List.append_assoc, ← List.append_assoc]
    exact mt List.mem_append.mp (not_or_intro
      (mt List.mem_append.mp (not_or_intro opens category)) (newline_notMem_back call seq))

/-- What `LOG` adds behind a text is an empty line. -/
private theorem textLines_infoPrints (id : Int32) (texts : List (List UInt8)) :
    textLines (texts.flatMap (infoPrint id)) =
      texts.flatMap fun text => textLines (infoPrefix id ++ text) := by
  induction texts with
  | nil => exact textLines_nil
  | cons text rest ih =>
    rw [List.flatMap_cons, List.flatMap_cons, infoPrint, List.append_assoc, List.singleton_append,
      textLines_append, ih]

/-- The latest calls that the log has room for, with their sequence numbers. -/
def latest (calls : List LogCall) : List (LogCall × ℕ) :=
  (calls.zipIdx 1).drop (calls.length - eventLogCapacity)

/-- The lines that `write_evtlog` prints when the calls were made on `g_event_log`. -/
def printedLines (id : Int32) (calls : List LogCall) : List (List UInt8) :=
  let log := EventLog.initial.run calls
  textLines (log.writeEvtlog log id)

theorem printedLines_perm {calls : List LogCall} (few : calls.length < 2 ^ 32 - 1) (id : Int32) :
    (printedLines id calls).Perm
      ((latest calls).flatMap fun entry => textLines (infoPrefix id ++ entry.1.text entry.2)) := by
  have texts := EventLog.recordTexts_perm few
  rw [EventLog.texts, ← List.map_drop] at texts
  have lines := texts.flatMap_right fun text => textLines (infoPrefix id ++ text)
  rw [List.flatMap_map] at lines
  rw [printedLines, EventLog.writeEvtlog, textLines_infoPrints]
  exact lines

/-- `write_evtlog` prints one line for each of the latest calls, with the values of this call, and
no other lines. -/
def LogExact (id : Int32) (calls : List LogCall) : Prop :=
  (printedLines id calls).Perm
    ((latest calls).map fun entry => infoPrefix id ++ entry.1.line entry.2)

/-- The export is exact iff none of the latest calls has the category that is printed as a
newline. -/
theorem event_log_exact_iff (id : Int32) {calls : List LogCall} (few : calls.length < 2 ^ 32 - 1) :
    LogExact id calls ↔ ∀ entry ∈ latest calls, entry.1.event.category ≠ .socketMonitor := by
  have printed := printedLines_perm few id
  constructor
  · intro exact entry member monitor
    -- the second line of such a call begins with a comma, every line of a call with a bracket
    have second : entry.1.back entry.2 ∈ printedLines id calls := by
      refine printed.mem_iff.mpr (List.mem_flatMap.mpr ⟨entry, member, ?_⟩)
      rw [textLines_call, if_pos monitor]
      exact List.mem_cons_of_mem _ (List.mem_singleton_self _)
    obtain ⟨other, -, same⟩ := List.mem_map.mp (exact.mem_iff.mp second)
    exact absurd (List.cons.inj same).1 (by decide)
  · intro clear
    refine printed.trans (List.Perm.of_eq ?_)
    rw [List.map_eq_flatMap]
    apply List.flatMap_congr
    intro entry member
    rw [textLines_call, if_neg (clear entry member)]

/-- An event of a category. -/
def eventOf (category : Category) : Event := ⟨.send, .warning, category, 1, 2, 3⟩

theorem event_log_exact_iff_router :
    LogExact 4 [.payload (eventOf .router) (some [1, 2, 3]) 7, .hotNoTime (eventOf .shm)] :=
  (event_log_exact_iff 4 (by simp)).mpr (by
    intro entry member
    simp only [latest, List.zipIdx_cons, List.zipIdx_nil, List.length_cons, List.length_nil,
      eventLogCapacity, Nat.reduceAdd, Nat.reduceSub, List.drop_zero, List.mem_cons,
      List.not_mem_nil, or_false] at member
    rcases member with rfl | rfl <;> simp [LogCall.event, eventOf])

/-- A warning of the socket monitor is printed as two lines. -/
theorem event_log_breaks_line :
    ¬ ∀ (id : Int32) (calls : List LogCall), calls.length < 2 ^ 32 - 1 → LogExact id calls := by
  intro claim
  have few : [LogCall.hot (eventOf .socketMonitor) 7].length < 2 ^ 32 - 1 := by simp
  have lines := (claim 4 _ few).length_eq.symm.trans (printedLines_perm few 4).length_eq
  rw [latest] at lines
  simp [eventLogCapacity, textLines_call, LogCall.event, eventOf] at lines

end Eroil.EvtLog
