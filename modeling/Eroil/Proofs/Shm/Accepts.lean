import Eroil.Model.Shm.Worker
import Eroil.Proofs.Socket.Dispatch

/-! # The two receive paths on one record

The shared-memory worker looks at the first header of a record only, and does not compare the size
in it with the bytes that were received. The socket worker, given the same bytes as its stream,
passes over pings and waits for missing data. The records on which both make the same call are
described byte for byte.
-/

namespace Eroil

open Lib

/-! ## The first label of a stream -/

/-- A header that the socket worker passes over. -/
def PassedOver (header : List UInt8) : Prop :=
  header.length = sizeofLabelHeader ∧ ¬ (LabelHeader.ofBytes header).Bad ∧
    ¬ hasFlag (LabelHeader.ofBytes header).flags .data

/-- A stream that starts with a label and all of its data. -/
def StartsWithLabel (stream : List UInt8) : Prop :=
  sizeofLabelHeader ≤ stream.length ∧ ¬ (LabelHeader.ofBytes stream).Bad ∧
    hasFlag (LabelHeader.ofBytes stream).flags .data ∧
    sizeofLabelHeader + (LabelHeader.ofBytes stream).labelSize ≤ stream.length

private theorem readStream_passedOver {header : List UInt8} (passed : PassedOver header)
    (later : List UInt8) : readStream (header ++ later) = readStream later := by
  obtain ⟨sized, good, noData⟩ := passed
  rw [readStream, LabelHeader.ofBytes_append (Nat.le_of_eq sized.symm), if_neg good, if_pos noData,
    if_neg (by rw [List.length_append]; omega), ← sized, List.drop_left]

theorem readStream_label {stream : List UInt8} (starts : StartsWithLabel stream) :
    (readStream stream).dispatched.head? = some (labelAt stream) := by
  obtain ⟨enough, good, data, complete⟩ := starts
  rw [readStream, if_neg (Nat.not_lt.mpr enough), if_neg good, if_neg (not_not.mpr data),
    if_neg (Nat.not_lt.mpr complete)]
  rfl

/-- The first call for a stream comes from the first label that only pings stand before. -/
theorem first_dispatch_iff (stream : List UInt8) (dispatch : Dispatch) :
    (readStream stream).dispatched.head? = some dispatch ↔
      ∃ (pings : List (List UInt8)) (rest : List UInt8), (∀ ping ∈ pings, PassedOver ping) ∧
        stream = pings.flatten ++ rest ∧ StartsWithLabel rest ∧ labelAt rest = dispatch := by
  constructor
  · intro first
    fun_induction readStream stream with
    | case1 stream short => cases first
    | case2 stream whole bad => cases first
    | case3 stream whole good noData ih =>
      have enough := Nat.le_of_not_lt whole
      obtain ⟨pings, rest, passed, split, starts, same⟩ := ih first
      have here : PassedOver (stream.take sizeofLabelHeader) := by
        refine ⟨SocketRecvWorker.take_header enough, ?_, ?_⟩
        · rwa [LabelHeader.ofBytes_take enough le_rfl]
        · rwa [LabelHeader.ofBytes_take enough le_rfl]
      refine ⟨stream.take sizeofLabelHeader :: pings, rest, ?_, ?_, starts, same⟩
      · intro ping member
        obtain rfl | member := List.mem_cons.mp member
        · exact here
        · exact passed ping member
      · rw [List.flatten_cons, List.append_assoc, ← split, List.take_append_drop]
    | case4 stream whole good data short => cases first
    | case5 stream whole good data complete ih =>
      refine ⟨[], stream, by simp, rfl, ⟨Nat.le_of_not_lt whole, good, not_not.mp data,
        Nat.le_of_not_lt complete⟩, ?_⟩
      simpa [Reading.after] using first
  · rintro ⟨pings, rest, passed, rfl, starts, rfl⟩
    induction pings with
    | nil => exact readStream_label starts
    | cons ping pings ih =>
      rw [List.flatten_cons, List.append_assoc,
        readStream_passedOver (passed ping List.mem_cons_self)]
      exact ih fun other member => passed other (List.mem_cons_of_mem _ member)

/-- Every stream can be delivered. -/
private theorem exists_carries (stream : List UInt8) : ∃ results, Carries results stream := by
  by_cases empty : stream = []
  · exact ⟨[], by simp, empty.symm⟩
  · have carries : Carries [] [] := ⟨by simp, rfl⟩
    have received := carries.received empty
    rw [List.append_nil] at received
    exact ⟨_, received⟩

namespace SocketRecvWorker

/-- The first call that the socket worker makes depends on the bytes of the stream only. -/
theorem run_first {results : List OsRecv} {stream : List UInt8} (carries : Carries results stream) :
    (start.run results).worker.dispatched.head? = (readStream stream).dispatched.head? := by
  have agrees := run_agrees start_ready carries [] (fun _ => rfl)
  rw [List.append_nil] at agrees
  rw [agrees.dispatched]
  rfl

end SocketRecvWorker

/-! ## Records -/

/-- Both paths refuse the record before they look at its flags. -/
def RefusedByBoth (record : List UInt8) : Prop :=
  record.length < sizeofLabelHeader ∨ (LabelHeader.ofBytes record).magic ≠ magicNum ∨
    (LabelHeader.ofBytes record).version ≠ version ∨
    (LabelHeader.ofBytes record).labelSize > maxLabelSize

/-- The record is a label with all of its data. -/
def HoldsLabel (record : List UInt8) : Prop :=
  hasFlag (LabelHeader.ofBytes record).flags .data ∧ 0 < (LabelHeader.ofBytes record).labelSize ∧
    sizeofLabelHeader + (LabelHeader.ofBytes record).labelSize ≤ record.length

/-- The record starts with pings, and the first of them, read as a label, repeats the label that
follows them. -/
def PingsEcho (record : List UInt8) : Prop :=
  ∃ (pings : List (List UInt8)) (rest : List UInt8), pings ≠ [] ∧ (∀ ping ∈ pings, PassedOver ping) ∧
    record = pings.flatten ++ rest ∧ StartsWithLabel rest ∧ labelAt rest = labelAt record

/-- The records on which the two paths agree. -/
def SameOnBoth (record : List UInt8) : Prop :=
  RefusedByBoth record ∨ HoldsLabel record ∨ PingsEcho record

theorem RefusedByBoth.first {record : List UInt8} (refused : RefusedByBoth record) :
    (readStream record).dispatched.head? = none := by
  rw [readStream]
  split_ifs with short bad
  · rfl
  · rfl
  all_goals
    simp only [LabelHeader.Bad, RefusedByBoth] at bad refused
    tauto

/-- The socket worker accepts the header of a label that is not refused. -/
theorem HoldsLabel.not_bad {record : List UInt8} (holds : HoldsLabel record)
    (passes : ¬ RefusedByBoth record) : ¬ (LabelHeader.ofBytes record).Bad := by
  obtain ⟨data, nonempty, -⟩ := holds
  simp only [RefusedByBoth, not_or] at passes
  simp only [LabelHeader.Bad]
  rintro (magic | version | large | ⟨-, empty⟩ | ⟨noData, -⟩)
  · exact passes.2.1 magic
  · exact passes.2.2.1 version
  · exact passes.2.2.2 large
  · omega
  · exact noData data

theorem HoldsLabel.first {record : List UInt8} (holds : HoldsLabel record)
    (passes : ¬ RefusedByBoth record) :
    (readStream record).dispatched.head? = some (labelAt record) := by
  have complete := holds.2.2
  exact readStream_label ⟨by omega, holds.not_bad passes, holds.1, complete⟩

private theorem length_labelAt {stream : List UInt8}
    (complete : sizeofLabelHeader + (LabelHeader.ofBytes stream).labelSize ≤ stream.length) :
    (labelAt stream).buf.length = (LabelHeader.ofBytes stream).labelSize := by
  simp only [labelAt, LabelHeader.dispatch, List.length_take, List.length_drop]
  omega

/-- A label behind a ping is shorter than the record by more than its header. -/
theorem behind_pings {pings : List (List UInt8)} {rest : List UInt8} (some_ping : pings ≠ [])
    (passed : ∀ ping ∈ pings, PassedOver ping) (starts : StartsWithLabel rest) :
    sizeofLabelHeader + (labelAt rest).buf.length < (pings.flatten ++ rest).length := by
  obtain ⟨ping, others, rfl⟩ := List.exists_cons_of_ne_nil some_ping
  have sized := (passed ping List.mem_cons_self).1
  have positive : 0 < sizeofLabelHeader := by decide
  rw [length_labelAt starts.2.2.2, List.flatten_cons, List.append_assoc, List.length_append,
    List.length_append, sized]
  have complete := starts.2.2.2
  omega

namespace Shm

/-- The call that a record leads to, if any. -/
def Handled.dispatch? : Handled → Option Dispatch
  | .dispatched dispatch => some dispatch
  | _ => none

/-- The label that the shared-memory worker takes a record for; the data may run past the record. -/
def labelIn (record : List UInt8) (buf : ByteMemory) : Dispatch :=
  (LabelHeader.ofBytes record).dispatch
    (buf.load sizeofLabelHeader (LabelHeader.ofBytes record).labelSize)

theorem header_loaded {record : List UInt8} {buf : ByteMemory}
    (loaded : buf.load 0 record.length = record) (whole : sizeofLabelHeader ≤ record.length) :
    LabelHeader.ofBytes (buf.load 0 sizeofLabelHeader) = LabelHeader.ofBytes record := by
  have slice := buf.load_slice 0 (show 0 + sizeofLabelHeader ≤ record.length by omega)
  rw [loaded, List.drop_zero] at slice
  rw [← slice, LabelHeader.ofBytes_take whole le_rfl]

private theorem handleRecord_refused {record : List UInt8} {buf : ByteMemory}
    (loaded : buf.load 0 record.length = record) (refused : RefusedByBoth record) :
    (handleRecord record.length buf).dispatch? = none := by
  rw [handleRecord]
  split_ifs with short
  · rfl
  · simp only [header_loaded loaded (Nat.le_of_not_lt short)]
    simp only [RefusedByBoth] at refused
    split_ifs with incoherent large
    · rfl
    · rfl
    · tauto

theorem handleRecord_label {record : List UInt8} {buf : ByteMemory}
    (loaded : buf.load 0 record.length = record) (passes : ¬ RefusedByBoth record) :
    (handleRecord record.length buf).dispatch? = some (labelIn record buf) := by
  simp only [RefusedByBoth, not_or] at passes
  obtain ⟨whole, magic, version, small⟩ := passes
  rw [handleRecord, if_neg whole]
  simp only [header_loaded loaded (Nat.le_of_not_lt whole)]
  rw [if_neg (by tauto), if_neg small]
  rfl

/-- With all of its data in the record, the label is the one that the bytes of the record say. -/
theorem labelIn_eq {record : List UInt8} {buf : ByteMemory}
    (loaded : buf.load 0 record.length = record)
    (complete : sizeofLabelHeader + (LabelHeader.ofBytes record).labelSize ≤ record.length) :
    labelIn record buf = labelAt record := by
  have slice := buf.load_slice 0 complete
  rw [loaded, Nat.zero_add] at slice
  rw [labelIn, labelAt, slice]

private theorem length_labelIn (record : List UInt8) (buf : ByteMemory) :
    (labelIn record buf).buf.length = (LabelHeader.ofBytes record).labelSize :=
  ByteMemory.length_load ..

/-- The two paths make the same first call exactly for the records described above, whatever is left
in the receive buffer by earlier records. -/
private theorem handleRecord_first_iff {record : List UInt8} {buf : ByteMemory}
    (loaded : buf.load 0 record.length = record) :
    (handleRecord record.length buf).dispatch? = (readStream record).dispatched.head? ↔
      SameOnBoth record := by
  by_cases refused : RefusedByBoth record
  · rw [handleRecord_refused loaded refused, refused.first]
    exact ⟨fun _ => .inl refused, fun _ => rfl⟩
  rw [handleRecord_label loaded refused, eq_comm, first_dispatch_iff]
  constructor
  · rintro ⟨pings, rest, passed, split, starts, same⟩
    by_cases none_passed : pings = []
    · -- the label stands at the start of the record
      subst none_passed
      obtain rfl : record = rest := split
      obtain ⟨-, good, data, complete⟩ := starts
      exact .inr (.inl ⟨data, (SocketRecvWorker.sizes_of_good good data).1, complete⟩)
    · have short := behind_pings none_passed passed starts
      rw [same, length_labelIn, ← split] at short
      rw [labelIn_eq loaded (Nat.le_of_lt short)] at same
      exact .inr (.inr ⟨pings, rest, none_passed, passed, split, starts, same⟩)
  · rintro (again | holds | ⟨pings, rest, some_ping, passed, split, starts, same⟩)
    · exact absurd again refused
    · have first := holds.first refused
      rw [← labelIn_eq loaded holds.2.2] at first
      exact (first_dispatch_iff _ _).mp first
    · have short := behind_pings some_ping passed starts
      rw [same, ← split] at short
      have complete : sizeofLabelHeader + (LabelHeader.ofBytes record).labelSize ≤ record.length := by
        simp only [labelAt, LabelHeader.dispatch, List.length_take, List.length_drop] at short
        omega
      exact ⟨pings, rest, passed, split, starts, by rw [same, labelIn_eq loaded complete]⟩

namespace ShmRecvWorker

variable {ι : Type*} {worker : ShmRecvWorker ι} {record : List UInt8}

/-- The record that the next `recv` of the worker returns. -/
def nextRecord (worker : ShmRecvWorker ι) : Option (List UInt8) :=
  match recv (recvFuel worker.sys.block) worker.sys.block worker.sys.recvBuf recvBufSize with
  | .returned run =>
      if run.data.code = .none then some (run.buf.load 0 run.data.bufSize) else none
  | _ => none

/-- The worker is in its drain loop and gets the record. -/
def Gets (worker : ShmRecvWorker ι) (record : List UInt8) : Prop :=
  worker.pc = .draining ∧ worker.nextRecord = some record

instance (worker : ShmRecvWorker ι) (record : List UInt8) : Decidable (worker.Gets record) :=
  inferInstanceAs (Decidable (_ ∧ _))

/-- What the worker dispatches for a record depends on the record and on the rest of the buffer. -/
theorem Gets.poll (gets : worker.Gets record) (expired : Bool) :
    ∃ buf : ByteMemory, buf.load 0 record.length = record ∧
      (worker.poll expired).dispatched =
        worker.dispatched ++ (handleRecord record.length buf).dispatch?.toList := by
  obtain ⟨draining, next⟩ := gets
  rw [nextRecord] at next
  split at next
  · next run returned =>
    split_ifs at next with success
    obtain rfl : run.buf.load 0 run.data.bufSize = record := Option.some.inj next
    rw [ByteMemory.length_load]
    refine ⟨run.buf, rfl, ?_⟩
    simp only [ShmRecvWorker.poll, draining, ne_eq, not_true_eq_false, if_false, returned,
      getNextRecord,
      success, take]
    split
    · next handled => simp [handled, Handled.dispatch?]
    · next handled => simp [handled, Handled.dispatch?, again]
    · next dispatch handled => simp [handled, Handled.dispatch?]
  · cases next

/-- Given a record, the shared-memory worker makes the first call that the socket worker makes for
the bytes of the record, however they are delivered, exactly for the records described above. -/
theorem poll_like_socket_iff (gets : worker.Gets record) (expired : Bool) :
    (∀ results, Carries results record → (worker.poll expired).dispatched =
      worker.dispatched ++ (SocketRecvWorker.start.run results).worker.dispatched.head?.toList) ↔
    SameOnBoth record := by
  obtain ⟨buf, loaded, dispatched⟩ := gets.poll expired
  rw [← handleRecord_first_iff loaded, dispatched]
  constructor
  · intro agree
    obtain ⟨results, carries⟩ := exists_carries record
    have same := List.append_cancel_left (agree results carries)
    rw [SocketRecvWorker.run_first carries] at same
    simpa only [Option.head?_toList] using congrArg List.head? same
  · intro same results carries
    rw [SocketRecvWorker.run_first carries, same]

/-- A sender puts the given bytes into a new block, and the worker wakes up. -/
def givenRecord (bytes : List UInt8) : ShmRecvWorker Unit :=
  let actions : List (Action Unit) :=
    .begin () ⟨3, 7, 9, bytes⟩ :: List.replicate 10 (.advanceMarked () false) ++ [.wake]
  actions.foldl step (start 0 (Sys.initial (createOrOpen 0 .created).2 (fun _ => 0) 0))

/-- A label of two bytes. -/
def twoBytes : List UInt8 :=
  LabelHeader.bytes ⟨magicNum, version, 3, LabelFlag.data.value, 7, 2, 0⟩ ++ [5, 6]

theorem poll_like_socket_iff_twoBytes : (givenRecord twoBytes).Gets twoBytes ∧
    ∀ results, Carries results twoBytes → ((givenRecord twoBytes).poll false).dispatched =
      (givenRecord twoBytes).dispatched ++
        (SocketRecvWorker.start.run results).worker.dispatched.head?.toList := by
  have gets : (givenRecord twoBytes).Gets twoBytes := by decide +kernel
  refine ⟨gets, (poll_like_socket_iff gets false).mpr (.inr (.inl ?_))⟩
  rw [HoldsLabel]
  decide

/-- The header of a label of five bytes that do not follow. -/
def headerOnly : List UInt8 :=
  LabelHeader.bytes ⟨magicNum, version, 3, LabelFlag.data.value, 7, 5, 0⟩

theorem headerOnly_dispatched : ¬ ∀ (worker : ShmRecvWorker Unit) (record : List UInt8),
    worker.Gets record → ∀ results, Carries results record → (worker.poll false).dispatched =
      worker.dispatched ++ (SocketRecvWorker.start.run results).worker.dispatched.head?.toList := by
  intro agree
  have gets : (givenRecord headerOnly).Gets headerOnly := by decide +kernel
  have carries : Carries [.received headerOnly] headerOnly := by decide
  have same := agree _ _ gets _ carries
  have unread : (readStream headerOnly).dispatched.head? = none := by
    rw [readStream, if_neg (by decide), if_neg (by decide), if_neg (by decide), if_pos (by decide)]
    rfl
  have dispatched :
      ((givenRecord headerOnly).poll false).dispatched = [⟨3, 7, [0, 0, 0, 0, 0], 0⟩] := by
    decide +kernel
  rw [SocketRecvWorker.run_first carries, unread, dispatched] at same
  revert same
  decide +kernel

end ShmRecvWorker

end Shm

end Eroil
