import Eroil.Model.Send.Label
import Eroil.Proofs.Shm.Accepts
import Eroil.Proofs.Shm.Corrupt
import Eroil.Proofs.Shm.Sizes

/-! # The size limits on the way of a label

A label passes a check of the handle, an assertion of the router, the size check of the block, the
receive buffer of the worker and the check of the size in its header. Some of them count the header
of the label and some do not. All but the assertion let through every label that a handle can send.
-/

namespace Eroil

open Lib Shm

/-! ## The header of a label is read back -/

namespace LabelHeader

/-- The values of a header that its fields can hold. -/
structure Fits (header : LabelHeader) : Prop where
  magic : header.magic < 2 ^ 32
  version : header.version < 2 ^ 16
  flags : header.flags < 2 ^ 16
  labelSize : header.labelSize < 2 ^ 32
  recvOffset : header.recvOffset < 2 ^ 32

variable {header : LabelHeader}

/-- A header is read back from its memory, whatever follows there. -/
theorem ofBytes_bytes (fits : header.Fits) (rest : List UInt8) :
    ofBytes (header.bytes ++ rest) = header := by
  have word {offset width value : ℕ} (small : value < 256 ^ width)
      (holds : field (header.bytes ++ rest) offset width =
        ByteMemory.decode (ByteMemory.encode width value)) :
      field (header.bytes ++ rest) offset width = value := by
    rw [holds, ByteMemory.decode_encode, Nat.mod_eq_of_lt small]
  have magic : field (header.bytes ++ rest) 0 4 = header.magic := word fits.magic rfl
  have version : field (header.bytes ++ rest) 4 2 = header.version := word fits.version rfl
  have source : field (header.bytes ++ rest) 8 4 = header.sourceId.toUInt32.toNat :=
    word header.sourceId.toUInt32.toNat_lt rfl
  have flags : field (header.bytes ++ rest) 12 2 = header.flags := word fits.flags rfl
  have label : field (header.bytes ++ rest) 16 4 = header.label.toUInt32.toNat :=
    word header.label.toUInt32.toNat_lt rfl
  have size : field (header.bytes ++ rest) 20 4 = header.labelSize := word fits.labelSize rfl
  have offset : field (header.bytes ++ rest) 24 4 = header.recvOffset := word fits.recvOffset rfl
  rw [ofBytes, magic, version, source, flags, label, size, offset, UInt32.ofNat_toNat,
    UInt32.ofNat_toNat]
  rfl

end LabelHeader

/-! ## What the two size errors of the block mean -/

namespace Shm

variable {block : ShmBlock} {message : Message}

/-- A call returns SizeTooLarge only for a reservation that exceeds the data block. -/
private theorem sendStep_tooLarge {spurious : Bool} {pc : SendPc}
    (result : (sendStep spurious block message pc).2 = .done .sizeTooLarge) :
    pc = .done .sizeTooLarge ∨ dataBlockSize < message.reserved := by
  have searching {gen head tries : ℕ} (ended : retry gen head tries = .done .sizeTooLarge) :
      False := by
    rcases retry_cases gen head tries with loop | stop
    · rw [loop] at ended
      cases ended
    · rw [stop] at ended
      cases ended
  cases pc with
  | entered =>
    simp only [sendStep, mapToType_header] at result
    split_ifs at result
    cases result
  | loadGeneration =>
    simp only [sendStep, mapToType_metaData] at result
    split_ifs at result with large
    exact .inr large
  | loadHead gen =>
    simp only [sendStep] at result
    exact (searching result).elim
  | loadTail gen head tries =>
    simp only [sendStep, checkSpace] at result
    split_ifs at result <;> cases result
  | reloadHead gen tries =>
    simp only [sendStep] at result
    exact (searching result).elim
  | casWrap gen head tries =>
    simp only [sendStep] at result
    split_ifs at result
    · dsimp only at result
      split at result
      · exact (searching result).elim
      · cases result
    · exact (searching result).elim
  | wrapFilled gen head tries =>
    simp only [sendStep] at result
    exact (searching result).elim
  | casData gen head tries =>
    simp only [sendStep] at result
    split_ifs at result
    exact (searching result).elim
  | reserved gen head =>
    simp only [sendStep] at result
    split_ifs at result
    · cases result
    · split at result <;> cases result
  | done code => exact .inl result
  | _ => cases result

/-- The scan changes no record, and where it finds one the tail has been stored. -/
private theorem recvScan_keeps (gen fuel head : ℕ) (stores : List ℕ) {tail : ℕ}
    (here : block.metaData.tailBytes = tail) :
    (recvScan gen fuel block tail head stores).block.bytes = block.bytes ∧
      (recvScan gen fuel block tail head stores).stop ≠ .error .labelTooLarge ∧
      ((recvScan gen fuel block tail head stores).stop = .found →
        (recvScan gen fuel block tail head stores).block.metaData.tailBytes =
          (recvScan gen fuel block tail head stores).tail) := by
  fun_induction recvScan gen fuel block tail head stores
  case case1 =>
    refine ⟨rfl, ?_, fun _ => here⟩
    dsimp only
    split_ifs <;> rintro ⟨⟩
  case case6 => exact ⟨rfl, by rintro ⟨⟩, fun _ => here⟩
  case case8 ih => exact ih rfl
  all_goals exact ⟨rfl, by rintro ⟨⟩, by rintro ⟨⟩⟩

private theorem mapToType_offset {size offset found : ℕ}
    (mapped : mapToType size offset = some found) :
    offset = found := by
  unfold mapToType at mapped
  split_ifs at mapped
  exact Option.some.inj mapped

private theorem readRecord_tooLarge {scan : Scan} {maxSize : ℕ} {buf : ByteMemory} {run : RecvRun}
    (returned : readRecord scan buf maxSize = .returned run) (code : run.data.code = .labelTooLarge) :
    run.block = scan.block ∧ maxSize < (scan.block.headerAt scan.tail).payloadSize := by
  unfold readRecord at returned
  split at returned
  · cases returned
    cases code
  · next offset mapped =>
    obtain rfl : getHeaderOffset scan.tail = offset := mapToType_offset mapped
    dsimp only at returned
    split_ifs at returned with invalid large
    · cases returned
      cases code
    · cases returned
      exact ⟨rfl, large⟩
    · cases returned
      cases code

/-- `recv` returns LabelTooLarge only for a record whose payload exceeds the buffer. -/
private theorem recv_tooLarge {fuel maxSize : ℕ} {buf : ByteMemory} {run : RecvRun}
    (returned : recv fuel block buf maxSize = .returned run) (code : run.data.code = .labelTooLarge) :
    maxSize < (block.headerAt run.block.metaData.tailBytes).payloadSize := by
  obtain ⟨bytes, noError, stands⟩ := recvScan_keeps block.metaData.generation fuel
    block.metaData.headBytes [] (rfl : block.metaData.tailBytes = block.metaData.tailBytes)
  revert returned
  fun_cases recv fuel block buf maxSize <;> intro returned
  case case8 failure stop =>
    cases returned
    obtain rfl : failure = .labelTooLarge := code
    exact absurd stop noError
  case case10 stop =>
    obtain ⟨left, large⟩ := readRecord_tooLarge returned code
    rw [left, stands stop]
    rwa [ShmBlock.headerAt, bytes] at large
  all_goals
    cases returned
  all_goals cases code

namespace Sys

variable {ι : Type*} [DecidableEq ι] {sys : Sys ι}

/-- Every call that returned SizeTooLarge had a reservation that exceeds the data block. -/
def Weighed (sys : Sys ι) : Prop :=
  ∀ c, (sys.calls c).pc = .done .sizeTooLarge → dataBlockSize < (sys.calls c).message.reserved

theorem Weighed.advance (weighed : sys.Weighed) (c : ι) (spurious : Bool) :
    (sys.advance c spurious).Weighed := by
  have moved := sys.advance_moved c spurious
  intro d ended
  by_cases mine : d = c
  · subst mine
    rw [moved.self] at ended ⊢
    rcases sendStep_tooLarge ended with before | large
    · exact weighed d before
    · exact large
  · rw [moved.other mine] at ended ⊢
    exact weighed d ended

/-- Whatever happens, SizeTooLarge keeps its meaning. -/
theorem Weighed.step (weighed : sys.Weighed) (action : Action ι) : (step sys action).Weighed := by
  cases action with
  | begin c message =>
    simp only [Shm.step, Sys.begin]
    split
    · intro d ended
      dsimp only at ended ⊢
      by_cases mine : d = c
      · subst mine
        rw [Function.update_self] at ended
        cases ended
      · rw [Function.update_of_ne mine] at ended ⊢
        exact weighed d ended
    · exact weighed
  | advance c spurious => exact weighed.advance c spurious
  | advanceMarked c spurious =>
    have first := weighed.advance c spurious
    simp only [Shm.step, Sys.advanceMarked]
    split
    · exact first
    · split_ifs
      · exact ((first.advance c false).advance c false).advance c false
      · exact (first.advance c false).advance c false
  | recv =>
    simp only [Shm.step, Sys.receive]
    split <;> exact weighed
  | flush => exact weighed
  | reinit id =>
    simp only [Shm.step, Sys.restart]
    split <;> exact weighed
  | mangle hdr => exact weighed

end Sys

end Shm

/-! ## A label that a handle sends -/

variable {myId : NodeId} {memory : ByteMemory} {handle : SendHandle} {request : SendRequest}
  {out : Enqueued}

/-- The sizes that `open_send` accepts. -/
theorem OpenSendData.sizes {data : OpenSendData} (opened : data.accepted = true) :
    0 < data.bufSize ∧ data.bufSize ≤ maxLabelSize := by
  simp only [accepted, Bool.and_eq_true, Bool.not_eq_true', decide_eq_false_iff_not, bne_iff_ne,
    ne_eq] at opened
  omega

/-- What `send_label` hands over for a handle: data of the declared size behind its header. -/
theorem sendLabel_some (handed : sendLabel myId memory (some handle) request = some out) :
    ∃ dataBuf, request.source handle.data = (some dataBuf, handle.data.bufSize) ∧
      out.uid = handle.uid ∧ out.label = handle.data.label ∧
      out.sendBuf = .filled
        (labelHeader myId handle.data.label handle.data.bufSize
          (request.offsets handle.data).2) memory
        dataBuf (dataBuf + (request.offsets handle.data).1) handle.data.bufSize := by
  unfold sendLabel at handed
  cases source : request.source handle.data with
  | mk buf size =>
    simp only [source] at handed
    split_ifs at handed with wrong
    obtain ⟨_, rfl⟩ : ¬ size ≤ 0 ∧ size = handle.data.bufSize := by
      simpa only [not_or, not_not] using wrong
    cases buf with
    | none => cases handed
    | some dataBuf =>
      cases handed
      exact ⟨dataBuf, rfl, rfl, rfl, rfl⟩

/-- With a buffer of the declared size the call gets to `enqueue_send`. -/
theorem sendLabel_of_source {dataBuf : ℕ} (positive : 0 < handle.data.bufSize)
    (source : request.source handle.data = (some dataBuf, handle.data.bufSize)) :
    sendLabel myId memory (some handle) request = some ⟨handle.uid, handle.data.label, .filled
      (labelHeader myId handle.data.label handle.data.bufSize (request.offsets handle.data).2) memory
      dataBuf (dataBuf + (request.offsets handle.data).1) handle.data.bufSize⟩ := by
  unfold sendLabel
  simp only [source]
  rw [if_neg (by omega)]

section Frame

variable (myId : NodeId) (label : Label) (memory : ByteMemory) (srcBuf src recvOffset : ℕ) {size : ℕ}

theorem labelHeader_fits (size : ℕ) : (labelHeader myId label size recvOffset).Fits where
  magic := show magicNum < 2 ^ 32 by decide
  version := show version < 2 ^ 16 by decide
  flags := show LabelFlag.data.value < 2 ^ 16 by decide
  labelSize := Nat.mod_lt _ (by decide)
  recvOffset := Nat.mod_lt _ (by decide)

/-- The receiver reads the header that was attached. -/
theorem ofBytes_filled (size : ℕ) :
    LabelHeader.ofBytes
        (SendBuf.filled (labelHeader myId label size recvOffset) memory srcBuf src size).data =
      labelHeader myId label size recvOffset :=
  LabelHeader.ofBytes_bytes (labelHeader_fits myId label recvOffset size) _

theorem labelSize_filled (small : size ≤ maxLabelSize) :
    (labelHeader myId label size recvOffset).labelSize = size :=
  wrap32_of_lt (small.trans_lt (by decide))

/-- Neither receive path refuses a label of an admissible size. -/
theorem filled_passes (small : size ≤ maxLabelSize) : ¬ RefusedByBoth
    (SendBuf.filled (labelHeader myId label size recvOffset) memory srcBuf src size).data := by
  simp only [RefusedByBoth, ofBytes_filled, labelSize_filled myId label recvOffset small,
    SendBuf.sized,
    not_or]
  refine ⟨?_, not_not.mpr rfl, not_not.mpr rfl, Nat.not_lt.mpr small⟩
  omega

theorem filled_holdsLabel (positive : 0 < size) (small : size ≤ maxLabelSize) : HoldsLabel
    (SendBuf.filled (labelHeader myId label size recvOffset) memory srcBuf src size).data := by
  simp only [HoldsLabel, ofBytes_filled, labelSize_filled myId label recvOffset small, SendBuf.sized]
  refine ⟨?_, positive, ?_⟩
  · simp only [labelHeader]
    decide
  · rw [Nat.add_comm]
    exact le_rfl

end Frame

/-! ## The checks of one label -/

/-- The limits on the way of a label agree: the assertion of `build_send_job` holds; no call of
`send` with these bytes returns SizeTooLarge, in whatever run; `recv` never gives up on a record of
this size; and neither receive worker refuses the size in the header. -/
structure SendBuf.LimitsAgree (frame : SendBuf) : Prop where
  asserted : frame.totalSize ≤ maxLabelSize
  sent : ∀ (block : ShmBlock) (buf : ByteMemory) (semaphore : ℕ) (sys : Shm.Sys ℕ),
    Reaches Shm.step (fun _ _ => True) (.initial block buf semaphore) sys → ∀ c,
      (sys.calls c).message.buf = frame.data → (sys.calls c).pc ≠ .done .sizeTooLarge
  received : ∀ (fuel : ℕ) (block : ShmBlock) (buf : ByteMemory) (run : RecvRun),
    Shm.recv fuel block buf recvBufSize = .returned run → run.data.code = .labelTooLarge →
      (block.headerAt run.block.metaData.tailBytes).payloadSize ≠ frame.totalSize
  recvShm : ∀ buf : ByteMemory, buf.load 0 frame.totalSize = frame.data →
    handleRecord frame.totalSize buf ≠ .abandoned
  recvSocket : ∀ (worker : SocketRecvWorker) (results : List OsRecv),
    worker.handleHeader (LabelHeader.ofBytes frame.data) results =
      worker.recvPayload (LabelHeader.ofBytes frame.data) results

/-- The bytes of a label that a handle sends are a message in range. -/
theorem sendLabel_inRange (opened : handle.data.accepted = true)
    (handed : sendLabel myId memory (some handle) request = some out) {message : Shm.Message}
    (carries : message.buf = out.sendBuf.data) : message.InRange := by
  obtain ⟨dataBuf, _, _, _, frame⟩ := sendLabel_some handed
  obtain ⟨positive, small⟩ := OpenSendData.sizes opened
  have length : message.buf.length = handle.data.bufSize + sizeofLabelHeader := by
    rw [carries, frame, SendBuf.sized]
    rfl
  rw [Shm.Message.InRange, length, recvBufSize]
  omega

/-- Schedules of harmless steps in which every message is a label that some handle sends. -/
def Shm.Sys.CarriesLabels {ι : Type*} [DecidableEq ι] (sys : Shm.Sys ι) : Shm.Action ι → Prop
  | .begin _ message => ∃ myId memory handle request out, handle.data.accepted = true ∧
      sendLabel myId memory (some handle) request = some out ∧ message.buf = out.sendBuf.data
  | action => sys.Harmless action

/-- In such a schedule the worker never meets a record that exceeds its buffer. -/
theorem Shm.Sys.labels_fit {ι : Type*} [DecidableEq ι] {id : NodeId} {opened : OpenedBlock}
    {block : ShmBlock} (success : createOrOpen id opened = (true, block)) {buf : ByteMemory}
    {semaphore : ℕ} {sys : Shm.Sys ι}
    (run : Reaches Shm.step Shm.Sys.CarriesLabels (.initial block buf semaphore) sys)
    (bound : sys.reservedBytes < 2 ^ 64) (safe : sys.RecvSafe) :
    ∃ result, recv (recvFuel sys.block) sys.block sys.recvBuf recvBufSize = .returned result ∧
      result.data.code ≠ .labelTooLarge := by
  have inv : sys.Inv := invariant_while_bounded Shm.Sys.Inv
    (initial_inv (createOrOpen_fresh success) buf semaphore)
    (fun state action sound allowed small => by
      refine sound.step_harmless ?_ small
      cases action with
      | begin c message =>
        obtain ⟨_, _, _, _, _, opened, handed, carries⟩ := allowed
        exact sendLabel_inRange opened handed carries
      | _ => exact allowed) run bound
  obtain ⟨result, returned, view⟩ := inv.recv_view bound safe
  refine ⟨result, returned, ?_⟩
  generalize sys.consumedAt = stop at view
  cases view <;> exact nofun

/-- All limits but the assertion let every label through that a handle can send. -/
private theorem sendLabel_limits (opened : handle.data.accepted = true)
    (handed : sendLabel myId memory (some handle) request = some out)
    (asserted : out.sendBuf.totalSize ≤ maxLabelSize) : out.sendBuf.LimitsAgree := by
  obtain ⟨dataBuf, _, _, _, frame⟩ := sendLabel_some handed
  obtain ⟨positive, small⟩ := OpenSendData.sizes opened
  refine ⟨asserted, ?_, ?_, ?_, ?_⟩
  · intro block buf semaphore sys run c carries ended
    have weighed : sys.Weighed := by
      refine run.invariant Sys.Weighed ?_ fun _ action holds _ => holds.step action
      intro c ended
      cases ended
    have large := weighed c ended
    have bounds := (sendLabel_inRange opened handed carries).bounds
    rw [dataBlockSize_eq] at large
    omega
  · intro fuel block buf run returned code same
    have large := recv_tooLarge returned code
    rw [same, frame] at large
    simp only [SendBuf.totalSize, SendBuf.filled, recvBufSize] at large
    omega
  · intro buf loaded abandoned
    have length : out.sendBuf.totalSize = out.sendBuf.data.length := (SendBuf.sized _).symm
    rw [length] at loaded abandoned
    rw [frame] at loaded abandoned
    have handled := handleRecord_label loaded (filled_passes _ _ _ _ _ _ small)
    rw [abandoned] at handled
    cases handled
  · intro worker results
    rw [frame]
    have holds := filled_holdsLabel myId handle.data.label memory dataBuf
      (dataBuf + (request.offsets handle.data).1) (request.offsets handle.data).2 positive small
    exact SocketRecvWorker.handleHeader_data (holds.not_bad (filled_passes _ _ _ _ _ _ small))
      holds.1 results

private theorem totalSize_of_handed
    (handed : sendLabel myId memory (some handle) request = some out) :
    out.sendBuf.totalSize = handle.data.bufSize + sizeofLabelHeader := by
  obtain ⟨dataBuf, _, _, _, frame⟩ := sendLabel_some handed
  rw [frame]
  rfl

/-- For a handle that `open_send` accepts and a label that reaches `enqueue_send`, the limits agree
exactly if the declared size leaves room for the header of the label. -/
theorem limits_agree_iff (opened : handle.data.accepted = true)
    (handed : sendLabel myId memory (some handle) request = some out) :
    out.sendBuf.LimitsAgree ↔ handle.data.bufSize + sizeofLabelHeader ≤ maxLabelSize := by
  rw [← totalSize_of_handed handed]
  exact ⟨fun agree => agree.asserted, sendLabel_limits opened handed⟩

/-- A handle for a label of the given size. -/
def sizedHandle (size : ℕ) : SendHandle := ⟨1, ⟨7, some 100, size, false, none, none, 0, 0⟩⟩

/-- The label of such a handle, sent from its own buffer. -/
def sizedLabel (size : ℕ) : Enqueued :=
  ⟨1, 7, .filled (labelHeader 3 7 size 0) (fun _ => 0) 100 100 size⟩

theorem sendLabel_sized {size : ℕ} (positive : 0 < size) :
    sendLabel 3 (fun _ => 0) (some (sizedHandle size)) ⟨none, 0, 0, 0⟩ = some (sizedLabel size) :=
  sendLabel_of_source positive rfl

theorem limits_agree_iff_four : (sizedLabel 4).sendBuf.LimitsAgree :=
  (limits_agree_iff (show (sizedHandle 4).data.accepted = true by decide)
    (sendLabel_sized (by decide))).mpr (by decide)

/-- `open_send` accepts the largest size, and the smallest that leaves no room for the header; for
both the label reaches `enqueue_send` and the assertion fails. -/
theorem limits_disagree :
    ((sizedHandle maxLabelSize).data.accepted = true ∧
      sendLabel 3 (fun _ => 0) (some (sizedHandle maxLabelSize)) ⟨none, 0, 0, 0⟩ =
        some (sizedLabel maxLabelSize) ∧
      ¬ (sizedLabel maxLabelSize).sendBuf.LimitsAgree) ∧
    (sizedHandle (maxLabelSize - 27)).data.accepted = true ∧
      sendLabel 3 (fun _ => 0) (some (sizedHandle (maxLabelSize - 27))) ⟨none, 0, 0, 0⟩ =
        some (sizedLabel (maxLabelSize - 27)) ∧
      ¬ (sizedLabel (maxLabelSize - 27)).sendBuf.LimitsAgree := by
  have fails {size : ℕ} (large : ¬ size + sizeofLabelHeader ≤ maxLabelSize) :
      ¬ (sizedLabel size).sendBuf.LimitsAgree := fun agree => large agree.asserted
  exact ⟨⟨by decide, sendLabel_sized (by decide), fails (by decide)⟩,
    by decide, sendLabel_sized (by decide), fails (by decide)⟩

end Eroil
