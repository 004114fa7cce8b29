import Eroil.Proofs.Send.Limits

/-! # Frames

What a send buffer holds is a frame: the header that `send_label` attaches, and the data. A frame
says the same to both receive paths, and frames that stand one behind the other are told apart by
the sizes in their headers.
-/

namespace Eroil

open Lib

namespace Dispatch

/-- The bytes of a send buffer for this label. -/
def frame (dispatch : Dispatch) : List UInt8 :=
  (labelHeader dispatch.sourceId dispatch.label dispatch.buf.length dispatch.recvOffset).bytes ++
    dispatch.buf

/-- What `open_send` and the fields of the header let through. -/
structure Sendable (dispatch : Dispatch) : Prop where
  positive : 0 < dispatch.buf.length
  small : dispatch.buf.length ≤ maxLabelSize
  offset : dispatch.recvOffset < 2 ^ 32

variable {dispatch : Dispatch}

theorem length_frame (dispatch : Dispatch) :
    dispatch.frame.length = sizeofLabelHeader + dispatch.buf.length := by
  rw [frame, List.length_append, LabelHeader.length_bytes]

/-- The header of a frame is read back, whatever follows. -/
theorem ofBytes_frame (dispatch : Dispatch) (rest : List UInt8) :
    LabelHeader.ofBytes (dispatch.frame ++ rest) =
      labelHeader dispatch.sourceId dispatch.label dispatch.buf.length dispatch.recvOffset := by
  rw [frame, List.append_assoc]
  exact LabelHeader.ofBytes_bytes (labelHeader_fits ..) _

theorem hasFlag_labelHeader (myId : NodeId) (label : Label) (size recvOffset : ℕ) :
    hasFlag (labelHeader myId label size recvOffset).flags .data = true := by
  show hasFlag LabelFlag.data.value .data = true
  decide

namespace Sendable

theorem labelSize (sendable : Sendable dispatch) :
    (labelHeader dispatch.sourceId dispatch.label dispatch.buf.length
      dispatch.recvOffset).labelSize = dispatch.buf.length :=
  labelSize_filled _ _ _ sendable.small

/-- The label at the start of a frame is the one that was sent. -/
theorem labelAt_frame (sendable : Sendable dispatch) (rest : List UInt8) :
    labelAt (dispatch.frame ++ rest) = dispatch := by
  have data : ((dispatch.frame ++ rest).drop sizeofLabelHeader).take dispatch.buf.length =
      dispatch.buf := by
    rw [frame, List.append_assoc, ← LabelHeader.length_bytes (labelHeader dispatch.sourceId
      dispatch.label dispatch.buf.length dispatch.recvOffset), List.drop_left, List.take_left]
  have offset : wrap32 dispatch.recvOffset = dispatch.recvOffset := wrap32_of_lt sendable.offset
  rw [labelAt, ofBytes_frame, sendable.labelSize, data]
  simp only [LabelHeader.dispatch, labelHeader, offset]

theorem passes (sendable : Sendable dispatch) : ¬ RefusedByBoth dispatch.frame := by
  have header := dispatch.ofBytes_frame []
  rw [List.append_nil] at header
  simp only [RefusedByBoth, header, sendable.labelSize, length_frame, not_or]
  exact ⟨by omega, not_not.mpr rfl, not_not.mpr rfl, Nat.not_lt.mpr sendable.small⟩

theorem holdsLabel (sendable : Sendable dispatch) : HoldsLabel dispatch.frame := by
  have header := dispatch.ofBytes_frame []
  rw [List.append_nil] at header
  refine ⟨?_, ?_, ?_⟩
  · rw [header]
    exact hasFlag_labelHeader ..
  · rw [header, sendable.labelSize]
    exact sendable.positive
  · rw [header, sendable.labelSize, length_frame]

theorem inRange (sendable : Sendable dispatch) {message : Shm.Message}
    (carries : message.buf = dispatch.frame) : message.InRange := by
  have small := sendable.small
  rw [Shm.Message.InRange, carries, length_frame, Shm.recvBufSize, sizeofLabelHeader]
  omega

/-- The first frame of a stream is dispatched, and the stream goes on behind it. -/
theorem readStream_frame (sendable : Sendable dispatch) (rest : List UInt8) :
    readStream (dispatch.frame ++ rest) = (readStream rest).after dispatch := by
  have header := dispatch.ofBytes_frame rest
  have good : ¬ (LabelHeader.ofBytes (dispatch.frame ++ rest)).Bad := by
    have same := dispatch.ofBytes_frame []
    rw [header, ← same, List.append_nil]
    exact sendable.holdsLabel.not_bad sendable.passes
  have length : (dispatch.frame ++ rest).length =
      sizeofLabelHeader + dispatch.buf.length + rest.length := by
    rw [List.length_append, length_frame]
  rw [readStream, if_neg (by omega), if_neg good,
    if_neg (not_not.mpr (by rw [header]; exact hasFlag_labelHeader ..)),
      if_neg (by rw [header, sendable.labelSize]; omega),
    sendable.labelAt_frame, header, sendable.labelSize, ← length_frame, List.drop_left]

end Sendable

/-- A stream of frames carries their labels, in order, and nothing in it is refused. -/
theorem readStream_frames (dispatches : List Dispatch)
    (sendable : ∀ dispatch ∈ dispatches, Sendable dispatch) :
    readStream (dispatches.flatMap frame) = ⟨dispatches, false⟩ := by
  induction dispatches with
  | nil => rw [readStream]; rfl
  | cons dispatch rest ih =>
    rw [List.flatMap_cons, (sendable dispatch List.mem_cons_self).readStream_frame,
      ih fun later member => sendable later (List.mem_cons_of_mem _ member)]
    rfl

end Dispatch

/-- What `send_label` hands over for an open handle is the frame of a label: its own id, the label
of the handle, the data at the source address and the receive offset in 32 bits. -/
theorem sendLabel_frame {myId : NodeId} {memory : ByteMemory} {handle : SendHandle}
    {request : SendRequest} {out : Enqueued} (opened : handle.data.accepted = true)
    (handed : sendLabel myId memory (some handle) request = some out) :
    ∃ dispatch : Dispatch, out.sendBuf.data = dispatch.frame ∧ dispatch.Sendable ∧
      dispatch.sourceId = myId ∧ dispatch.label = handle.data.label ∧
      dispatch.buf.length = handle.data.bufSize := by
  obtain ⟨dataBuf, _, _, _, filled⟩ := sendLabel_some handed
  obtain ⟨positive, small⟩ := OpenSendData.sizes opened
  let dispatch : Dispatch :=
    ⟨myId, handle.data.label, memory.load (dataBuf + (request.offsets handle.data).1)
      handle.data.bufSize, wrap32 (request.offsets handle.data).2⟩
  have length : dispatch.buf.length = handle.data.bufSize := ByteMemory.length_load ..
  have wrapped : wrap32 (wrap32 (request.offsets handle.data).2) =
      wrap32 (request.offsets handle.data).2 := Nat.mod_mod _ _
  refine ⟨dispatch, ?_, ⟨length ▸ positive, length ▸ small, Nat.mod_lt _ (Nat.two_pow_pos 32)⟩, rfl,
    rfl, length⟩
  rw [filled, Dispatch.frame, length]
  simp only [SendBuf.filled, labelHeader, wrapped, dispatch]

end Eroil
