import Eroil.Proofs.Send.Limits

/-! # The two offsets of a label

The send offset is added to the address of the source buffer although the size of the data is that
of the whole buffer; the receive offset travels in a field of 32 bits. A SLOT handle has no offsets.
-/

namespace Eroil

open Lib Shm

variable {myId : NodeId} {memory : ByteMemory} {handle : SendHandle} {request : SendRequest}
  {out : Enqueued}

/-- Where the receiver is to store the label, according to the application. -/
def SendRequest.wantedOffset (request : SendRequest) (data : OpenSendData) : ℕ :=
  if data.isOffset then request.recvOffset else 0

/-- Both receive workers call `distribute_recvd_label` with the given offset for the label. -/
structure SendBuf.ArrivesAt (frame : SendBuf) (offset : ℕ) : Prop where
  recvShm : ∀ buf : ByteMemory, buf.load 0 frame.totalSize = frame.data →
    ∃ dispatch, handleRecord frame.totalSize buf = .dispatched dispatch ∧
      dispatch.recvOffset = offset
  recvSocket : ∀ (worker : SocketRecvWorker) (results : List OsRecv) (later : List UInt8),
    worker.Ready → Carries results (frame.data ++ later) →
      ∃ dispatch : Dispatch, dispatch.recvOffset = offset ∧
        worker.dispatched ++ [dispatch] <+: (worker.run results).worker.dispatched

/-- A call of `send_label` respects the source buffer and the receive offset: what is enqueued is
determined by the bytes of the buffer, which has the declared size, and arrives with the offset. -/
structure SendRequest.Respected (myId : NodeId) (handle : SendHandle) (request : SendRequest) :
    Prop where
  inside : ∀ dataBuf, (request.source handle.data).1 = some dataBuf →
    ∀ memory other : ByteMemory,
      (∀ query, dataBuf ≤ query → query < dataBuf + handle.data.bufSize →
        memory query = other query) →
      sendLabel myId memory (some handle) request = sendLabel myId other (some handle) request
  arrives : ∀ (memory : ByteMemory) (out : Enqueued),
    sendLabel myId memory (some handle) request = some out →
      out.sendBuf.ArrivesAt (request.wantedOffset handle.data)

/-- A handle from `open_send` has a buffer, so every call has a source. -/
theorem OpenSendData.source_isSome {data : OpenSendData} (opened : data.accepted = true)
    (request : SendRequest) : ∃ dataBuf, (request.source data).1 = some dataBuf := by
  simp only [accepted, Bool.and_eq_true] at opened
  unfold SendRequest.source
  cases request.buf with
  | none => exact Option.isSome_iff_exists.mp opened.1.1.2
  | some buf => exact ⟨buf, rfl⟩

/-- The call is refused exactly for data that does not have the declared size. -/
private theorem sendLabel_none_iff (opened : handle.data.accepted = true) :
    sendLabel myId memory (some handle) request = none ↔
      (request.source handle.data).2 ≠ handle.data.bufSize := by
  obtain ⟨dataBuf, present⟩ := OpenSendData.source_isSome opened request
  obtain ⟨positive, -⟩ := OpenSendData.sizes opened
  by_cases same : (request.source handle.data).2 = handle.data.bufSize
  · have source : request.source handle.data = (some dataBuf, handle.data.bufSize) :=
      Prod.ext present same
    rw [sendLabel_of_source positive source]
    simp [same]
  · unfold sendLabel
    simp [same]

section Frame

variable (label : Label) (srcBuf src recvOffset : ℕ) {size : ℕ}

/-- The label is handed on with the receive offset that its header holds. -/
private theorem filled_arrives (positive : 0 < size) (small : size ≤ maxLabelSize) :
    (SendBuf.filled (labelHeader myId label size recvOffset) memory srcBuf src size).ArrivesAt
      (wrap32 recvOffset) := by
  have holds := filled_holdsLabel myId label memory srcBuf src recvOffset positive small
  have passes := filled_passes myId label memory srcBuf src recvOffset small
  have header := ofBytes_filled myId label memory srcBuf src recvOffset size
  generalize SendBuf.filled (labelHeader myId label size recvOffset) memory srcBuf src size = frame
    at holds passes header
  refine ⟨?_, ?_⟩
  · intro buf loaded
    have length : frame.totalSize = frame.data.length := frame.sized.symm
    rw [length] at loaded ⊢
    have handled := handleRecord_label loaded passes
    cases outcome : handleRecord frame.data.length buf with
    | dispatched dispatch =>
      rw [outcome] at handled
      refine ⟨dispatch, rfl, ?_⟩
      rw [Option.some.inj handled]
      exact congrArg LabelHeader.recvOffset header
    | skipped =>
      rw [outcome] at handled
      cases handled
    | abandoned =>
      rw [outcome] at handled
      cases handled
  · intro worker results later ready carries
    have complete := holds.2.2
    have whole : sizeofLabelHeader ≤ frame.data.length := by omega
    have same := LabelHeader.ofBytes_append whole later
    have starts : StartsWithLabel (frame.data ++ later) := by
      rw [StartsWithLabel, same, List.length_append]
      exact ⟨by omega, holds.not_bad passes, holds.1, by omega⟩
    have first := readStream_label starts
    have agrees := SocketRecvWorker.run_agrees ready carries [] (fun _ => rfl)
    rw [List.append_nil] at agrees
    refine ⟨labelAt (frame.data ++ later), ?_, ?_⟩
    · calc
        (labelAt (frame.data ++ later)).recvOffset
          = (LabelHeader.ofBytes (frame.data ++ later)).recvOffset := rfl
        _ = wrap32 recvOffset := by rw [same, header]; rfl
    · obtain ⟨rest, split⟩ := List.head?_eq_some_iff.mp first
      rw [agrees.dispatched, split]
      exact ⟨rest, by simp⟩

end Frame

/-- A frame arrives with one offset only. -/
theorem SendBuf.ArrivesAt.unique {frame : SendBuf} {first second : ℕ}
    (arrives : frame.ArrivesAt first) (again : frame.ArrivesAt second) : first = second := by
  have loaded : ByteMemory.load (ByteMemory.store (fun _ => 0) 0 frame.data) 0 frame.totalSize =
      frame.data := by
    rw [show frame.totalSize = frame.data.length from frame.sized.symm]
    exact ByteMemory.load_store_same _ _ _
  obtain ⟨dispatch, handled, rfl⟩ := arrives.recvShm _ loaded
  obtain ⟨other, handledAgain, rfl⟩ := again.recvShm _ loaded
  rw [handled] at handledAgain
  cases handledAgain
  rfl

/-- Data that starts behind the first byte of the buffer reaches beyond its last one. -/
private theorem load_beyond {dataBuf offset size : ℕ} (behind : 0 < offset) (positive : 0 < size) :
    ByteMemory.load (fun _ => 0) (dataBuf + offset) size ≠
      ByteMemory.load (fun query => if query < dataBuf + size then 0 else 1)
        (dataBuf + offset) size := by
  intro same
  have last := congrArg (·[size - 1]?) same
  simp only [ByteMemory.load] at last
  rw [List.getElem?_map, List.getElem?_map, List.getElem?_range (by omega)] at last
  simp only [Option.map_some, Option.some.injEq] at last
  rw [if_neg (by omega)] at last
  exact absurd last (by decide)

/-- The bytes of a label come from its source buffer alone exactly if the send offset is zero. -/
theorem sendLabel_inside_iff (opened : handle.data.accepted = true)
    (sized : (request.source handle.data).2 = handle.data.bufSize) :
    (∀ dataBuf, (request.source handle.data).1 = some dataBuf → ∀ memory other : ByteMemory,
      (∀ query, dataBuf ≤ query → query < dataBuf + handle.data.bufSize →
        memory query = other query) →
      sendLabel myId memory (some handle) request = sendLabel myId other (some handle) request) ↔
    (request.offsets handle.data).1 = 0 := by
  obtain ⟨dataBuf, present⟩ := OpenSendData.source_isSome opened request
  obtain ⟨positive, -⟩ := OpenSendData.sizes opened
  have source : request.source handle.data = (some dataBuf, handle.data.bufSize) :=
    Prod.ext present sized
  have handed (memory : ByteMemory) :
      sendLabel myId memory (some handle) request = some ⟨handle.uid, handle.data.label, .filled
        (labelHeader myId handle.data.label handle.data.bufSize (request.offsets handle.data).2)
        memory dataBuf (dataBuf + (request.offsets handle.data).1) handle.data.bufSize⟩ :=
    sendLabel_of_source positive source
  constructor
  · intro inside
    by_contra behind
    have same := inside dataBuf present (fun _ => 0)
      (fun query => if query < dataBuf + handle.data.bufSize then 0 else 1)
      (fun query _ below => (if_pos below).symm)
    rw [handed, handed] at same
    have data := congrArg (fun enqueued => enqueued.sendBuf.data) (Option.some.inj same)
    exact load_beyond (Nat.pos_of_ne_zero behind) positive (List.append_cancel_left data)
  · intro front other again memory another agree
    rw [present] at again
    obtain rfl := Option.some.inj again
    have loads : memory.load dataBuf handle.data.bufSize =
        another.load dataBuf handle.data.bufSize := ByteMemory.load_congr agree
    rw [handed, handed]
    simp only [front, Nat.add_zero, SendBuf.filled, loads]

/-- A label arrives with the offset that the application gave exactly if it has 32 bits. -/
theorem sendLabel_arrives_iff (opened : handle.data.accepted = true)
    (sized : (request.source handle.data).2 = handle.data.bufSize) :
    (∀ (memory : ByteMemory) (out : Enqueued),
      sendLabel myId memory (some handle) request = some out →
        out.sendBuf.ArrivesAt (request.wantedOffset handle.data)) ↔
    request.wantedOffset handle.data < 2 ^ 32 := by
  obtain ⟨dataBuf, present⟩ := OpenSendData.source_isSome opened request
  obtain ⟨positive, small⟩ := OpenSendData.sizes opened
  have source : request.source handle.data = (some dataBuf, handle.data.bufSize) :=
    Prod.ext present sized
  have wanted : (request.offsets handle.data).2 = request.wantedOffset handle.data := by
    unfold SendRequest.offsets SendRequest.wantedOffset
    cases handle.data.isOffset <;> rfl
  have arrives (memory : ByteMemory) : (SendBuf.filled
      (labelHeader myId handle.data.label handle.data.bufSize (request.offsets handle.data).2)
      memory dataBuf (dataBuf + (request.offsets handle.data).1)
      handle.data.bufSize).ArrivesAt (wrap32 (request.offsets handle.data).2) :=
    filled_arrives _ _ _ _ positive small
  constructor
  · intro kept
    have here := kept (fun _ => 0) _ (sendLabel_of_source positive source)
    rw [here.unique (arrives _), wanted]
    exact Nat.mod_lt _ (by decide)
  · intro fits memory out handed
    rw [sendLabel_of_source positive source] at handed
    obtain rfl := Option.some.inj handed
    have kept : wrap32 (request.offsets handle.data).2 = request.wantedOffset handle.data := by
      rw [wanted, wrap32_of_lt fits]
    exact kept ▸ arrives memory

/-- For a handle that `open_send` accepts, a call of `send_label` respects the source buffer and the
receive offset exactly if it is refused, or the handle is a SLOT handle, or nothing is added to the
address of the buffer and the receive offset has 32 bits. -/
theorem sendLabel_respected_iff (myId : NodeId) (handle : SendHandle) (request : SendRequest)
    (opened : handle.data.accepted = true) :
    request.Respected myId handle ↔
      (request.source handle.data).2 ≠ handle.data.bufSize ∨ handle.data.isOffset = false ∨
        (request.sendOffset = 0 ∧ request.recvOffset < 2 ^ 32) := by
  by_cases sized : (request.source handle.data).2 = handle.data.bufSize
  · have both : request.Respected myId handle ↔
        (request.offsets handle.data).1 = 0 ∧ request.wantedOffset handle.data < 2 ^ 32 :=
      ⟨fun respected => ⟨(sendLabel_inside_iff opened sized).mp respected.inside,
          (sendLabel_arrives_iff opened sized).mp respected.arrives⟩,
        fun small => ⟨(sendLabel_inside_iff opened sized).mpr small.1,
          (sendLabel_arrives_iff opened sized).mpr small.2⟩⟩
    rw [both]
    unfold SendRequest.offsets SendRequest.wantedOffset
    cases handle.data.isOffset <;> simp [sized]
  · have refused (memory : ByteMemory) :
        sendLabel myId memory (some handle) request = none :=
      (sendLabel_none_iff opened).mpr sized
    refine ⟨fun _ => .inl sized, fun _ => ⟨?_, ?_⟩⟩
    · intro _ _ memory other _
      rw [refused, refused]
    · intro memory out handed
      rw [refused] at handed
      cases handed

/-- A handle with offsets for a label of four bytes. -/
def offsetHandle : SendHandle := ⟨1, ⟨7, some 100, 4, true, none, none, 0, 0⟩⟩

theorem sendLabel_respected_iff_eight : SendRequest.Respected 3 offsetHandle ⟨none, 0, 0, 8⟩ :=
  (sendLabel_respected_iff 3 offsetHandle ⟨none, 0, 0, 8⟩ (by decide)).mpr
    (.inr (.inr ⟨rfl, by decide⟩))

/-- With a send offset the call reads behind the source buffer, and a receive offset of 33 bits does
not arrive. -/
theorem sendLabel_disrespects :
    ¬ SendRequest.Respected 3 offsetHandle ⟨none, 0, 1, 0⟩ ∧
      ¬ SendRequest.Respected 3 offsetHandle ⟨none, 0, 0, 2 ^ 32⟩ := by
  have opened : offsetHandle.data.accepted = true := by decide
  refine ⟨?_, ?_⟩
  · intro respected
    exact absurd ((sendLabel_inside_iff opened rfl).mp respected.inside) (by decide)
  · intro respected
    exact absurd ((sendLabel_arrives_iff opened rfl).mp respected.arrives) (by decide)

end Eroil
