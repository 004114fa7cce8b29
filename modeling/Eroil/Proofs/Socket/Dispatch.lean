import Eroil.Model.Socket.RecvWorker

/-! # What the socket receive worker makes of its stream

`readStream` says what a byte string means: which labels it carries, and whether a header in it is
refused. The worker dispatches exactly these labels however the operating system cuts the bytes
into results of `::recv` and however often it is interrupted. The invariant of its loop is that the
results still to come carry the part of the stream that has not been read.
-/

namespace Eroil

open Lib

/-! ## Results of a blocking socket -/

/-- What `::recv` returns on a blocking socket with an open connection. -/
def OsRecv.quiet : OsRecv → Bool
  | .received bytes => bytes ≠ []
  | .error errno => errno = .eintr

def OsRecv.bytes : OsRecv → List UInt8
  | .received bytes => bytes
  | .error _ => []

/-- The results deliver the stream, in pieces and with interruptions. -/
def Carries (results : List OsRecv) (stream : List UInt8) : Prop :=
  (∀ result ∈ results, result.quiet) ∧ results.flatMap OsRecv.bytes = stream

instance (results : List OsRecv) (stream : List UInt8) : Decidable (Carries results stream) :=
  inferInstanceAs (Decidable (_ ∧ _))

theorem Carries.cons {result : OsRecv} {results : List OsRecv} {stream : List UInt8}
    (carries : Carries (result :: results) stream) :
    ∃ rest, result.quiet ∧ Carries results rest ∧ stream = result.bytes ++ rest := by
  obtain ⟨quiet, rfl⟩ := carries
  refine ⟨results.flatMap OsRecv.bytes, quiet result List.mem_cons_self, ⟨?_, rfl⟩,
    List.flatMap_cons⟩
  intro other member
  exact quiet other (List.mem_cons_of_mem _ member)

theorem Carries.received {results : List OsRecv} {bytes stream : List UInt8}
    (carries : Carries results stream) (some_left : bytes ≠ []) :
    Carries (.received bytes :: results) (bytes ++ stream) := by
  obtain ⟨quiet, rfl⟩ := carries
  refine ⟨?_, List.flatMap_cons⟩
  intro result member
  obtain rfl | member := List.mem_cons.mp member
  · simpa [OsRecv.quiet] using some_left
  · exact quiet result member

namespace TcpClient

/-- As long as the bytes suffice, the loop returns the first of them and leaves the others. -/
theorem recvAllLoop_enough {missing : ℕ} {results : List OsRecv} {stream : List UInt8}
    (carries : Carries results stream) (enough : missing ≤ stream.length) (more : List OsRecv) :
    ∃ rest, Carries rest (stream.drop missing) ∧
      recvAllLoop missing (results ++ more) =
        some ⟨.none, true, stream.take missing, rest ++ more⟩ := by
  induction results generalizing missing stream with
  | nil =>
    obtain ⟨-, rfl⟩ := carries
    obtain rfl : missing = 0 := by simpa using enough
    exact ⟨[], ⟨by simp, rfl⟩, by simp [recvAllLoop]⟩
  | cons result results ih =>
    cases missing with
    | zero => exact ⟨result :: results, by simpa using carries, by simp [recvAllLoop]⟩
    | succ missing =>
      obtain ⟨left, quiet, later, rfl⟩ := carries.cons
      cases result with
      | received bytes =>
        have nonempty : bytes ≠ [] := by simpa [OsRecv.quiet] using quiet
        simp only [OsRecv.bytes, List.length_append] at enough ⊢
        rw [List.cons_append, recvAllLoop, if_neg nonempty]
        by_cases longer : missing + 1 < bytes.length
        · have cut : bytes.drop (missing + 1) ≠ [] := by
            simpa [List.drop_eq_nil_iff] using longer
          refine ⟨.received (bytes.drop (missing + 1)) :: results, ?_, ?_⟩
          · rw [List.drop_append_of_le_length (Nat.le_of_lt longer)]
            exact later.received cut
          · rw [if_pos longer, List.take_append_of_le_length (Nat.le_of_lt longer)]
            rfl
        · obtain ⟨rest, restCarries, ran⟩ :=
            ih later (show missing + 1 - bytes.length ≤ left.length by omega)
          refine ⟨rest, ?_, ?_⟩
          · rwa [List.drop_append, List.drop_of_length_le (by omega), List.nil_append]
          · rw [if_neg longer, ran, List.take_append, List.take_of_length_le (l := bytes) (by omega)]
            rfl
      | error errno =>
        have interrupted : errno = .eintr := by simpa [OsRecv.quiet] using quiet
        simp only [OsRecv.bytes, List.nil_append] at enough ⊢
        rw [List.cons_append, recvAllLoop, if_pos interrupted]
        exact ih later enough

private theorem recvAllLoop_short {missing : ℕ} {results : List OsRecv} {stream : List UInt8}
    (carries : Carries results stream) (short : stream.length < missing) :
    recvAllLoop missing results = none := by
  induction results generalizing missing stream with
  | nil =>
    cases missing with
    | zero => cases short
    | succ missing => rfl
  | cons result results ih =>
    obtain ⟨left, quiet, later, rfl⟩ := carries.cons
    cases missing with
    | zero => cases short
    | succ missing =>
      cases result with
      | received bytes =>
        have nonempty : bytes ≠ [] := by simpa [OsRecv.quiet] using quiet
        simp only [OsRecv.bytes, List.length_append] at short
        rw [recvAllLoop, if_neg nonempty, if_neg (by omega), ih later (by omega)]
        rfl
      | error errno =>
        have interrupted : errno = .eintr := by simpa [OsRecv.quiet] using quiet
        rw [recvAllLoop, if_pos interrupted]
        exact ih later (by simpa [OsRecv.bytes] using short)

theorem recvAll_eq_loop {size : ℕ} (positive : 0 < size) (small : size ≤ 2 ^ 31 - 1)
    (results : List OsRecv) : recvAll true size results = recvAllLoop size results := by
  rw [recvAll, if_neg (by decide), if_neg (Nat.ne_of_gt positive), if_neg (Nat.not_lt.mpr small)]

end TcpClient

/-! ## The meaning of a stream -/

/-- A header is read from its own bytes. -/
theorem LabelHeader.ofBytes_append {first : List UInt8} (whole : sizeofLabelHeader ≤ first.length)
    (second : List UInt8) : LabelHeader.ofBytes (first ++ second) = LabelHeader.ofBytes first := by
  rw [sizeofLabelHeader] at whole
  simp only [LabelHeader.ofBytes]
  rw [field_append_left (by omega), field_append_left (by omega), field_append_left (by omega),
    field_append_left (by omega), field_append_left (by omega), field_append_left (by omega),
    field_append_left (by omega)]

theorem LabelHeader.ofBytes_take {stream : List UInt8} {size : ℕ}
    (whole : sizeofLabelHeader ≤ stream.length) (kept : sizeofLabelHeader ≤ size) :
    LabelHeader.ofBytes (stream.take size) = LabelHeader.ofBytes stream := by
  have long : sizeofLabelHeader ≤ (stream.take size).length := by
    rw [List.length_take]
    exact le_min kept whole
  have split := LabelHeader.ofBytes_append long (stream.drop size)
  rw [List.take_append_drop] at split
  exact split.symm

/-- A header that the socket receive worker refuses. -/
def LabelHeader.Bad (hdr : LabelHeader) : Prop :=
  hdr.magic ≠ magicNum ∨ hdr.version ≠ Eroil.version ∨ hdr.labelSize > maxLabelSize ∨
    (hasFlag hdr.flags .data ∧ hdr.labelSize = 0) ∨
    (¬ hasFlag hdr.flags .data ∧ ¬ hasFlag hdr.flags .ping)

instance (hdr : LabelHeader) : Decidable hdr.Bad := inferInstanceAs (Decidable (_ ∨ _))

/-- The call of `distribute_recvd_label` for a header and its data. -/
def LabelHeader.dispatch (hdr : LabelHeader) (payload : List UInt8) : Dispatch :=
  ⟨hdr.sourceId, hdr.label, payload, hdr.recvOffset⟩

/-- The label at the start of a stream. -/
def labelAt (stream : List UInt8) : Dispatch :=
  (LabelHeader.ofBytes stream).dispatch
    ((stream.drop sizeofLabelHeader).take (LabelHeader.ofBytes stream).labelSize)

/-- The labels that a stream carries, and whether a header after them is refused. -/
structure Reading where
  dispatched : List Dispatch
  refused : Bool
deriving DecidableEq

def Reading.after (reading : Reading) (dispatch : Dispatch) : Reading :=
  { reading with dispatched := dispatch :: reading.dispatched }

/-- The meaning of a stream: pings are passed over, and a label counts once it is complete. -/
def readStream (stream : List UInt8) : Reading :=
  if stream.length < sizeofLabelHeader then ⟨[], false⟩
  else if (LabelHeader.ofBytes stream).Bad then ⟨[], true⟩
  else if ¬ hasFlag (LabelHeader.ofBytes stream).flags .data then
    readStream (stream.drop sizeofLabelHeader)
  else if stream.length < sizeofLabelHeader + (LabelHeader.ofBytes stream).labelSize then ⟨[], false⟩
  else
    (readStream (stream.drop (sizeofLabelHeader + (LabelHeader.ofBytes stream).labelSize))).after
      (labelAt stream)
termination_by stream.length
decreasing_by
  all_goals simp only [List.length_drop, sizeofLabelHeader] at *
  all_goals omega

namespace SocketRecvWorker

/-- The worker at the head of its loop while the connection is up. -/
structure Ready (worker : SocketRecvWorker) : Prop where
  connected : worker.connected = true
  running : worker.stop = false
  headerSize : worker.hdr.length = sizeofLabelHeader

theorem start_ready : start.Ready := ⟨rfl, rfl, by decide⟩

@[simp] theorem length_resize (payload : List UInt8) (size : ℕ) :
    (resize payload size).length = size := by
  simp only [resize, List.length_append, List.length_take, List.length_replicate]
  omega

/-- A read for which the bytes suffice overwrites the whole destination. -/
theorem recvExact_enough {dst stream : List UInt8} {size : ℕ} {results : List OsRecv}
    (carries : Carries results stream) (sized : dst.length = size) (positive : 0 < size)
    (small : size ≤ 2 ^ 31 - 1) (enough : size ≤ stream.length) (more : List OsRecv) :
    ∃ rest, Carries rest (stream.drop size) ∧
      recvExact false true dst size (results ++ more) =
        some ⟨true, stream.take size, true, rest ++ more⟩ := by
  obtain ⟨rest, restCarries, ran⟩ := TcpClient.recvAllLoop_enough carries enough more
  refine ⟨rest, restCarries, ?_⟩
  have taken : (stream.take size).length = size := by rw [List.length_take, min_eq_left enough]
  have overwritten : dst.drop size = [] := by rw [← sized, List.drop_length]
  simp only [recvExact, Bool.false_eq_true, if_false, TcpClient.recvAll_eq_loop positive small, ran,
    Option.map_some, taken, overwritten, List.append_nil, decide_eq_true positive]

theorem recvExact_short {dst stream : List UInt8} {size : ℕ} {results : List OsRecv}
    (carries : Carries results stream) (small : size ≤ 2 ^ 31 - 1) (short : stream.length < size) :
    recvExact false true dst size results = none := by
  have positive : 0 < size := Nat.zero_lt_of_lt short
  simp only [recvExact, Bool.false_eq_true, if_false, TcpClient.recvAll_eq_loop positive small,
    TcpClient.recvAllLoop_short carries short, Option.map_none]

/-- A label is dispatched once its data has arrived. -/
private theorem recvPayload_enough {worker : SocketRecvWorker} {hdr : LabelHeader}
    {results : List OsRecv}
    {stream : List UInt8} (ready : worker.Ready) (carries : Carries results stream)
    (positive : 0 < hdr.labelSize) (small : hdr.labelSize ≤ maxLabelSize)
    (enough : hdr.labelSize ≤ stream.length) (more : List OsRecv) :
    ∃ rest, Carries rest (stream.drop hdr.labelSize) ∧
      worker.recvPayload hdr (results ++ more) =
        .again { worker with
          payload := stream.take hdr.labelSize
          dispatched := worker.dispatched ++ [hdr.dispatch (stream.take hdr.labelSize)] }
          (rest ++ more) := by
  have inRange : hdr.labelSize ≤ 2 ^ 31 - 1 := Nat.le_trans small (by decide)
  obtain ⟨rest, restCarries, ran⟩ := recvExact_enough carries
    (length_resize worker.payload hdr.labelSize) positive inRange enough more
  refine ⟨rest, restCarries, ?_⟩
  simp only [recvPayload, length_resize, ready.running, ready.connected, ran, Bool.not_true,
    Bool.false_eq_true, if_false, LabelHeader.dispatch]

private theorem recvPayload_short {worker : SocketRecvWorker} {hdr : LabelHeader}
    {results : List OsRecv}
    {stream : List UInt8} (ready : worker.Ready) (carries : Carries results stream)
    (small : hdr.labelSize ≤ maxLabelSize) (short : stream.length < hdr.labelSize) :
    worker.recvPayload hdr results =
      .blocks { worker with payload := resize worker.payload hdr.labelSize } := by
  have inRange : hdr.labelSize ≤ 2 ^ 31 - 1 := Nat.le_trans small (by decide)
  simp only [recvPayload, length_resize, ready.running, ready.connected,
    recvExact_short carries inRange short]

private theorem handleHeader_bad {worker : SocketRecvWorker} {hdr : LabelHeader} (bad : hdr.Bad)
    (results : List OsRecv) :
    worker.handleHeader hdr results = .exits worker.disconnectAndStop := by
  rw [handleHeader]
  split_ifs with incoherent large empty noData ping
  · rfl
  · rfl
  · rfl
  · -- a ping that passed the first three checks is not a bad header
    simp only [LabelHeader.Bad] at bad
    simp_all
  · rfl
  · simp only [LabelHeader.Bad] at bad
    simp_all

private theorem handleHeader_ping {worker : SocketRecvWorker} {hdr : LabelHeader} (good : ¬ hdr.Bad)
    (noData : ¬ hasFlag hdr.flags .data) (results : List OsRecv) :
    worker.handleHeader hdr results = .again worker results := by
  simp only [LabelHeader.Bad, not_or] at good
  obtain ⟨magic, version, size, -, flags⟩ := good
  have ping : hasFlag hdr.flags .ping := by simpa [noData] using flags
  rw [handleHeader, if_neg (by tauto), if_neg size, if_neg (by tauto), if_pos (by simpa using noData),
    if_pos ping]

theorem handleHeader_data {worker : SocketRecvWorker} {hdr : LabelHeader} (good : ¬ hdr.Bad)
    (data : hasFlag hdr.flags .data) (results : List OsRecv) :
    worker.handleHeader hdr results = worker.recvPayload hdr results := by
  simp only [LabelHeader.Bad, not_or] at good
  obtain ⟨magic, version, size, nonempty, -⟩ := good
  rw [handleHeader, if_neg (by tauto), if_neg size, if_neg (by simp; tauto), if_neg (by simp [data])]

theorem sizes_of_good {hdr : LabelHeader} (good : ¬ hdr.Bad) (data : hasFlag hdr.flags .data) :
    0 < hdr.labelSize ∧ hdr.labelSize ≤ maxLabelSize := by
  simp only [LabelHeader.Bad, not_or, not_and] at good
  obtain ⟨-, -, small, nonempty, -⟩ := good
  exact ⟨Nat.pos_of_ne_zero (nonempty data), Nat.le_of_not_lt small⟩

/-- With a whole header in the stream, a pass through the loop is decided by that header. -/
theorem round_header {worker : SocketRecvWorker} {results : List OsRecv} {stream : List UInt8}
    (ready : worker.Ready) (carries : Carries results stream)
    (enough : sizeofLabelHeader ≤ stream.length) (more : List OsRecv) :
    ∃ rest, Carries rest (stream.drop sizeofLabelHeader) ∧
      worker.round (results ++ more) =
        { worker with hdr := stream.take sizeofLabelHeader }.handleHeader
          (LabelHeader.ofBytes stream) (rest ++ more) := by
  obtain ⟨rest, restCarries, ran⟩ := recvExact_enough carries ready.headerSize (by decide)
    (by decide) enough more
  refine ⟨rest, restCarries, ?_⟩
  simp only [round, ready.running, ready.connected, ran, Bool.not_true, Bool.false_eq_true, if_false,
    LabelHeader.ofBytes_take enough le_rfl]

private theorem round_short {worker : SocketRecvWorker} {results : List OsRecv} {stream : List UInt8}
    (ready : worker.Ready) (carries : Carries results stream)
    (short : stream.length < sizeofLabelHeader) : worker.round results = .blocks worker := by
  simp only [round, ready.running, ready.connected, recvExact_short carries (by decide) short,
    Bool.not_true, Bool.false_eq_true, if_false]

theorem take_header {stream : List UInt8} (enough : sizeofLabelHeader ≤ stream.length) :
    (stream.take sizeofLabelHeader).length = sizeofLabelHeader := by
  rw [List.length_take, min_eq_left enough]

/-- A worker that has taken in a header is ready for the next one. -/
theorem Ready.next {worker : SocketRecvWorker} (ready : worker.Ready) {hdr : List UInt8}
    (sized : hdr.length = sizeofLabelHeader) (payload : List UInt8) (dispatched : List Dispatch) :
    Ready { worker with hdr := hdr, payload := payload, dispatched := dispatched } :=
  ⟨ready.connected, ready.running, sized⟩

/-- What `run` comes to. -/
def Ending.worker : Ending → SocketRecvWorker
  | .exited worker => worker
  | .blocked worker => worker

def Ending.isExited : Ending → Bool
  | .exited _ => true
  | .blocked _ => false

/-- The ending of a worker that had made the given calls before it read the stream. -/
structure Ending.Agrees (ending : Ending) (before : List Dispatch) (reading : Reading) : Prop where
  exited : ending.isExited = reading.refused
  dispatched : ending.worker.dispatched = before ++ reading.dispatched
  connected : ending.worker.connected = !reading.refused
  stop : ending.worker.stop = reading.refused

theorem Ending.Agrees.after {ending : Ending} {before : List Dispatch} {dispatch : Dispatch}
    {reading : Reading} (agrees : ending.Agrees (before ++ [dispatch]) reading) :
    ending.Agrees before (reading.after dispatch) := by
  refine ⟨agrees.exited, ?_, agrees.connected, agrees.stop⟩
  rw [agrees.dispatched, List.append_assoc]
  rfl

theorem run_eq (worker : SocketRecvWorker) (results : List OsRecv) :
    worker.run results =
      match worker.round results with
      | .exits worker => .exited worker
      | .blocks worker => .blocked worker
      | .again worker rest => worker.run rest := by
  rw [run]
  split <;> simp_all

/-- The worker does what its stream means. After a header that is refused nothing is read, so
whatever the socket would return later does not matter. -/
theorem run_agrees {worker : SocketRecvWorker} {results : List OsRecv} {stream : List UInt8}
    (ready : worker.Ready) (carries : Carries results stream) (more : List OsRecv)
    (ends : (readStream stream).refused = false → more = []) :
    (worker.run (results ++ more)).Agrees worker.dispatched (readStream stream) := by
  fun_induction readStream stream generalizing worker results with
  | case1 stream short =>
    obtain rfl := ends rfl
    rw [List.append_nil, run_eq, round_short ready carries short]
    exact ⟨rfl, (List.append_nil _).symm, ready.connected, ready.running⟩
  | case2 stream whole bad =>
    obtain ⟨rest, -, ran⟩ := round_header ready carries (Nat.le_of_not_lt whole) more
    rw [run_eq, ran, handleHeader_bad bad]
    simp only [disconnectAndStop, ready.running]
    exact ⟨rfl, (List.append_nil _).symm, rfl, rfl⟩
  | case3 stream whole good noData ih =>
    have enough := Nat.le_of_not_lt whole
    obtain ⟨rest, later, ran⟩ := round_header ready carries enough more
    rw [run_eq, ran, handleHeader_ping good noData]
    exact ih (ready.next (take_header enough) worker.payload worker.dispatched) later ends
  | case4 stream whole good data short =>
    obtain rfl := ends rfl
    have enough := Nat.le_of_not_lt whole
    obtain ⟨rest, later, ran⟩ := round_header ready carries enough []
    have headed : Ready { worker with hdr := stream.take sizeofLabelHeader } :=
      ready.next (take_header enough) worker.payload worker.dispatched
    have small := (sizes_of_good good (not_not.mp data)).2
    rw [run_eq, ran, handleHeader_data good (not_not.mp data), List.append_nil,
      recvPayload_short headed later small (by rw [List.length_drop]; omega)]
    exact ⟨rfl, (List.append_nil _).symm, ready.connected, ready.running⟩
  | case5 stream whole good data complete ih =>
    have enough := Nat.le_of_not_lt whole
    obtain ⟨rest, later, ran⟩ := round_header ready carries enough more
    have headed : Ready { worker with hdr := stream.take sizeofLabelHeader } :=
      ready.next (take_header enough) worker.payload worker.dispatched
    obtain ⟨positive, small⟩ := sizes_of_good good (not_not.mp data)
    obtain ⟨rest, later, goes⟩ := recvPayload_enough headed later positive small
      (by rw [List.length_drop]; omega) more
    rw [List.drop_drop] at later
    rw [run_eq, ran, handleHeader_data good (not_not.mp data), goes]
    exact (ih (headed.next headed.headerSize (labelAt stream).buf
      (worker.dispatched ++ [labelAt stream])) later ends).after

end SocketRecvWorker

/-! ## Streams of frames -/

/-- A frame on the wire: a ping, or a label with its data. The bytes of its header are arbitrary
otherwise. -/
structure WireFrame where
  header : List UInt8
  payload : List UInt8
  sized : header.length = sizeofLabelHeader
  coherent : (LabelHeader.ofBytes header).magic = magicNum ∧
    (LabelHeader.ofBytes header).version = version
  measured : (LabelHeader.ofBytes header).labelSize = payload.length
  kind : (hasFlag (LabelHeader.ofBytes header).flags .data ∧ 1 ≤ payload.length ∧
      payload.length ≤ maxLabelSize) ∨
    (¬ hasFlag (LabelHeader.ofBytes header).flags .data ∧
      hasFlag (LabelHeader.ofBytes header).flags .ping ∧ payload = [])

namespace WireFrame

def bytes (frame : WireFrame) : List UInt8 := frame.header ++ frame.payload

def isData (frame : WireFrame) : Bool := hasFlag (LabelHeader.ofBytes frame.header).flags .data

def dispatch (frame : WireFrame) : Dispatch :=
  (LabelHeader.ofBytes frame.header).dispatch frame.payload

/-- The calls that a sequence of frames stands for. -/
def dispatches (frames : List WireFrame) : List Dispatch := (frames.filter isData).map dispatch

theorem not_bad (frame : WireFrame) : ¬ (LabelHeader.ofBytes frame.header).Bad := by
  simp only [LabelHeader.Bad, frame.coherent.1, frame.coherent.2, frame.measured]
  obtain ⟨data, nonempty, small⟩ | ⟨noData, ping, empty⟩ := frame.kind
  · rw [data]
    rintro (bad | bad | large | ⟨-, empty⟩ | ⟨noData, -⟩)
    · exact bad rfl
    · exact bad rfl
    · omega
    · omega
    · exact noData rfl
  · simp [noData, ping, empty]

theorem ofBytes_bytes (frame : WireFrame) (later : List UInt8) :
    LabelHeader.ofBytes (frame.bytes ++ later) = LabelHeader.ofBytes frame.header := by
  rw [bytes, List.append_assoc, LabelHeader.ofBytes_append (Nat.le_of_eq frame.sized.symm)]

/-- A frame at the start of a stream is taken off as a whole. -/
private theorem readStream_bytes (frame : WireFrame) (later : List UInt8) :
    readStream (frame.bytes ++ later) =
      if frame.isData then (readStream later).after frame.dispatch else readStream later := by
  have size : frame.bytes.length = sizeofLabelHeader + frame.payload.length := by
    rw [bytes, List.length_append, frame.sized]
  have body : (frame.bytes ++ later).drop sizeofLabelHeader = frame.payload ++ later := by
    rw [bytes, List.append_assoc, ← frame.sized, List.drop_left]
  rw [readStream, frame.ofBytes_bytes, if_neg (by rw [List.length_append]; omega),
    if_neg frame.not_bad,
    ← isData]
  by_cases data : frame.isData = true
  · rw [if_neg (not_not.mpr data), if_pos data, frame.measured,
      if_neg (by rw [List.length_append]; omega), ← List.drop_drop, body, List.drop_left, labelAt,
      frame.ofBytes_bytes, frame.measured, body, List.take_left]
    rfl
  · rw [if_pos data, if_neg data, body]
    obtain ⟨data', -, -⟩ | ⟨-, -, empty⟩ := frame.kind
    · exact absurd data' data
    · rw [empty, List.nil_append]

theorem readStream_frames (frames : List WireFrame) (later : List UInt8) :
    readStream (frames.flatMap bytes ++ later) =
      ⟨dispatches frames ++ (readStream later).dispatched, (readStream later).refused⟩ := by
  induction frames with
  | nil => rfl
  | cons frame frames ih =>
    rw [List.flatMap_cons, List.append_assoc, readStream_bytes, ih, dispatches, dispatches,
      List.filter_cons]
    split
    · rfl
    · rfl

end WireFrame

theorem readStream_nil : readStream [] = ⟨[], false⟩ := by
  rw [readStream, if_pos (by decide)]

private theorem readStream_bad {header : List UInt8} (sized : header.length = sizeofLabelHeader)
    (bad : (LabelHeader.ofBytes header).Bad) (later : List UInt8) :
    readStream (header ++ later) = ⟨[], true⟩ := by
  rw [readStream, LabelHeader.ofBytes_append (Nat.le_of_eq sized.symm), if_pos bad,
    if_neg (by rw [List.length_append]; omega)]

/-- However the frames are cut into results of `::recv`, the worker makes the calls of their labels,
in order, and waits for more. A header that it refuses ends the connection, and nothing after that
header is looked at. -/
theorem SocketRecvWorker.run_frames (frames : List WireFrame) :
    (∀ results, Carries results (frames.flatMap WireFrame.bytes) →
      ∃ worker, start.run results = .blocked worker ∧
        worker.dispatched = WireFrame.dispatches frames ∧
        worker.connected = true ∧ worker.stop = false) ∧
    ∀ header later results more, header.length = sizeofLabelHeader →
      (LabelHeader.ofBytes header).Bad →
      Carries results (frames.flatMap WireFrame.bytes ++ (header ++ later)) →
      ∃ worker, start.run (results ++ more) = .exited worker ∧
        worker.dispatched = WireFrame.dispatches frames ∧
        worker.connected = false ∧ worker.stop = true := by
  constructor
  · intro results carries
    have reading := WireFrame.readStream_frames frames []
    rw [List.append_nil, readStream_nil, List.append_nil] at reading
    have agrees := run_agrees start_ready carries [] (fun _ => rfl)
    rw [List.append_nil, reading] at agrees
    cases ending : start.run results with
    | exited worker => simpa [ending, Ending.isExited] using agrees.exited
    | blocked worker =>
      rw [ending] at agrees
      exact ⟨worker, rfl, agrees.dispatched, agrees.connected, agrees.stop⟩
  · intro header later results more sized bad carries
    have reading := WireFrame.readStream_frames frames (header ++ later)
    rw [readStream_bad sized bad, List.append_nil] at reading
    have agrees := run_agrees start_ready carries more (by simp [reading])
    rw [reading] at agrees
    cases ending : start.run (results ++ more) with
    | blocked worker => simpa [ending, Ending.isExited] using agrees.exited
    | exited worker =>
      rw [ending] at agrees
      exact ⟨worker, rfl, agrees.dispatched, agrees.connected, agrees.stop⟩

/-- A ping, and a label of two bytes. -/
def WireFrame.pingThenLabel : List WireFrame :=
  [⟨LabelHeader.bytes ⟨magicNum, version, 3, LabelFlag.ping.value, 0, 0, 0⟩, [],
      by decide, by decide, by decide, by decide⟩,
    ⟨LabelHeader.bytes ⟨magicNum, version, 3, LabelFlag.data.value, 5, 2, 8⟩, [7, 9],
      by decide, by decide, by decide, by decide⟩]

/-- The first result ends inside the ping, the second inside the label. -/
def cutResults : List OsRecv :=
  let stream := WireFrame.pingThenLabel.flatMap WireFrame.bytes
  [.received (stream.take 5), .error .eintr, .received ((stream.drop 5).take 52),
    .received (stream.drop 57)]

theorem SocketRecvWorker.run_frames_pingThenLabel :
    (∃ worker, start.run cutResults = .blocked worker ∧ worker.dispatched = [⟨3, 5, [7, 9], 8⟩] ∧
      worker.connected = true ∧ worker.stop = false) ∧
    ∃ worker, start.run (cutResults ++ [.received (List.replicate 28 0)] ++ [.error .econnreset]) =
      .exited worker ∧ worker.dispatched = [⟨3, 5, [7, 9], 8⟩] ∧
      worker.connected = false ∧ worker.stop = true := by
  have calls : WireFrame.dispatches WireFrame.pingThenLabel = [⟨3, 5, [7, 9], 8⟩] := by decide
  have both := run_frames WireFrame.pingThenLabel
  rw [calls] at both
  exact ⟨both.1 cutResults (by decide),
    both.2 (List.replicate 28 0) [] _ _ (by decide) (by decide) (by decide)⟩

end Eroil
