import Eroil.Model.Socket.Connections
import Eroil.Proofs.Send.Frames
import Eroil.Proofs.Socket.Framing

/-! # From `send_one` to the dispatch of a label

Both ends of a TCP connection. The connecting side tells its id and then sends pings and labels; the
other side's server reads the id and leaves the rest of the stream to a receive worker. TCP delivers
some part of the stream from its start on, in pieces. As long as no frame is cut unnoticed, what the
worker dispatches is what was reported as sent.
-/

namespace Eroil

open Lib

/-! ## Parts of a stream -/

theorem readStream_short {stream : List UInt8} (short : stream.length < sizeofLabelHeader) :
    readStream stream = ⟨[], false⟩ := by
  rw [readStream, if_pos short]

/-- The first of the labels, and nothing refused. -/
def Reading.Starts (reading whole : Reading) : Prop :=
  reading.refused = false ∧ reading.dispatched <+: whole.dispatched

theorem Reading.Starts.nothing (whole : Reading) : Starts ⟨[], false⟩ whole :=
  ⟨rfl, List.nil_prefix⟩

theorem Reading.Starts.after {reading whole : Reading} (starts : reading.Starts whole)
    (dispatch : Dispatch) : (reading.after dispatch).Starts (whole.after dispatch) :=
  ⟨starts.1, (List.prefix_cons_inj dispatch).mpr starts.2⟩

/-- Less than a header carries nothing. -/
theorem readStream_take_short {stream : List UInt8} {size : ℕ} (cut : size < sizeofLabelHeader)
    (whole : Reading) : (readStream (stream.take size)).Starts whole := by
  rw [readStream_short (by rw [List.length_take]; omega)]
  exact .nothing whole

/-- The start of a stream carries the first of its labels. -/
theorem readStream_take (stream : List UInt8) (size : ℕ)
    (good : (readStream stream).refused = false) :
    (readStream (stream.take size)).Starts (readStream stream) := by
  fun_induction readStream stream generalizing size with
  | case1 stream short =>
    rw [readStream_short (by rw [List.length_take]; omega)]
    exact .nothing _
  | case2 stream whole bad => cases good
  | case3 stream whole sound noData ih =>
    rcases Nat.lt_or_ge size sizeofLabelHeader with cut | kept
    · exact readStream_take_short cut _
    have header := LabelHeader.ofBytes_take (Nat.le_of_not_lt whole) kept
    rw [readStream, header, if_neg (by rw [List.length_take]; omega), if_neg sound, if_pos noData,
      List.drop_take]
    exact ih _ good
  | case4 stream whole sound data short =>
    rcases Nat.lt_or_ge size sizeofLabelHeader with cut | kept
    · exact readStream_take_short cut _
    have header := LabelHeader.ofBytes_take (Nat.le_of_not_lt whole) kept
    rw [readStream, header, if_neg (by rw [List.length_take]; omega), if_neg sound, if_neg data,
      if_pos (by rw [List.length_take]; omega)]
    exact .nothing _
  | case5 stream whole sound data complete ih =>
    rcases Nat.lt_or_ge size sizeofLabelHeader with cut | kept
    · exact readStream_take_short cut _
    have header := LabelHeader.ofBytes_take (Nat.le_of_not_lt whole) kept
    rw [readStream, header, if_neg (by rw [List.length_take]; omega), if_neg sound, if_neg data]
    split
    · exact .nothing _
    · next inside =>
      rw [List.length_take] at inside
      have label : labelAt (stream.take size) = labelAt stream := by
        rw [labelAt, labelAt, header, List.drop_take, List.take_take, min_eq_left (by omega)]
      rw [label, List.drop_take]
      exact (ih _ good).after _

/-- A part of a stream that is parsed to its end: what follows is read on its own. -/
def Aligned (stream : List UInt8) (labels : List Dispatch) : Prop :=
  ∀ rest, readStream (stream ++ rest) =
    ⟨labels ++ (readStream rest).dispatched, (readStream rest).refused⟩

theorem Aligned.nil : Aligned [] [] := fun _ => rfl

theorem Aligned.reading {stream : List UInt8} {labels : List Dispatch}
    (aligned : Aligned stream labels) : readStream stream = ⟨labels, false⟩ := by
  have whole := aligned []
  rw [List.append_nil, readStream_nil, List.append_nil] at whole
  exact whole

theorem Aligned.append {stream more : List UInt8} {labels later : List Dispatch}
    (first : Aligned stream labels) (second : Aligned more later) :
    Aligned (stream ++ more) (labels ++ later) := by
  intro rest
  rw [List.append_assoc, first, second, List.append_assoc]

/-! ## Frames -/

/-- A header without a label is read as it was written. -/
theorem ofBytes_bare (myId : NodeId) (flag : LabelFlag) (rest : List UInt8) :
    LabelHeader.ofBytes (LabelHeader.bytes ⟨magicNum, version, myId, flag.value, 0, 0, 0⟩ ++ rest) =
      ⟨magicNum, version, myId, flag.value, 0, 0, 0⟩ := by
  refine LabelHeader.ofBytes_bytes ⟨?_, ?_, ?_, ?_, ?_⟩ rest
  · show magicNum < 2 ^ 32
    decide
  · show version < 2 ^ 16
    decide
  · show flag.value < 2 ^ 16
    cases flag <;> decide
  · exact Nat.two_pow_pos 32
  · exact Nat.two_pow_pos 32

theorem aligned_ping (myId : NodeId) : Aligned (Frame.ping.bytes myId) [] := by
  intro rest
  have length := Frame.length_ping myId
  have known : ¬ LabelHeader.Bad ⟨magicNum, version, 0, LabelFlag.ping.value, 0, 0, 0⟩ := by decide
  have sound : ¬ LabelHeader.Bad ⟨magicNum, version, myId, LabelFlag.ping.value, 0, 0, 0⟩ := known
  have noData : ¬ hasFlag LabelFlag.ping.value .data = true := by decide
  have header := ofBytes_bare myId .ping rest
  rw [← Frame.bytes] at header
  rw [readStream, header, if_neg (by rw [List.length_append, length, sizeofLabelHeader]; omega),
    if_neg sound, if_pos noData, sizeofLabelHeader, ← length, List.drop_left]
  rfl

namespace LabelMessage

/-- The label that arrives. -/
def dispatch (message : LabelMessage) (myId : NodeId) : Dispatch :=
  ⟨myId, message.label, message.payload, wrap32 message.recvOffset⟩

/-- The sizes that `open_send` lets through. -/
def Sized (message : LabelMessage) : Prop :=
  0 < message.payload.length ∧ message.payload.length ≤ maxLabelSize

private theorem frame_dispatch (message : LabelMessage) (myId : NodeId) :
    (message.dispatch myId).frame = (Frame.label message).bytes myId := by
  have wrapped : wrap32 (wrap32 message.recvOffset) = wrap32 message.recvOffset := Nat.mod_mod _ _
  simp only [Dispatch.frame, dispatch, labelHeader, wrapped, Frame.bytes]

theorem aligned {message : LabelMessage} (sized : message.Sized) (myId : NodeId) :
    Aligned ((Frame.label message).bytes myId) [message.dispatch myId] := by
  intro rest
  have sendable : (message.dispatch myId).Sendable :=
    ⟨sized.1, sized.2, Nat.mod_lt _ (Nat.two_pow_pos 32)⟩
  rw [← frame_dispatch, sendable.readStream_frame]
  rfl

end LabelMessage

/-! ## What a call writes -/

namespace TcpClient

private theorem sendAllLoop_prefix {left : List UInt8} {results : List OsSend} {outcome : SendOutcome}
    (returns : sendAllLoop left results = some outcome) : outcome.wrote <+: left := by
  induction results generalizing left outcome with
  | nil =>
    rw [sendAllLoop] at returns
    split at returns
    · cases returns
      exact List.nil_prefix
    · cases returns
  | cons result results ih =>
    simp only [sendAllLoop] at returns
    split at returns
    · cases returns
    · cases result with
      | sent count =>
        dsimp only at returns
        split_ifs at returns
        · obtain ⟨inner, later, rfl⟩ := Option.map_eq_some_iff.mp returns
          calc
            left.take count ++ inner.wrote <+: left.take count ++ left.drop count :=
              (List.prefix_append_right_inj _).mpr (ih later)
            _ = left := List.take_append_drop ..
        · cases returns
          exact List.nil_prefix
      | error errno =>
        dsimp only at returns
        split_ifs at returns
        · exact ih returns
        · cases returns
          exact List.nil_prefix

/-- What a call has written is the start of what it was given. -/
private theorem sendAll_prefix {connected : Bool} {data : List UInt8} {results : List OsSend}
    {outcome : SendOutcome} (returns : sendAll connected data results = some outcome) :
    outcome.wrote <+: data := by
  rw [sendAll] at returns
  split at returns
  · split at returns
    · cases returns
      exact List.nil_prefix
    · cases returns
  · exact sendAllLoop_prefix returns

/-- A connection that is down takes nothing. -/
private theorem connected_of_wrote {connected : Bool} {data : List UInt8} {results : List OsSend}
    {outcome : SendOutcome} (returns : sendAll connected data results = some outcome)
    (wrote : outcome.wrote ≠ []) : connected = true := by
  cases connected with
  | true => rfl
  | false =>
    simp only [sendAll, refuses, Bool.not_false, if_true] at returns
    split at returns
    · cases returns
      exact absurd rfl wrote
    · cases returns

end TcpClient

/-- Part of a ping carries nothing. -/
private theorem readStream_ping {part : List UInt8} {myId : NodeId}
    (start : part <+: Frame.ping.bytes myId) :
    readStream part = ⟨[], false⟩ := by
  have ping := (aligned_ping myId).reading
  obtain ⟨refused, labels⟩ := readStream_take (Frame.ping.bytes myId) part.length (by rw [ping])
  rw [← List.prefix_iff_eq_take.mp start] at refused labels
  rw [ping] at labels
  rw [← List.eq_nil_of_prefix_nil labels, ← refused]

namespace Connection

variable {conn : Connection}

/-- The labels whose calls reported success, in the order of the calls. -/
def sent (conn : Connection) : List Dispatch :=
  conn.calls.filterMap fun call =>
    match call.frame with
    | .label message => if call.success then some (message.dispatch conn.myId) else none
    | _ => none

/-- The stream after the id that the connecting side sends first. -/
def preamble (conn : Connection) : List UInt8 :=
  if conn.connecting then Frame.connect.bytes conn.myId else []

/-- No frame is cut unnoticed, and labels have a size that `open_send` lets through. -/
def Plain (conn : Connection) (action : Action) : Prop :=
  conn.Uncut action ∧ ∀ message result, action = .sendOne message result → message.Sized

/-- A registered connection has told its id if it had to. As long as it is up its stream ends with a
whole frame, and in any case its stream carries the labels that were reported as sent. -/
structure Carrying (conn : Connection) : Prop where
  unopened : conn.phase = .opening → conn.connecting = true ∧ conn.written = [] ∧ conn.calls = []
  registered : conn.phase = .registered → ∃ body, conn.written = conn.preamble ++ body ∧
    readStream body = ⟨conn.sent, false⟩ ∧ (conn.connected = true → Aligned body conn.sent)

theorem Carrying.opened (myId : NodeId) : Carrying (opened myId) where
  unopened _ := ⟨rfl, rfl, rfl⟩
  registered here := by cases here

theorem Carrying.accepted (myId : NodeId) : Carrying (accepted myId) where
  unopened here := by cases here
  registered _ := ⟨[], rfl, readStream_nil, fun _ => .nil⟩

theorem sent_record (conn : Connection) (frame : Frame) (outcome : SendOutcome) (success : Bool) :
    (conn.record frame outcome success).sent = conn.sent ++
      match frame with
      | .label message => if success then [message.dispatch conn.myId] else []
      | _ => [] := by
  simp only [sent, record, List.filterMap_append]
  congr 1
  cases frame with
  | connect | ping => rfl
  | label message => cases success <;> rfl

/-- A call on a registered connection wrote whole frames, or it gave the connection up in the middle
of a ping. -/
theorem Carrying.record (carrying : Carrying conn) (phase : conn.phase = .registered)
    {frame : Frame} {outcome : SendOutcome} {success : Bool} {labels : List Dispatch}
    (sent : (conn.record frame outcome success).sent = conn.sent ++ labels)
    (before : outcome.wrote ≠ [] → conn.connected = true)
    (reading : readStream outcome.wrote = ⟨labels, false⟩)
    (whole : outcome.connected = true → conn.connected = true ∧ Aligned outcome.wrote labels) :
    Carrying (conn.record frame outcome success) where
  unopened opening := by
    have opening : conn.phase = .opening := opening
    rw [phase] at opening
    cases opening
  registered _ := by
    obtain ⟨body, written, read, aligned⟩ := carrying.registered phase
    refine ⟨body ++ outcome.wrote, ?_, ?_, ?_⟩
    · show conn.written ++ outcome.wrote = conn.preamble ++ (body ++ outcome.wrote)
      rw [written, List.append_assoc]
    · rw [sent]
      by_cases nothing : outcome.wrote = []
      · rw [nothing, readStream_nil] at reading
        cases reading
        rw [nothing, List.append_nil, List.append_nil]
        exact read
      · rw [aligned (before nothing) outcome.wrote, reading]
    · intro up
      obtain ⟨connected, more⟩ := whole up
      rw [sent]
      exact (aligned connected).append more

theorem Carrying.sendPing (carrying : Carrying conn) {results : List OsSend}
    (uncut : conn.Uncut (.sendPing results)) : Carrying (conn.sendPing results) := by
  unfold Connection.sendPing
  split
  · exact carrying
  · next other =>
    have phase : conn.phase = .registered := not_not.mp other
    split
    · exact carrying
    · next outcome returns =>
      have short : (Frame.ping.bytes conn.myId).length ≤ 2 ^ 31 - 1 := by
        rw [Frame.length_ping]
        decide
      refine carrying.record phase (sent_record ..) (TcpClient.connected_of_wrote returns)
        (readStream_ping (TcpClient.sendAll_prefix returns)) ?_
      intro up
      rcases TcpClient.sendAll_cases (Frame.bytes_ne_nil _ _) short returns with
        ⟨connected, _, wrote⟩ | ⟨_, down⟩ | ⟨connected, errno, member, other, _, still, some_⟩
      · exact ⟨connected, wrote ▸ aligned_ping conn.myId⟩
      · rw [down] at up
        cases up
      · -- The error is not fatal, so nothing was sent.
        rw [still, Bool.not_eq_true'] at up
        rcases uncut phase connected errno member with rfl | fatal | ⟨_, nothing⟩
        · exact absurd rfl other
        · rw [up] at fatal
          cases fatal
        · have empty : outcome.wrote = [] := by
            by_contra something
            obtain ⟨count, positive, sent⟩ := some_ something
            exact Nat.ne_of_gt positive (nothing count sent)
          exact ⟨connected, empty ▸ .nil⟩

theorem Carrying.sendOne (carrying : Carrying conn) {message : LabelMessage} {result : OsSend}
    (uncut : conn.Uncut (.sendOne message result)) (sized : message.Sized) :
    Carrying (conn.sendOne message result) := by
  unfold Connection.sendOne
  split
  · exact carrying
  · next other =>
    have phase : conn.phase = .registered := not_not.mp other
    split
    · next down =>
      have same :
          sent { conn with calls := conn.calls ++ [⟨.label message, [], false⟩] } = conn.sent := by
        simp [sent]
      refine ⟨?_, fun _ => ?_⟩
      · intro opening
        have opening : conn.phase = .opening := opening
        rw [phase] at opening
        cases opening
      · rw [same]
        exact carrying.registered phase
    · next alive =>
      have connected : conn.connected = true := by simpa using alive
      rcases TcpClient.send_cases conn.connected ((Frame.label message).bytes conn.myId) result with
        ⟨count, positive, rfl, whole⟩ | ⟨failed, nothing⟩
      · -- The count is not short, so the whole label was accepted.
        have full : ((Frame.label message).bytes conn.myId).length ≤ count :=
          (uncut phase connected).resolve_left (Nat.ne_of_gt positive)
        rw [List.take_of_length_le full] at whole
        rw [whole]
        refine carrying.record phase (sent_record ..) (fun _ => connected)
          (message.aligned sized conn.myId).reading fun _ => ⟨connected, ?_⟩
        exact LabelMessage.aligned sized conn.myId
      · have labels := sent_record conn (.label message)
          (TcpClient.send conn.connected ((Frame.label message).bytes conn.myId) result) false
        dsimp only
        rw [failed]
        refine carrying.record phase labels (fun wrote => absurd nothing wrote) ?_ fun _ =>
          ⟨connected, ?_⟩
        · rw [nothing]
          exact readStream_nil
        · rw [nothing]
          exact .nil

theorem Carrying.sendId (carrying : Carrying conn) {results : List OsSend}
    (uncut : conn.Uncut (.sendId results)) : Carrying (conn.sendId results) := by
  unfold Connection.sendId
  split
  · exact carrying
  · next other =>
    have opening : conn.phase = .opening := not_not.mp other
    obtain ⟨connecting, empty, noCalls⟩ := carrying.unopened opening
    split
    · exact carrying
    · next outcome returns =>
      dsimp only
      split
      · next success =>
        have wrote : outcome.wrote = Frame.connect.bytes conn.myId :=
          TcpClient.sendAll_success (Frame.bytes_ne_nil _ _) (by rw [Frame.length_connect]; decide)
            returns (uncut opening) success
        have labels : (conn.record .connect outcome (mapSockFailures outcome.code)).sent = [] := by
          rw [sent_record, sent, noCalls]
          rfl
        refine ⟨by rintro ⟨⟩, fun _ => ⟨[], ?_, ?_, fun _ => ?_⟩⟩
        · show conn.written ++ outcome.wrote =
            (if conn.connecting then Frame.connect.bytes conn.myId else []) ++ []
          rw [empty, wrote, connecting, if_pos rfl, List.nil_append, List.append_nil]
        · show readStream [] =
            ⟨(conn.record .connect outcome (mapSockFailures outcome.code)).sent, false⟩
          rw [labels]
          exact readStream_nil
        · show Aligned [] (conn.record .connect outcome (mapSockFailures outcome.code)).sent
          rw [labels]
          exact .nil
      · exact ⟨by rintro ⟨⟩, by rintro ⟨⟩⟩

theorem Carrying.step (carrying : Carrying conn) (action : Action)
    (plain : conn.Plain action) : Carrying (conn.step action) := by
  cases action with
  | sendId results => exact carrying.sendId plain.1
  | sendPing results => exact carrying.sendPing plain.1
  | sendOne message result => exact carrying.sendOne plain.1 (plain.2 message result rfl)
  | disconnect =>
    refine ⟨carrying.unopened, fun here => ?_⟩
    obtain ⟨body, written, read, _⟩ := carrying.registered here
    refine ⟨body, written, read, ?_⟩
    rintro ⟨⟩

private theorem step_fixed (conn : Connection) (action : Action) :
    (conn.step action).myId = conn.myId ∧ (conn.step action).connecting = conn.connecting := by
  cases action with
  | sendId results =>
    simp only [step, sendId]
    split
    · exact ⟨rfl, rfl⟩
    · split <;> exact ⟨rfl, rfl⟩
  | sendPing results =>
    simp only [step, sendPing]
    split
    · exact ⟨rfl, rfl⟩
    · split <;> exact ⟨rfl, rfl⟩
  | sendOne message result =>
    simp only [step, sendOne]
    split
    · exact ⟨rfl, rfl⟩
    · split <;> exact ⟨rfl, rfl⟩
  | disconnect => exact ⟨rfl, rfl⟩

/-- A receive worker that gets these results waits for more after it has dispatched the first of the
labels, and all of them if nothing is missing. -/
def Delivers (results : List OsRecv) (labels : List Dispatch) (complete : Prop) : Prop :=
  ∃ worker, SocketRecvWorker.start.run results = .blocked worker ∧ worker.dispatched <+: labels ∧
    (complete → worker.dispatched = labels)

/-- What arrives of a stream that carries the labels. -/
theorem delivers_of_reading {body : List UInt8} {labels : List Dispatch}
    (reading : readStream body = ⟨labels, false⟩) {arrived : ℕ} {results : List OsRecv}
    (carries : Carries results (body.take arrived)) :
    Delivers results labels (body.length ≤ arrived) := by
  obtain ⟨refused, first⟩ := readStream_take body arrived (by rw [reading])
  have agrees := SocketRecvWorker.run_agrees SocketRecvWorker.start_ready carries [] fun _ => rfl
  rw [List.append_nil] at agrees
  cases ending : SocketRecvWorker.start.run results with
  | exited worker =>
    rw [ending] at agrees
    cases agrees.exited.trans refused
  | blocked worker =>
    rw [ending] at agrees
    have dispatched : worker.dispatched = (readStream (body.take arrived)).dispatched :=
      agrees.dispatched
    refine ⟨worker, ending, ?_, fun complete => ?_⟩
    · rw [dispatched]
      rwa [reading] at first
    · rw [dispatched, List.take_of_length_le complete, reading]

/-- The server accepts a client that sends its id, and leaves the rest of the stream. -/
private theorem greet_connect {myId : NodeId} {results : List OsRecv} {stream : List UInt8}
    (carries : Carries results (Frame.connect.bytes myId ++ stream)) :
    ∃ rest, greet true results = .accepted myId rest ∧ Carries rest stream := by
  have length : (Frame.connect.bytes myId).length = sizeofLabelHeader := Frame.length_connect myId
  have enough : sizeofLabelHeader ≤ (Frame.connect.bytes myId ++ stream).length := by
    rw [List.length_append]
    omega
  obtain ⟨rest, later, ran⟩ := TcpClient.recvAllLoop_enough carries enough []
  have whole : (Frame.connect.bytes myId ++ stream).take sizeofLabelHeader =
      Frame.connect.bytes myId := by
    rw [← length, List.take_left]
  have header := ofBytes_bare myId .connect []
  rw [← Frame.bytes, List.append_nil] at header
  rw [List.append_nil, List.append_nil, whole] at ran
  refine ⟨rest, ?_, ?_⟩
  · rw [greet, TcpClient.recvAll_eq_loop (by decide) (by decide), ran]
    simp only [ne_eq, not_true, if_false, header]
    rfl
  · rwa [← length, List.drop_left] at later

/-- Both ends of a TCP connection: whatever part of the stream has arrived, and in whatever pieces,
the server has accepted the id and the worker has dispatched the first of the labels whose calls
reported success, in their order; and all of them, and nothing else, when everything has arrived. -/
theorem tcp_path_exact {myId : NodeId} {source : Connection}
    (fresh : source = opened myId ∨ source = accepted myId) (run : Reaches step Plain source conn)
    (registered : conn.phase = .registered) {arrived : ℕ} {results : List OsRecv}
    (carries : Carries results (conn.written.take arrived)) :
    (conn.connecting = true → sizeofLabelHeader ≤ arrived →
      ∃ rest, greet true results = .accepted myId rest ∧
        Delivers rest conn.sent (conn.written.length ≤ arrived)) ∧
    (conn.connecting = false → Delivers results conn.sent (conn.written.length ≤ arrived)) := by
  have start : source.myId = myId ∧ Carrying source := by
    rcases fresh with rfl | rfl
    · exact ⟨rfl, .opened myId⟩
    · exact ⟨rfl, .accepted myId⟩
  obtain ⟨id, carrying⟩ := run.invariant (fun conn => conn.myId = myId ∧ Carrying conn) start
    fun conn action before plain =>
      ⟨(step_fixed conn action).1.trans before.1, before.2.step action plain⟩
  obtain ⟨body, written, reading, _⟩ := carrying.registered registered
  constructor
  · intro connecting enough
    have preamble : conn.preamble = Frame.connect.bytes myId := by
      rw [Connection.preamble, if_pos connecting, id]
    have length := Frame.length_connect myId
    rw [written, preamble] at carries ⊢
    rw [List.take_append, List.take_of_length_le (by rw [length]; exact enough), length] at carries
    obtain ⟨rest, accepts, later⟩ := greet_connect carries
    refine ⟨rest, accepts, ?_⟩
    obtain ⟨worker, ran, first, all⟩ := delivers_of_reading reading later
    refine ⟨worker, ran, first, fun complete => all ?_⟩
    rw [List.length_append, length] at complete
    omega
  · intro accepting
    have preamble : conn.preamble = [] := by
      rw [Connection.preamble, accepting]
      rfl
    rw [written, preamble, List.nil_append] at carries ⊢
    exact delivers_of_reading reading carries

/-- The connection after an id that is sent in two parts, a ping, and a label. -/
def threeFrames : Connection := goodCalls.foldl step (opened 3)

/-- Its stream, cut inside the ping. -/
def threeFramesResults : List OsRecv :=
  [.received (threeFrames.written.take 30), .error .eintr, .received (threeFrames.written.drop 30)]

theorem tcp_path_exact_three : ∃ rest, greet true threeFramesResults = .accepted 3 rest ∧
    ∃ worker, SocketRecvWorker.start.run rest = .blocked worker ∧
      worker.dispatched = [⟨3, 5, [1, 2, 3, 4], 0⟩] := by
  have run : Reaches step Plain (opened 3) threeFrames := by
    refine Reaches.foldl goodCalls ?_ _
    intro action member conn
    simp only [goodCalls, List.mem_cons, List.not_mem_nil, or_false] at member
    rcases member with rfl | rfl | rfl
    · refine ⟨?_, by rintro _ _ ⟨⟩⟩
      intro _ _ errno member
      simp only [List.mem_cons, OsSend.error.injEq, reduceCtorEq, List.not_mem_nil,
        or_false] at member
      exact .inl member
    · refine ⟨?_, by rintro _ _ ⟨⟩⟩
      intro _ _ errno member
      simp at member
    · refine ⟨fun _ _ => .inr (Nat.le_of_eq (Frame.length_label _ _)), ?_⟩
      rintro _ _ ⟨⟩
      exact ⟨by decide, by decide⟩
  have length : threeFrames.written.length = 88 := by decide +kernel
  have carries : Carries threeFramesResults (threeFrames.written.take 88) := by decide +kernel
  obtain ⟨connecting, -⟩ := tcp_path_exact (.inl rfl) run (by decide +kernel) carries
  obtain ⟨rest, accepted, worker, ran, _, all⟩ := connecting (by decide +kernel) (by decide)
  refine ⟨rest, accepted, worker, ran, (all (Nat.le_of_eq length)).trans ?_⟩
  decide +kernel

end Connection

end Eroil
