import Eroil.Lib.Machine
import Eroil.Model.Socket.Connection

/-! # Frames on a TCP stream

A stream can be parsed only if it consists of complete frames, so a connection that stays in use
must not carry a cut frame, and a call that reports success must have written all of its frame. Two
places fall short of this. A label is sent with one `::send` whose short count is taken for success.
A header is sent to the end unless an error stops it, but an error that is not fatal leaves the
connection in use, and some of these errors are reported as success.
-/

namespace Eroil

open Lib

namespace TcpClient

/-- `send_all` runs to the end, or is stopped by a zero count, or by an error other than `EINTR`; in
the last case the connection is given up if the error is fatal. -/
private theorem sendAllLoop_cases {left : List UInt8} {results : List OsSend} {outcome : SendOutcome}
    (returns : sendAllLoop left results = some outcome) :
    (outcome.code = .none ∧ outcome.wrote = left) ∨
      (outcome.code = .closed ∧ outcome.connected = false) ∨
      (∃ errno, .error errno ∈ results ∧ errno ≠ .eintr ∧ outcome.code = mapErr errno ∧
        outcome.connected = !isFatalSendErr errno ∧
        (outcome.wrote ≠ [] → ∃ count, 0 < count ∧ .sent count ∈ results)) := by
  induction results generalizing left outcome with
  | nil =>
    simp only [sendAllLoop] at returns
    split at returns
    · next done =>
      cases returns
      exact .inl ⟨rfl, done.symm⟩
    · cases returns
  | cons result results ih =>
    simp only [sendAllLoop] at returns
    split at returns
    · cases returns
    · cases result with
      | sent count =>
        dsimp only at returns
        split_ifs at returns with some_ last
        · obtain ⟨inner, later, rfl⟩ := Option.map_eq_some_iff.mp returns
          rcases ih later with ⟨code, wrote⟩ | closed | ⟨errno, member, rest⟩
          · refine .inl ⟨code, ?_⟩
            show left.take count ++ inner.wrote = left
            rw [wrote, List.take_append_drop]
          · exact .inr (.inl closed)
          · obtain ⟨other, code, connected, _⟩ := rest
            exact .inr (.inr ⟨errno, List.mem_cons_of_mem _ member, other, code, connected,
              fun _ => ⟨count, some_, List.mem_cons_self⟩⟩)
        · cases returns
          exact .inr (.inl ⟨rfl, rfl⟩)
      | error errno =>
        dsimp only at returns
        split_ifs at returns with interrupted last
        · rcases ih returns with whole | closed | ⟨stop, member, other, code, connected, wrote⟩
          · exact .inl whole
          · exact .inr (.inl closed)
          · refine .inr (.inr ⟨stop, List.mem_cons_of_mem _ member, other, code, connected, ?_⟩)
            intro something
            obtain ⟨count, positive, sent⟩ := wrote something
            exact ⟨count, positive, List.mem_cons_of_mem _ sent⟩
        · cases returns
          exact .inr (.inr ⟨errno, List.mem_cons_self, interrupted, rfl, rfl,
            fun some_ => absurd rfl some_⟩)

end TcpClient

/-- A fatal error is never reported as success. -/
theorem mapSockFailures_of_fatal {errno : Errno} (fatal : isFatalSendErr errno = true) :
    mapSockFailures (mapErr errno) = false := by
  cases errno <;> first | rfl | simp [isFatalSendErr] at fatal

/-- What one call of `send_all` can do to a connection. -/
theorem TcpClient.sendAll_cases {connected : Bool} {data : List UInt8} {results : List OsSend}
    {outcome : SendOutcome} (nonempty : data ≠ []) (small : data.length ≤ 2 ^ 31 - 1)
    (returns : sendAll connected data results = some outcome) :
    (connected = true ∧ outcome.code = .none ∧ outcome.wrote = data) ∨
      (mapSockFailures outcome.code = false ∧ outcome.connected = false) ∨
      (connected = true ∧ ∃ errno, .error errno ∈ results ∧ errno ≠ .eintr ∧
        outcome.code = mapErr errno ∧ outcome.connected = !isFatalSendErr errno ∧
        (outcome.wrote ≠ [] → ∃ count, 0 < count ∧ .sent count ∈ results)) := by
  have length : data.length ≠ 0 := fun zero => nonempty (List.eq_nil_of_length_eq_zero zero)
  cases connected with
  | false =>
    simp only [sendAll, refuses, Bool.not_false, ↓reduceIte] at returns
    split at returns
    · cases returns
      exact .inr (.inl ⟨rfl, rfl⟩)
    · cases returns
  | true =>
    simp only [sendAll, refuses, Bool.not_true, Bool.false_eq_true, ↓reduceIte, length,
      Nat.not_lt.mpr small] at returns
    rcases sendAllLoop_cases returns with whole | ⟨code, closed⟩ | stopped
    · exact .inl ⟨rfl, whole⟩
    · exact .inr (.inl ⟨by rw [code]; rfl, closed⟩)
    · exact .inr (.inr ⟨rfl, stopped⟩)

/-- If every error that may stop the call is reported, success means that everything was written. -/
theorem TcpClient.sendAll_success {connected : Bool} {data : List UInt8} {results : List OsSend}
    {outcome : SendOutcome} (nonempty : data ≠ []) (small : data.length ≤ 2 ^ 31 - 1)
    (returns : sendAll connected data results = some outcome)
    (reported : connected = true → ∀ errno, .error errno ∈ results →
      errno = .eintr ∨ mapSockFailures (mapErr errno) = false)
    (success : mapSockFailures outcome.code = true) : outcome.wrote = data := by
  rcases sendAll_cases nonempty small returns with
    ⟨_, _, wrote⟩ | ⟨failed, _⟩ | ⟨before, errno, member, other, code, _, _⟩
  · exact wrote
  · rw [failed] at success
    cases success
  · rw [code] at success
    rcases reported before errno member with rfl | failed
    · exact absurd rfl other
    · rw [failed] at success
      cases success

/-- What one call of `send` can do: report success for whatever was accepted, or fail without a
byte. -/
theorem TcpClient.send_cases (connected : Bool) (data : List UInt8) (result : OsSend) :
    (∃ count, 0 < count ∧ result = .sent count ∧
        send connected data result = ⟨.none, connected, data.take count⟩) ∨
      ((send connected data result).ok = false ∧ (send connected data result).wrote = []) := by
  unfold send
  split
  · next err refused =>
    refine .inr ⟨?_, rfl⟩
    unfold refuses at refused
    split_ifs at refused <;> cases refused <;> rfl
  · cases result with
    | sent count =>
      dsimp only
      split
      · next positive => exact .inl ⟨count, positive, rfl, rfl⟩
      · exact .inr ⟨rfl, rfl⟩
    | error errno =>
      refine .inr ⟨?_, rfl⟩
      simpa [SendOutcome.ok] using mapErr_ne_none errno

namespace Frame

variable (myId : NodeId)

theorem length_connect : (Frame.connect.bytes myId).length = 28 := LabelHeader.length_bytes _

theorem length_ping : (Frame.ping.bytes myId).length = 28 := LabelHeader.length_bytes _

theorem length_label (message : LabelMessage) :
    ((Frame.label message).bytes myId).length = 28 + message.payload.length := by
  simp [Frame.bytes, sizeofLabelHeader]

theorem bytes_ne_nil (frame : Frame) : frame.bytes myId ≠ [] := by
  intro empty
  have length := congrArg List.length empty
  cases frame with
  | connect => rw [length_connect] at length; cases length
  | ping => rw [length_ping] at length; cases length
  | label message => rw [length_label] at length; simp at length

end Frame

namespace Connection

variable {conn : Connection}

/-- The stream is the connecting side's id followed by complete frames. -/
def Complete (conn : Connection) : Prop :=
  ∃ frames : List Frame, (∀ frame ∈ frames, frame ≠ .connect) ∧
    conn.written = (if conn.connecting then Frame.connect.bytes conn.myId else []) ++
      frames.flatMap (Frame.bytes conn.myId)

/-- As long as the connection is in use its stream is complete, and a call that reported success
wrote its whole frame. -/
structure Framed (conn : Connection) : Prop where
  complete : conn.phase = .registered → conn.connected = true → conn.Complete
  honest : ∀ call ∈ conn.calls, call.success = true → call.wrote = call.frame.bytes conn.myId

/-- No `::send` of the call cuts a frame, or stops one before its first byte, with a result that the
caller takes for success or after which the connection stays in use. For a label that is any short
count; for a ping an error that is not fatal, unless nothing was sent and the error is one that is
reported; for the id an error that is not reported. -/
def Uncut (conn : Connection) : Action → Prop
  | .sendId results => conn.phase = .opening → conn.connected = true →
      ∀ errno, .error errno ∈ results → errno = .eintr ∨ mapSockFailures (mapErr errno) = false
  | .sendPing results => conn.phase = .registered → conn.connected = true →
      ∀ errno, .error errno ∈ results → errno = .eintr ∨ isFatalSendErr errno = true ∨
        (mapSockFailures (mapErr errno) = false ∧ ∀ count, .sent count ∈ results → count = 0)
  | .sendOne message (.sent count) => conn.phase = .registered → conn.connected = true →
      count = 0 ∨ ((Frame.label message).bytes conn.myId).length ≤ count
  | .sendOne _ (.error _) => True
  | .disconnect => True

/-- The invariant of a run: besides the frames, that nothing precedes the id. -/
structure Inv (conn : Connection) : Prop extends Framed conn where
  unopened : conn.phase = .opening → conn.connecting = true ∧ conn.written = []

theorem Inv.opened (myId : NodeId) : Inv (opened myId) where
  complete registered := by cases registered
  honest _ member := by cases member
  unopened _ := ⟨rfl, rfl⟩

theorem Inv.accepted (myId : NodeId) : Inv (accepted myId) where
  complete _ _ := ⟨[], by simp, rfl⟩
  honest _ member := by cases member
  unopened opening := by cases opening

/-- The record of calls stays honest if the new call is. -/
theorem Framed.honest_concat (framed : Framed conn) {call : SendCall}
    (whole : call.success = true → call.wrote = call.frame.bytes conn.myId) :
    ∀ other ∈ conn.calls ++ [call], other.success = true →
      other.wrote = other.frame.bytes conn.myId := by
  intro other member reported
  rcases List.mem_append.mp member with earlier | new
  · exact framed.honest other earlier reported
  · rw [List.mem_singleton.mp new] at reported ⊢
    exact whole reported

/-- Appending a complete frame keeps the stream complete. -/
theorem Complete.append (complete : conn.Complete) {frame : Frame} (later : frame ≠ .connect)
    {after : Connection} (id : after.myId = conn.myId) (side : after.connecting = conn.connecting)
    (written : after.written = conn.written ++ frame.bytes conn.myId) : after.Complete := by
  obtain ⟨frames, noId, stream⟩ := complete
  refine ⟨frames ++ [frame], ?_, ?_⟩
  · intro other member
    rcases List.mem_append.mp member with old | new
    · exact noId other old
    · rw [List.mem_singleton.mp new]
      exact later
  · rw [written, stream, id, side, List.flatMap_append, List.flatMap_singleton, List.append_assoc]

/-- A call that wrote nothing or gave the connection up keeps the invariant of a registered
connection. -/
theorem Inv.record (inv : Inv conn) (registered : conn.phase = .registered) {frame : Frame}
    (later : frame ≠ .connect) {outcome : SendOutcome} {success : Bool}
    (alive : outcome.connected = true → conn.connected = true ∧
      (outcome.wrote = [] ∨ outcome.wrote = frame.bytes conn.myId))
    (whole : success = true → outcome.wrote = frame.bytes conn.myId) :
    Inv (conn.record frame outcome success) where
  complete _ connected := by
    obtain ⟨before, nothing | everything⟩ := alive connected
    · obtain ⟨frames, noId, stream⟩ := inv.complete registered before
      exact ⟨frames, noId, by simp only [Connection.record, nothing, List.append_nil]; exact stream⟩
    · exact (inv.complete registered before).append later rfl rfl
        (by simp only [Connection.record, everything])
  honest := inv.toFramed.honest_concat whole
  unopened opening := by
    change conn.phase = .opening at opening
    rw [registered] at opening
    cases opening

theorem Inv.sendPing (inv : Inv conn) {results : List OsSend}
    (uncut : conn.Uncut (.sendPing results)) : Inv (conn.sendPing results) := by
  unfold Connection.sendPing
  split
  · exact inv
  · next phase =>
    have registered : conn.phase = .registered := not_not.mp phase
    split
    · exact inv
    · next outcome returns =>
      have short : (Frame.ping.bytes conn.myId).length ≤ 2 ^ 31 - 1 := by
        rw [Frame.length_ping]
        decide
      apply inv.record registered (by decide)
      · intro connected
        rcases TcpClient.sendAll_cases (Frame.bytes_ne_nil _ _) short returns with
          ⟨before, _, wrote⟩ | ⟨_, closed⟩ | ⟨before, errno, member, other, _, still, some_⟩
        · exact ⟨before, .inr wrote⟩
        · rw [closed] at connected
          cases connected
        · -- The error is not fatal, so nothing was sent.
          rw [still, Bool.not_eq_true'] at connected
          rcases uncut registered before errno member with rfl | fatal | ⟨_, nothing⟩
          · exact absurd rfl other
          · rw [connected] at fatal
            cases fatal
          · refine ⟨before, .inl ?_⟩
            by_contra something
            obtain ⟨count, positive, sent⟩ := some_ something
            exact absurd (nothing count sent) (Nat.ne_of_gt positive)
      · refine TcpClient.sendAll_success (Frame.bytes_ne_nil _ _) short returns ?_
        intro before errno member
        rcases uncut registered before errno member with interrupted | fatal | ⟨reported, _⟩
        · exact .inl interrupted
        · exact .inr (mapSockFailures_of_fatal fatal)
        · exact .inr reported

theorem Inv.sendOne (inv : Inv conn) {message : LabelMessage} {result : OsSend}
    (uncut : conn.Uncut (.sendOne message result)) : Inv (conn.sendOne message result) := by
  unfold Connection.sendOne
  split
  · exact inv
  · next phase =>
    have registered : conn.phase = .registered := not_not.mp phase
    split
    · next dead =>
      refine ⟨⟨inv.complete, inv.toFramed.honest_concat ?_⟩, inv.unopened⟩
      intro success
      cases success
    · next alive =>
      have connected : conn.connected = true := by simpa using alive
      rcases TcpClient.send_cases conn.connected ((Frame.label message).bytes conn.myId) result with
        ⟨count, positive, rfl, sent⟩ | ⟨failed, nothing⟩
      · -- A positive count is taken for success; the condition says that it is the whole frame.
        have full : ((Frame.label message).bytes conn.myId).length ≤ count :=
          (uncut registered connected).resolve_left (Nat.ne_of_gt positive)
        have everything := List.take_of_length_le full
        rw [sent]
        exact inv.record registered (by simp) (fun _ => ⟨connected, .inr everything⟩)
          (fun _ => everything)
      · apply inv.record registered (by simp)
        · exact fun _ => ⟨connected, .inl nothing⟩
        · intro success
          rw [failed] at success
          cases success

theorem Inv.sendId (inv : Inv conn) {results : List OsSend}
    (uncut : conn.Uncut (.sendId results)) : Inv (conn.sendId results) := by
  unfold Connection.sendId
  split
  · exact inv
  · next phase =>
    have opening : conn.phase = .opening := not_not.mp phase
    obtain ⟨connecting, empty⟩ := inv.unopened opening
    split
    · exact inv
    · next outcome returns =>
      have whole : mapSockFailures outcome.code = true →
          outcome.wrote = Frame.connect.bytes conn.myId :=
        TcpClient.sendAll_success (Frame.bytes_ne_nil _ _) (by rw [Frame.length_connect]; decide)
          returns (uncut opening)
      refine ⟨⟨?_, inv.toFramed.honest_concat whole⟩, ?_⟩
      · intro registered _
        have success : mapSockFailures outcome.code = true := by
          by_contra failed
          simp only [failed, ↓reduceIte] at registered
          cases registered
        refine ⟨[], by simp, ?_⟩
        show conn.written ++ outcome.wrote =
          (if conn.connecting then Frame.connect.bytes conn.myId else []) ++ []
        rw [empty, whole success, connecting, if_pos rfl, List.nil_append, List.append_nil]
      · intro again
        dsimp only at again
        split at again <;> cases again

theorem Inv.step (conn : Connection) (action : Action) (inv : Inv conn) (uncut : conn.Uncut action) :
    Inv (conn.step action) := by
  cases action with
  | sendId results => exact inv.sendId uncut
  | sendPing results => exact inv.sendPing uncut
  | sendOne message result => exact inv.sendOne uncut
  | disconnect =>
    refine ⟨⟨?_, inv.honest⟩, inv.unopened⟩
    intro _ connected
    cases connected

/-- On either side of a connection, every run in which no frame is cut unnoticed keeps the stream
parseable while the connection is in use, and every success is a whole frame. -/
theorem stream_framed (myId : NodeId) (source conn : Connection)
    (fresh : source = opened myId ∨ source = accepted myId)
    (run : Reaches step Uncut source conn) : Framed conn := by
  have start : Inv source := by
    rcases fresh with rfl | rfl
    · exact .opened myId
    · exact .accepted myId
  exact (run.invariant Inv start fun conn action inv uncut => inv.step conn action uncut).toFramed

/-- An id that is interrupted and then sent in two parts, a ping, and a label sent at once. -/
def goodCalls : List Action :=
  [.sendId [.error .eintr, .sent 10, .sent 18], .sendPing [.sent 28],
    .sendOne ⟨5, 0, [1, 2, 3, 4]⟩ (.sent 32)]

theorem stream_framed_good : Framed (goodCalls.foldl step (opened 3)) ∧
    (goodCalls.foldl step (opened 3)).written.length = 88 := by
  refine ⟨stream_framed 3 (opened 3) _ (.inl rfl) (Reaches.foldl goodCalls ?_ _), by decide +kernel⟩
  intro action member conn
  simp only [goodCalls, List.mem_cons, List.not_mem_nil, or_false] at member
  rcases member with rfl | rfl | rfl
  · intro _ _ errno member
    simp only [List.mem_cons, OsSend.error.injEq, reduceCtorEq, List.not_mem_nil, or_false] at member
    exact .inl member
  · intro _ _ errno member
    simp at member
  · intro _ _
    exact .inr (Nat.le_of_eq (Frame.length_label _ _))

/-- Ten bytes of a label are accepted: the call reports success, the connection stays in use, and
ten bytes are no sequence of frames. -/
theorem short_send_cuts_frame :
    let conn := (accepted 3).step (.sendOne ⟨5, 0, [1, 2, 3, 4]⟩ (.sent 10))
    conn.phase = .registered ∧ conn.connected = true ∧ conn.written.length = 10 ∧
      ¬ conn.Complete ∧ (conn.calls.map fun call => call.success) = [true] := by
  intro conn
  have length : conn.written.length = 10 := by decide +kernel
  refine ⟨rfl, rfl, length, ?_, by decide +kernel⟩
  rintro ⟨frames, _, stream⟩
  have short := congrArg List.length stream
  rw [length] at short
  cases frames with
  | nil => cases short
  | cons frame rest =>
    have long : 28 ≤ (frame.bytes conn.myId).length := by
      cases frame with
      | connect => exact Nat.le_of_eq (Frame.length_connect _).symm
      | ping => exact Nat.le_of_eq (Frame.length_ping _).symm
      | label message => rw [Frame.length_label]; exact Nat.le_add_right _ _
    rw [List.flatMap_cons, List.length_append, List.length_append] at short
    omega

end Connection

end Eroil
