import Eroil.Model.LabelHeader
import Eroil.Model.Socket.TcpClient

/-! # The receiving side of one connection

`workers/socket_recv_worker.cpp` over `TCPClient::recv_all`. The operating system is an argument:
the results of the `::recv` calls, in order. A call for which there is no result yet blocks, and the
worker with it.
-/

namespace Eroil

/-- One return of `::recv`: bytes that have arrived, none of them at the end of the stream, or an
error. Bytes beyond the size that was asked for are left for the next call. -/
inductive OsRecv where
  | received (bytes : List UInt8)
  | error (errno : Errno)
deriving DecidableEq

/-- What a call leaves behind: its error code, `m_connected`, the bytes it put at the start of the
buffer, whose number is the byte count of the `SockResult`, and the results it did not need. -/
structure RecvOutcome where
  code : SockErr
  connected : Bool
  got : List UInt8
  rest : List OsRecv
deriving DecidableEq

namespace TcpClient

/-- The loop of `TCPClient::recv_all` over the bytes that are missing; `none` when it blocks. -/
def recvAllLoop : ℕ → List OsRecv → Option RecvOutcome
  | 0, results => some ⟨.none, true, [], results⟩
  | _ + 1, [] => none
  | missing + 1, .received bytes :: results =>
      if bytes = [] then some ⟨.closed, false, [], results⟩
      else if missing + 1 < bytes.length then
        some ⟨.none, true, bytes.take (missing + 1), .received (bytes.drop (missing + 1)) :: results⟩
      else
        (recvAllLoop (missing + 1 - bytes.length) results).map fun outcome =>
          { outcome with got := bytes ++ outcome.got }
  | missing + 1, .error errno :: results =>
      if errno = .eintr then recvAllLoop (missing + 1) results
      else some ⟨mapErr errno, true, [], results⟩

/-- `TCPClient::recv_all`. -/
def recvAll (connected : Bool) (size : ℕ) (results : List OsRecv) : Option RecvOutcome :=
  if !connected then some ⟨.notConnected, connected, [], results⟩
  else if size = 0 then some ⟨.sizeZero, connected, [], results⟩
  else if size > 2 ^ 31 - 1 then some ⟨.sizeTooLarge, connected, [], results⟩
  else recvAllLoop size results

end TcpClient

/-- What `recv_exact` leaves behind: its result, the memory it was given and the rest as above. -/
structure ExactOutcome where
  success : Bool
  dst : List UInt8
  connected : Bool
  rest : List OsRecv

/-- The worker with its two buffers; `dispatched` holds the calls of `distribute_recvd_label`. -/
structure SocketRecvWorker where
  hdr : List UInt8
  payload : List UInt8
  connected : Bool
  stop : Bool
  dispatched : List Dispatch
deriving DecidableEq

/-- How a pass through the loop of `run` ends. -/
inductive Round where
  | again (worker : SocketRecvWorker) (rest : List OsRecv)
  | exits (worker : SocketRecvWorker)
  | blocks (worker : SocketRecvWorker)

namespace SocketRecvWorker

/-- The worker as `start` launches it on a connected socket. -/
def start : SocketRecvWorker :=
  ⟨LabelHeader.bytes ⟨0, 0, invalidNode, 0, invalidLabel, 0, 0⟩, [], true, false, []⟩

/-- `SocketRecvWorker::recv_exact`; a call that would block counts as a success. -/
def recvExact (stop connected : Bool) (dst : List UInt8) (size : ℕ) (results : List OsRecv) :
    Option ExactOutcome :=
  if stop then some ⟨false, dst, connected, results⟩
  else
    (TcpClient.recvAll connected size results).map fun result =>
      let success :=
        match result.code with
        | .none => 0 < result.got.length
        | .wouldBlock => true
        | _ => false
      ⟨success, result.got ++ dst.drop result.got.length, result.connected, result.rest⟩

/-- `SocketRecvWorker::disconnect_and_stop`. -/
def disconnectAndStop (worker : SocketRecvWorker) : SocketRecvWorker :=
  if worker.stop then worker else { worker with stop := true, connected := false }

/-- `payload.resize`: bytes are kept as far as they fit, new ones are zero. -/
def resize (payload : List UInt8) (size : ℕ) : List UInt8 :=
  payload.take size ++ List.replicate (size - payload.length) 0

/-- The part of the loop after the header has been accepted as data. -/
def recvPayload (worker : SocketRecvWorker) (hdr : LabelHeader) (results : List OsRecv) : Round :=
  let payload := resize worker.payload hdr.labelSize
  match recvExact worker.stop worker.connected payload payload.length results with
  | none => .blocks { worker with payload := payload }
  | some outcome =>
      let worker := { worker with payload := outcome.dst, connected := outcome.connected }
      if !outcome.success then .exits worker
      else if worker.stop then .exits worker
      else
        .again { worker with
          dispatched := worker.dispatched ++
            [⟨hdr.sourceId, hdr.label, worker.payload, hdr.recvOffset⟩] } outcome.rest

/-- The checks on a header that was read. -/
def handleHeader (worker : SocketRecvWorker) (hdr : LabelHeader) (results : List OsRecv) : Round :=
  if hdr.magic ≠ magicNum ∨ hdr.version ≠ version then .exits worker.disconnectAndStop
  else if hdr.labelSize > maxLabelSize then .exits worker.disconnectAndStop
  else if hdr.labelSize ≤ 0 ∧ hasFlag hdr.flags .data then .exits worker.disconnectAndStop
  else if !hasFlag hdr.flags .data then
    if hasFlag hdr.flags .ping then .again worker results else .exits worker.disconnectAndStop
  else worker.recvPayload hdr results

/-- One pass through the loop of `SocketRecvWorker::run`. -/
def round (worker : SocketRecvWorker) (results : List OsRecv) : Round :=
  if worker.stop then .exits worker
  else if !worker.connected then .exits worker
  else
    match recvExact worker.stop worker.connected worker.hdr sizeofLabelHeader results with
    | none => .blocks worker
    | some outcome =>
        let worker := { worker with hdr := outcome.dst, connected := outcome.connected }
        if !outcome.success then .exits worker
        else if worker.stop then .exits worker
        else worker.handleHeader (LabelHeader.ofBytes worker.hdr) outcome.rest

end SocketRecvWorker

/-- What is left to be returned by `::recv`: every result counts, and every byte in it. -/
def pending : List OsRecv → ℕ
  | [] => 0
  | .received bytes :: results => bytes.length + 1 + pending results
  | .error _ :: results => 1 + pending results

namespace TcpClient

private theorem recvAllLoop_pending {missing : ℕ} {results : List OsRecv} {outcome : RecvOutcome}
    (returns : recvAllLoop (missing + 1) results = some outcome) :
    pending outcome.rest < pending results := by
  induction results generalizing missing outcome with
  | nil => cases returns
  | cons result results ih =>
    cases result with
    | received bytes =>
      rw [recvAllLoop] at returns
      split_ifs at returns with closed longer
      · cases returns
        simp only [pending]
        omega
      · cases returns
        simp only [pending, List.length_drop]
        omega
      · obtain ⟨inner, ran, rfl⟩ := Option.map_eq_some_iff.mp returns
        cases left : missing + 1 - bytes.length with
        | zero =>
          rw [left, recvAllLoop] at ran
          cases ran
          simp only [pending]
          omega
        | succ left' =>
          rw [left] at ran
          have shorter := ih ran
          simp only [pending]
          omega
    | error errno =>
      rw [recvAllLoop] at returns
      split_ifs at returns with interrupted
      · have shorter := ih returns
        simp only [pending]
        omega
      · cases returns
        simp only [pending]
        omega

end TcpClient

namespace SocketRecvWorker

/-- A read that succeeds consumes something. -/
theorem recvExact_pending {stop connected : Bool} {dst : List UInt8} {size : ℕ}
    {results : List OsRecv} {outcome : ExactOutcome}
    (returns : recvExact stop connected dst size results = some outcome) (success : outcome.success) :
    pending outcome.rest < pending results := by
  rw [recvExact] at returns
  split_ifs at returns
  · cases returns
    cases success
  · obtain ⟨result, ran, rfl⟩ := Option.map_eq_some_iff.mp returns
    rw [TcpClient.recvAll] at ran
    split_ifs at ran
    · cases ran
      cases success
    · cases ran
      cases success
    · cases ran
      cases success
    · cases size with
      | zero => contradiction
      | succ missing => exact TcpClient.recvAllLoop_pending ran

private theorem recvPayload_pending {worker next : SocketRecvWorker} {hdr : LabelHeader}
    {results rest : List OsRecv} (goes : worker.recvPayload hdr results = .again next rest) :
    pending rest < pending results := by
  simp only [recvPayload] at goes
  split at goes
  · cases goes
  · next outcome ran =>
    split_ifs at goes with failed
    cases goes
    exact recvExact_pending ran (by simpa using failed)

private theorem handleHeader_pending {worker next : SocketRecvWorker} {hdr : LabelHeader}
    {results rest : List OsRecv} (goes : worker.handleHeader hdr results = .again next rest) :
    pending rest ≤ pending results := by
  rw [handleHeader] at goes
  split_ifs at goes
  · cases goes
    exact le_rfl
  · exact le_of_lt (recvPayload_pending goes)

private theorem round_pending {worker next : SocketRecvWorker} {results rest : List OsRecv}
    (goes : worker.round results = .again next rest) : pending rest < pending results := by
  simp only [round] at goes
  split_ifs at goes
  split at goes
  · cases goes
  · next outcome ran =>
    split_ifs at goes with failed
    calc
      pending rest ≤ pending outcome.rest := handleHeader_pending goes
      _ < pending results := recvExact_pending ran (by simpa using failed)

/-- How `run` ends for good: it has left the loop, or it is blocked in `::recv`. -/
inductive Ending where
  | exited (worker : SocketRecvWorker)
  | blocked (worker : SocketRecvWorker)

/-- `SocketRecvWorker::run`. Every pass through the loop that goes on has consumed some result. -/
def run (worker : SocketRecvWorker) (results : List OsRecv) : Ending :=
  match _goes : worker.round results with
  | .exits worker => .exited worker
  | .blocks worker => .blocked worker
  | .again worker rest => run worker rest
termination_by pending results
decreasing_by exact round_pending _goes

end SocketRecvWorker

end Eroil
