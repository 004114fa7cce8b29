import Mathlib.Logic.Function.Basic
import Eroil.Model.Router.Router

/-! # Keeping one remote peer connected

`comm/connection_manager.cpp`, `router/transport_registry.cpp` and `workers/socket_recv_worker.cpp`,
for one peer. The TCP server and the connection monitor both replace the registered socket and start
a receive worker for it; only the socket registry is locked, so the two threads interleave between
any two of their calls. A socket registered for the peer carries the peer's id, so the id check of
`ping_remote_peer` always passes.
-/

namespace Eroil

/-- A `SocketRecvWorker` in `m_sock_recvrs`; its entry outlives its thread. -/
structure RecvWorker where
  sock : Option SockRef
  running : Bool
deriving DecidableEq

/-- Where `run_tcp_server` is with a client of this peer. -/
inductive ServerPc where
  | idle
  /-- The client sent its id; next `upsert_socket`. -/
  | accepted (client : SockRef)
  /-- Next the lookup of `start_remote_recv_worker`. -/
  | starting
  /-- No worker was found; next the worker is created and started. -/
  | creating
deriving DecidableEq

/-- Where `remote_connection_monitor` is with this peer. -/
inductive MonitorPc where
  | idle
  /-- `get_socket` returned this socket; next the ping. -/
  | pinging (client : SockRef)
  /-- The socket is dead; next `disconnect`. -/
  | dead (client : SockRef)
  /-- Next `stop_remote_recv_worker`. -/
  | stopping
  /-- At the start of `connect_to_remote_peer`. -/
  | connecting
  /-- Connected and the id is sent; next `upsert_socket`. -/
  | upserting (client : SockRef)
  | starting
  | creating
deriving DecidableEq

/-- Why the thread of a receive worker ends. -/
inductive WorkerExit where
  /-- The loop finds the socket disconnected. -/
  | sawDisconnect
  /-- `recv` returned zero, which clears `m_connected`. -/
  | peerClosed
  /-- A header that makes no sense: the worker disconnects the socket. -/
  | badHeader
  /-- `recv` failed with an error, or an exception was thrown. -/
  | failed
deriving DecidableEq

/-- The peer as this node sees it. Sockets are numbered as they are created. -/
structure Peer where
  /-- This node connects to the peer; otherwise the peer connects to it. -/
  initiates : Bool
  nextSock : SockRef
  connected : SockRef → Bool
  registered : Option SockRef
  worker : Option RecvWorker
  server : ServerPc
  monitor : MonitorPc

namespace Peer

def initial (initiates : Bool) : Peer := ⟨initiates, 0, fun _ => false, none, none, .idle, .idle⟩

/-- `TCPSocket::disconnect`, or `m_connected` cleared by a failed send or receive. -/
def disconnect (peer : Peer) (sock : SockRef) : Peer :=
  { peer with connected := Function.update peer.connected sock false }

/-- A new connected socket. -/
def newSocket (peer : Peer) : SockRef × Peer :=
  (peer.nextSock, { peer with
    nextSock := peer.nextSock + 1
    connected := Function.update peer.connected peer.nextSock true })

/-- `TransportRegistry::upsert_socket`: the old socket is disconnected and replaced. -/
def upsertSocket (peer : Peer) (sock : SockRef) : Peer :=
  match peer.registered with
  | none => { peer with registered := some sock }
  | some old => { peer.disconnect old with registered := some sock }

/-- The second half of `start_remote_recv_worker`. If an entry has appeared meanwhile, `emplace`
keeps it and its thread is already started. -/
def createWorker (peer : Peer) : Peer :=
  match peer.worker with
  | some _ => peer
  | none => { peer with worker := some ⟨peer.registered, true⟩ }

/-- `stop_remote_recv_worker`; it returns when the thread has ended. -/
def stopWorker (peer : Peer) : Peer := { peer with worker := none }

/-- The next step of the server thread. -/
def serverStep (peer : Peer) : Peer :=
  match peer.server with
  | .idle => peer
  | .accepted client => { peer.upsertSocket client with server := .starting }
  | .starting => { peer with server := if peer.worker.isSome then .idle else .creating }
  | .creating => { peer.createWorker with server := .idle }

/-- The next step of the monitor thread. The outcome is that of the ping or of the connection
attempt with its id message. -/
def monitorStep (peer : Peer) (outcome : Bool) : Peer :=
  match peer.monitor with
  | .idle => peer
  | .pinging client =>
      { peer with monitor := if peer.connected client && outcome then .idle else .dead client }
  | .dead client => { peer.disconnect client with monitor := .stopping }
  | .stopping => { peer.stopWorker with monitor := .connecting }
  | .connecting =>
      if peer.initiates && outcome then
        let (client, peer) := peer.newSocket
        { peer with monitor := .upserting client }
      else { peer with monitor := .idle }
  | .upserting client => { peer.upsertSocket client with monitor := .starting }
  | .starting => { peer with monitor := if peer.worker.isSome then .idle else .creating }
  | .creating => { peer.createWorker with monitor := .idle }

/-- The thread of the worker ends, if it can for this reason. -/
def workerExits (peer : Peer) (reason : WorkerExit) : Peer :=
  match peer.worker with
  | some ⟨some sock, true⟩ =>
      match reason with
      | .sawDisconnect =>
          if peer.connected sock then peer else { peer with worker := some ⟨some sock, false⟩ }
      | .peerClosed => { peer.disconnect sock with worker := some ⟨some sock, false⟩ }
      | .badHeader => { peer.disconnect sock with worker := some ⟨some sock, false⟩ }
      | .failed => { peer with worker := some ⟨some sock, false⟩ }
  | _ => peer

inductive Action where
  /-- The peer connects, and the idle server accepts it and reads its id. -/
  | accept
  | server
  /-- The idle monitor comes to the peer and asks for its socket. -/
  | visit
  | monitor (outcome : Bool)
  /-- A send or a receive finds the connection dead. -/
  | connectionDies (sock : SockRef)
  | workerExits (reason : WorkerExit)

def step (peer : Peer) : Action → Peer
  | .accept =>
      if peer.server = .idle then
        let (client, peer) := peer.newSocket
        { peer with server := .accepted client }
      else peer
  | .server => peer.serverStep
  | .visit =>
      if peer.monitor = .idle then
        { peer with
          monitor :=
            match peer.registered with
            | none => .connecting
            | some client => .pinging client }
      else peer
  | .monitor outcome => peer.monitorStep outcome
  | .connectionDies sock => peer.disconnect sock
  | .workerExits reason => peer.workerExits reason

end Peer

end Eroil
