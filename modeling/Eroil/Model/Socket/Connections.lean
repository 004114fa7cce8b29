import Eroil.Model.Socket.Connection
import Eroil.Model.Socket.Peer
import Eroil.Model.Socket.RecvWorker

/-! # The remote connections of a node

`comm/connection_manager.cpp` with the socket registry of `router/transport_registry.cpp`, for all
peers at once. One thread is the TCP server. Another makes the first connections of `start` and goes
on as the connection monitor, so that it is one thread too. A step is one call on a shared object; a
socket that only one thread knows is handled in one step. The peer list is what `get_peer_set`
returned.
-/

namespace Eroil

/-- `sock::TCPClient`, with `is_connected()`. -/
structure TcpSocket where
  connected : Bool
  destId : NodeId
deriving DecidableEq

/-- What `run_tcp_server` makes of the message that a new client sends first. -/
inductive Greeting where
  | blocks
  /-- `recv_all` failed, the header is not one of ours, or it is no connection request. -/
  | refused
  | accepted (id : NodeId) (rest : List OsRecv)
deriving DecidableEq

/-- The part of `run_tcp_server` that reads the header of a client. -/
def greet (connected : Bool) (results : List OsRecv) : Greeting :=
  match TcpClient.recvAll connected sizeofLabelHeader results with
  | none => .blocks
  | some result =>
      if result.code ≠ .none then .refused
      else
        let hdr := LabelHeader.ofBytes result.got
        if hdr.magic ≠ magicNum ∨ hdr.version ≠ version then .refused
        else if !hasFlag hdr.flags .connect then .refused
        else .accepted hdr.sourceId result.rest

/-- Where the thread of `run_tcp_server` is. -/
inductive TcpServerPc where
  /-- Before `open_and_listen`; a server that cannot listen stays here. -/
  | closed
  /-- In `accept`. -/
  | listening
  /-- In `recv_all` for the header of a client. -/
  | greeting (client : SockRef)
  /-- Next `upsert_socket`. -/
  | accepted (client : SockRef) (id : NodeId)
  /-- Next the lookup of `start_remote_recv_worker`. -/
  | starting (id : NodeId)
  /-- Next the worker is created and started. -/
  | creating (id : NodeId)
deriving DecidableEq

/-- What the connecting thread runs: a pass of `initial_remote_connection`, with the peers found
connected in it, or `remote_connection_monitor`. -/
inductive ConnectorPhase where
  | initial (attempts connected : ℕ)
  | monitor
  /-- The monitor had nothing to monitor. -/
  | exited
deriving DecidableEq

/-- The connecting thread: the peers that are still to come in this pass, and where it is with the
one it has come to. -/
structure Connector where
  phase : ConnectorPhase
  left : List NodeId
  peer : NodeId
  pc : MonitorPc
deriving DecidableEq

/-- `max_attempts` of `initial_remote_connection`. -/
def maxAttempts : ℕ := 5

namespace Connector

/-- The monitor takes over. -/
def monitors (connector : Connector) (remote : List NodeId) : Connector :=
  { connector with phase := if remote = [] then .exited else .monitor, left := remote }

/-- The end of a pass over the peers. -/
def endOfPass (connector : Connector) (connectTo remote : List NodeId) : Connector :=
  match connector.phase with
  | .initial attempts connected =>
      if connected ≥ connectTo.length then connector.monitors remote
      else if attempts + 1 < maxAttempts then
        { connector with phase := .initial (attempts + 1) 0, left := connectTo }
      else connector.monitors remote
  | .monitor => { connector with left := remote }
  | .exited => connector

/-- The thread is through with its peer, which `initial_remote_connection` counts if it is
connected. -/
def done (connector : Connector) (counts : Bool) : Connector :=
  { connector with
    phase :=
      match connector.phase with
      | .initial attempts connected => .initial attempts (if counts then connected + 1 else connected)
      | phase => phase
    pc := .idle }

/-- The thread comes to the next peer and asks the registry for its socket. -/
def visit (connector : Connector) (id : NodeId) (rest : List NodeId) (socket : Option SockRef) :
    Connector :=
  match connector.phase, socket with
  | .exited, _ => connector
  | .initial _ _, some _ => { connector with left := rest }.done true
  | _, none => { connector with left := rest, peer := id, pc := .connecting }
  | .monitor, some client => { connector with left := rest, peer := id, pc := .pinging client }

end Connector

/-- The connecting side of a node. Sockets are numbered as they are created. -/
structure Connections where
  myId : NodeId
  remote : List NodeId
  connectTo : List NodeId
  sockets : List TcpSocket
  /-- `m_sockets`. -/
  registry : NodeId → Option SockRef
  /-- `m_sock_recvrs`. -/
  recvrs : NodeId → Option RecvWorker
  server : TcpServerPc
  connector : Connector

namespace Connections

/-- `ConnectionManager::start` when the server thread has been created. -/
def initial (myId : NodeId) (remote connectTo : List NodeId) : Connections where
  myId := myId
  remote := remote
  connectTo := connectTo
  sockets := []
  registry _ := none
  recvrs _ := none
  server := .closed
  connector := ⟨.initial 0 0, connectTo, myId, .idle⟩

/-- A socket changes. -/
def modifySocket (conns : Connections) (sock : SockRef) (change : TcpSocket → TcpSocket) :
    Connections :=
  { conns with sockets := conns.sockets.modify sock change }

/-- `TCPSocket::disconnect`, or `m_connected` cleared by a failed send or receive. -/
def disconnect (conns : Connections) (sock : SockRef) : Connections :=
  conns.modifySocket sock fun socket => { socket with connected := false }

def isConnected (conns : Connections) (sock : SockRef) : Bool :=
  (conns.sockets[sock]?.map (·.connected)).getD false

/-- `TransportRegistry::upsert_socket`. -/
def upsertSocket (conns : Connections) (id : NodeId) (sock : SockRef) : Connections :=
  let conns :=
    match conns.registry id with
    | none => conns
    | some old => conns.disconnect old
  { conns with registry := Function.update conns.registry id (some sock) }

/-- The second half of `start_remote_recv_worker`: the worker takes the socket that is registered,
and an entry that has appeared meanwhile is kept. -/
def createWorker (conns : Connections) (id : NodeId) : Connections :=
  match conns.recvrs id with
  | some _ => conns
  | none =>
      { conns with recvrs := Function.update conns.recvrs id (some ⟨conns.registry id, true⟩) }

/-- `stop_remote_recv_worker`. -/
def stopWorker (conns : Connections) (id : NodeId) : Connections :=
  { conns with recvrs := Function.update conns.recvrs id none }

/-- The server thread reads the header of its client. -/
def serverGreets (conns : Connections) (client : SockRef) (results : List OsRecv) : Connections :=
  match greet (conns.isConnected client) results with
  | .blocks => conns
  | .refused => { conns.disconnect client with server := .listening }
  | .accepted id _ =>
      { conns.modifySocket client fun socket => { socket with destId := id } with
        server := .accepted client id }

/-- The server thread registers its client and starts the worker. -/
def serverStep (conns : Connections) : Connections :=
  match conns.server with
  | .closed => conns
  | .listening => conns
  | .greeting _ => conns
  | .accepted client id => { conns.upsertSocket id client with server := .starting id }
  | .starting id =>
      { conns with server := if (conns.recvrs id).isSome then .listening else .creating id }
  | .creating id => { conns.createWorker id with server := .listening }

/-- The connecting thread ends a pass, or comes to the next peer. -/
def nextPeer (conns : Connections) : Connections :=
  { conns with
    connector :=
      match conns.connector.left with
      | [] => conns.connector.endOfPass conns.connectTo conns.remote
      | id :: rest => conns.connector.visit id rest (conns.registry id) }

/-- The start of `connect_to_remote_peer`, up to `set_destination_id`. The socket is opened
and connected, or not, and then the id is sent. A socket that is given up is destroyed with
its object. -/
def connectPeer (conns : Connections) (link : Option (List OsSend)) : Connections :=
  let id := conns.connector.peer
  if id ≥ conns.myId then { conns with connector := conns.connector.done false }
  else
    match link with
    | none =>
        { conns with
          sockets := conns.sockets ++ [⟨false, invalidNode⟩]
          connector := conns.connector.done false }
    | some results =>
        match TcpClient.sendAll true (Frame.connect.bytes conns.myId) results with
        | none => conns
        | some outcome =>
            if mapSockFailures outcome.code then
              { conns with
                sockets := conns.sockets ++ [⟨outcome.connected, id⟩]
                connector := { conns.connector with pc := .upserting conns.sockets.length } }
            else
              { conns with
                sockets := conns.sockets ++ [⟨false, invalidNode⟩]
                connector := conns.connector.done false }

/-- The start of `ping_remote_peer`. -/
def pingPeer (conns : Connections) (client : SockRef) (results : List OsSend) : Connections :=
  let id := conns.connector.peer
  if conns.sockets[client]?.map (·.destId) ≠ some id then
    { conns with connector := conns.connector.done false }
  else
    match TcpClient.sendAll (conns.isConnected client) (Frame.ping.bytes conns.myId) results with
    | none => conns
    | some outcome =>
        let conns := conns.modifySocket client fun socket =>
          { socket with connected := outcome.connected }
        if mapSockFailures outcome.code then { conns with connector := conns.connector.done false }
        else { conns with connector := { conns.connector with pc := .dead client } }

/-- The steps of the connecting thread that need nothing from outside. -/
def connectorStep (conns : Connections) : Connections :=
  let connector := conns.connector
  match connector.pc with
  | .idle => conns
  | .pinging _ => conns
  | .dead client => { conns.disconnect client with connector := { connector with pc := .stopping } }
  | .stopping =>
      { conns.stopWorker connector.peer with connector := { connector with pc := .connecting } }
  | .connecting => conns
  | .upserting client =>
      { conns.upsertSocket connector.peer client with connector :=
        { connector with pc := .starting } }
  | .starting =>
      { conns with
        connector :=
          if (conns.recvrs connector.peer).isSome then connector.done true
          else { connector with pc := .creating } }
  | .creating => { conns.createWorker connector.peer with connector := connector.done true }

/-- The thread of a receive worker ends. -/
def workerExits (conns : Connections) (id : NodeId) (reason : WorkerExit) : Connections :=
  match conns.recvrs id with
  | some ⟨some sock, true⟩ =>
      let ended := Function.update conns.recvrs id (some ⟨some sock, false⟩)
      match reason with
      | .sawDisconnect => if conns.isConnected sock then conns else { conns with recvrs := ended }
      | .peerClosed => { conns.disconnect sock with recvrs := ended }
      | .badHeader => { conns.disconnect sock with recvrs := ended }
      | .failed => { conns with recvrs := ended }
  | _ => conns

inductive Action where
  /-- `open_and_listen` succeeds. -/
  | listen
  /-- `accept` returns a client. -/
  | accept
  | greet (results : List OsRecv)
  | server
  | next
  | connect (link : Option (List OsSend))
  | ping (results : List OsSend)
  | connector
  /-- A send finds the connection dead. -/
  | connectionDies (sock : SockRef)
  | workerExits (id : NodeId) (reason : WorkerExit)

def step (conns : Connections) : Action → Connections
  | .listen => if conns.server = .closed then { conns with server := .listening } else conns
  | .accept =>
      if conns.server = .listening then
        { conns with
          sockets := conns.sockets ++ [⟨true, invalidNode⟩]
          server := .greeting conns.sockets.length }
      else conns
  | .greet results =>
      match conns.server with
      | .greeting client => conns.serverGreets client results
      | _ => conns
  | .server => conns.serverStep
  | .next => if conns.connector.pc = .idle then conns.nextPeer else conns
  | .connect link => if conns.connector.pc = .connecting then conns.connectPeer link else conns
  | .ping results =>
      match conns.connector.pc with
      | .pinging client => conns.pingPeer client results
      | _ => conns
  | .connector => conns.connectorStep
  | .connectionDies sock => conns.disconnect sock
  | .workerExits id reason => conns.workerExits id reason

end Connections

end Eroil
